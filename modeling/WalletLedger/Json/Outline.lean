import WalletLedger.Json.Scan

/-!
# The outline of a text

The outline is the shape of a JSON text: what kind of value stands where, up to the first
place where the text breaks.  Strings and numbers are kept as the text from which they
start, to be read or skipped when it is known what they are for.  So the same outline
serves a reader that wants a certain type, one that takes any value, and one that only
passes over a value, and each finds its faults in the order of the text.
-/

namespace WalletLedger
namespace Json

/-!
# Outlines
-/

/-- How an array stops behind its items. -/
inductive ArrayEnd where
  | closed
  | commaClosed
  | commaEnd
  | textEnd
  | unseparated
  | broken
  deriving DecidableEq, Repr

inductive ObjectEnd where
  | closed
  | commaClosed
  | commaEnd
  | textEnd
  | unseparated
  /-- Something that is no string where a key is due. -/
  | keyless
  | broken
  deriving DecidableEq, Repr

inductive Break where
  | textEnd
  | identEnd
  | identWrong
  | noValue
  | colonEnd
  | colonMissing
  deriving DecidableEq, Repr

namespace Break

def fault : Break → Fault
  | .textEnd | .identEnd => .endInValue
  | .identWrong => .identDue
  | .noValue => .valueDue
  | .colonEnd => .endInObject
  | .colonMissing => .colonDue

end Break

inductive Outline where
  | null
  | bool (b : Bool)
  /-- A number and all that follows it. -/
  | number (text : List Char)
  /-- What follows an opening quote. -/
  | string (text : List Char)
  | array (items : List Outline) (ending : ArrayEnd)
  /-- Each key is what follows its opening quote. -/
  | object (members : List (List Char × Outline)) (ending : ObjectEnd)
  | broken (why : Break)
  deriving Repr, Inhabited

/-!
# Making the outline of a text
-/

def isSpace (c : Char) : Bool :=
  c == ' ' || c == '\n' || c == '\t' || c == '\r'

def skipSpace (cs : List Char) : List Char :=
  cs.dropWhile isSpace

/-- Matches the letters of a word; says where the text stands or why it does not match. -/
def matchWord : List Char → List Char → Except Break (List Char)
  | [], rest => .ok rest
  | _ :: _, [] => .error .identEnd
  | w :: ws, c :: cs => if w = c then matchWord ws cs else .error .identWrong

/-- An outline together with the text behind it; a broken one has nothing behind it. -/
abbrev Outlined := Outline × Option (List Char)

def wordOutline (word : List Char) (value : Outline) (cs : List Char) : Outlined :=
  match matchWord word cs with
  | .ok rest => (value, some rest)
  | .error why => (.broken why, none)

mutual

def outlineAux : Nat → List Char → Outlined
  | 0, _ => (.broken .textEnd, none)
  | fuel + 1, cs =>
      match skipSpace cs with
      | [] => (.broken .textEnd, none)
      | 'n' :: rest => wordOutline ['u', 'l', 'l'] .null rest
      | 't' :: rest => wordOutline ['r', 'u', 'e'] (.bool true) rest
      | 'f' :: rest => wordOutline ['a', 'l', 's', 'e'] (.bool false) rest
      | '"' :: rest => (.string rest, (skipString rest).toOption)
      | '[' :: rest =>
          match skipSpace rest with
          | [] => (.array [] .textEnd, none)
          | ']' :: rest => (.array [] .closed, some rest)
          | rest =>
              let (items, ending, rest) := outlineItems fuel rest
              (.array items ending, rest)
      | '\x7b' :: rest =>
          match skipSpace rest with
          | [] => (.object [] .textEnd, none)
          | '\x7d' :: rest => (.object [] .closed, some rest)
          | rest =>
              let (members, ending, rest) := outlineMembers fuel rest
              (.object members ending, rest)
      | c :: rest =>
          if c = '-' ∨ c.isDigit then (.number (c :: rest), (skipNumber (c :: rest)).toOption)
          else (.broken .noValue, none)

/-- The items of an array from the first character of an item on. -/
def outlineItems : Nat → List Char → List Outline × ArrayEnd × Option (List Char)
  | 0, _ => ([], .broken, none)
  | fuel + 1, cs =>
      match outlineAux fuel cs with
      | (item, none) => ([item], .broken, none)
      | (item, some rest) =>
          match skipSpace rest with
          | [] => ([item], .textEnd, none)
          | ']' :: rest => ([item], .closed, some rest)
          | ',' :: rest =>
              match skipSpace rest with
              | [] => ([item], .commaEnd, none)
              | ']' :: _ => ([item], .commaClosed, none)
              | rest =>
                  let (items, ending, rest) := outlineItems fuel rest
                  (item :: items, ending, rest)
          | _ => ([item], .unseparated, none)

/-- The members of an object from the place of a key on. -/
def outlineMembers : Nat → List Char → List (List Char × Outline) × ObjectEnd × Option (List Char)
  | 0, _ => ([], .broken, none)
  | fuel + 1, cs =>
      match cs with
      | '"' :: key =>
          match skipString key with
          | .error _ => ([(key, .broken .colonMissing)], .broken, none)
          | .ok rest =>
              match skipSpace rest with
              | [] => ([(key, .broken .colonEnd)], .broken, none)
              | ':' :: rest =>
                  match outlineAux fuel rest with
                  | (value, none) => ([(key, value)], .broken, none)
                  | (value, some rest) =>
                      match skipSpace rest with
                      | [] => ([(key, value)], .textEnd, none)
                      | '\x7d' :: rest => ([(key, value)], .closed, some rest)
                      | ',' :: rest =>
                          match skipSpace rest with
                          | [] => ([(key, value)], .commaEnd, none)
                          | '\x7d' :: _ => ([(key, value)], .commaClosed, none)
                          | rest =>
                              let (members, ending, rest) := outlineMembers fuel rest
                              ((key, value) :: members, ending, rest)
                      | _ => ([(key, value)], .unseparated, none)
              | _ => ([(key, .broken .colonMissing)], .broken, none)
      | _ => ([], .keyless, none)

end

def outline (cs : List Char) : Outlined :=
  outlineAux (2 * cs.length + 2) cs

/-!
# What an end means to a reader
-/

namespace ArrayEnd

/-- The fault met when a further item is asked for; none when the array is closed. -/
def nextFault? : ArrayEnd → Option Fault
  | .closed => none
  | .commaClosed => some .trailingComma
  | .commaEnd => some .endInValue
  | .textEnd => some .endInList
  | .unseparated | .broken => some .listCommaOrEndDue

/-- The fault met when a reader that needs no further item asks for the end. -/
def closeFault? : ArrayEnd → Option Fault
  | .closed => none
  | .commaClosed => some .trailingComma
  | .textEnd => some .endInList
  | .commaEnd | .unseparated | .broken => some .trailingCharacters

def skipFault? : ArrayEnd → Option Fault
  | .closed => none
  | .commaClosed => some .valueDue
  | .commaEnd => some .endInValue
  | .textEnd => some .endInList
  | .unseparated | .broken => some .listCommaOrEndDue

end ArrayEnd

namespace ObjectEnd

def nextFault? : ObjectEnd → Option Fault
  | .closed => none
  | .commaClosed => some .trailingComma
  | .commaEnd => some .endInValue
  | .textEnd => some .endInObject
  | .unseparated | .broken => some .objectCommaOrEndDue
  | .keyless => some .keyNotString

def skipFault? : ObjectEnd → Option Fault
  | .closed => none
  | .commaClosed | .keyless => some .keyNotString
  | .commaEnd | .textEnd => some .endInObject
  | .unseparated | .broken => some .objectCommaOrEndDue

end ObjectEnd

def raise? : Option Fault → Except Fault Unit
  | none => .ok ()
  | some f => .error f

/-!
# Passing over a value and reading any value
-/

namespace Outline

mutual

/-- Passes over a value, however deep, and finds its first fault. -/
def skip : Outline → Except Fault Unit
  | .null | .bool _ => .ok ()
  | .number text => (skipNumber text).map fun _ => ()
  | .string text => (skipString text).map fun _ => ()
  | .array items ending => do
      skipItems items
      raise? ending.skipFault?
  | .object members ending => do
      skipMembers members
      raise? ending.skipFault?
  | .broken why => .error why.fault

def skipItems : List Outline → Except Fault Unit
  | [] => .ok ()
  | item :: rest => do
      skip item
      skipItems rest

def skipMembers : List (List Char × Outline) → Except Fault Unit
  | [] => .ok ()
  | (key, value) :: rest => do
      let _ ← skipString key
      skip value
      skipMembers rest

end

/-- How many arrays and objects may stand within one another, one more than that. -/
def depthLimit : Nat := 128

def enter (depth : Nat) : Except Fault Nat :=
  if depth ≤ 1 then .error .tooDeep else .ok (depth - 1)

mutual

def read (depth : Nat) : Outline → Except Fault Json
  | .null => .ok .null
  | .bool b => .ok (.bool b)
  | .number text => (readNumber text).map Prod.fst
  | .string text => (readString text).map fun (cs, _) => .string (String.ofList cs)
  | .array items ending => do
      let depth ← enter depth
      let values ← readItems depth items
      raise? ending.nextFault?
      .ok (.array values)
  | .object members ending => do
      let depth ← enter depth
      let values ← readMembers depth members
      raise? ending.nextFault?
      .ok (.object values)
  | .broken why => .error why.fault

def readItems (depth : Nat) : List Outline → Except Fault (List Json)
  | [] => .ok []
  | item :: rest => do
      let value ← read depth item
      let values ← readItems depth rest
      .ok (value :: values)

def readMembers (depth : Nat) :
    List (List Char × Outline) → Except Fault (List (String × Json))
  | [] => .ok []
  | (key, item) :: rest => do
      let (key, _) ← readString key
      let value ← read depth item
      let values ← readMembers depth rest
      .ok ((String.ofList key, value) :: values)

end

end Outline

def endOfText (rest : Option (List Char)) : Except Fault Unit :=
  if (skipSpace (rest.getD [])).isEmpty then .ok () else .error .trailingCharacters

def parse (text : String) : Except Fault Json := do
  let (shape, rest) := outline text.toList
  let value ← shape.read Outline.depthLimit
  endOfText rest
  .ok value.sorted

end Json
end WalletLedger
