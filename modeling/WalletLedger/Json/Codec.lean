import WalletLedger.Json.Mismatch

/-!
# Codecs

A codec ties a type to its JSON form.  It reads the type straight from the outline of a
text, or from a value read before, and writes it.  The two readers accept the same
documents; they differ in what they see first when a document has several faults, since a
text is read from the front and a value has its keys in order.
-/

namespace WalletLedger
namespace Json

/-- Where a value to be read comes from. -/
inductive Holder where
  /-- A value on its own. -/
  | value
  /-- The members of an object that are held back until its other members are read. -/
  | held
  deriving DecidableEq, Repr

structure Codec (α : Type) where
  /-- Reads from an outline, with a depth left for arrays and objects. -/
  ofOutline : Nat → Outline → Except Mismatch α
  ofJson : Holder → Json → Except Mismatch α
  toJson : α → Json

namespace Codec

/-!
# Whole documents
-/

def decode (c : Codec α) (text : String) : Except Mismatch α := do
  let (shape, rest) := outline text.toList
  let x ← c.ofOutline Outline.depthLimit shape
  orFault (endOfText rest)
  .ok x

def decodeValue (c : Codec α) (v : Json) : Except Mismatch α :=
  c.ofJson .value v

def encode (c : Codec α) (x : α) : String :=
  (c.toJson x).render

/-- Makes a value, which has its keys in order. -/
def encodeValue (c : Codec α) (x : α) : Json :=
  (c.toJson x).sorted

/-!
# Leaves
-/

/-- A reader of leaves: a number or a string is read first and then looked at. -/
def leaf (wanted : String) (look : Json → Except Mismatch α) (toJson : α → Json) : Codec α where
  ofOutline _ shape :=
    match shape with
    | .number text => do
        let (v, _) ← orFault (readNumber text)
        look v
    | .string text => do
        let (cs, _) ← orFault (readString text)
        look (.string (String.ofList cs))
    | .null => look .null
    | .bool b => look (.bool b)
    | shape => shape.refuse wanted
  ofJson _ v := look v
  toJson := toJson

def lookNat (limit : Nat) (wanted : String) : Json → Except Mismatch Nat
  | .unsigned n =>
      if n.toNat ≤ limit then .ok n.toNat else .error (.range (.unsigned n) wanted)
  | .negative n => .error (.range (.negative n) wanted)
  | v => .error (.kind v.found wanted)

/-- Words of 64 bits under the name a message gives them. -/
def word (wanted : String) : Codec UInt64 :=
  leaf wanted (fun v => (lookNat (2 ^ 64 - 1) wanted v).map UInt64.ofNat) .unsigned

def uint64 : Codec UInt64 := word "u64"

def count : Codec UInt64 := word "usize"

def uint32 : Codec UInt32 :=
  leaf "u32" (fun v => (lookNat (2 ^ 32 - 1) "u32" v).map UInt32.ofNat)
    fun n => .unsigned n.toUInt64

def lookInt64 : Json → Except Mismatch Int
  | .unsigned n =>
      if n.toNat < 2 ^ 63 then .ok n.toNat else .error (.range (.unsigned n) "i64")
  | .negative n => .ok n
  | v => .error (.kind v.found "i64")

def int64 : Codec Int :=
  leaf "i64" lookInt64 fun n =>
    match n with
    | .ofNat n => .unsigned (UInt64.ofNat n)
    | .negSucc _ => .negative n

def bool : Codec Bool :=
  leaf "a boolean"
    (fun v =>
      match v with
      | .bool b => .ok b
      | v => .error (.kind v.found "a boolean"))
    .bool

def string : Codec String :=
  leaf "a string"
    (fun v =>
      match v with
      | .string s => .ok s
      | v => .error (.kind v.found "a string"))
    .string

def json : Codec Json where
  ofOutline depth shape := (orFault (shape.read depth)).map sorted
  ofJson _ v := .ok v
  toJson v := v

/-!
# Changing the type
-/

/-- Reads through `pack` and writes through `unpack`. -/
def iso (c : Codec α) (pack : α → β) (unpack : β → α) : Codec β where
  ofOutline depth shape := (c.ofOutline depth shape).map pack
  ofJson holder v := (c.ofJson holder v).map pack
  toJson x := c.toJson (unpack x)

/-- Reads what `check` accepts; its reason is the whole message. -/
def refine (c : Codec α) (check : α → Except String β) (unpack : β → α) : Codec β where
  ofOutline depth shape := do
    let x ← c.ofOutline depth shape
    (check x).mapError .refused
  ofJson holder v := do
    let x ← c.ofJson holder v
    (check x).mapError .refused
  toJson x := c.toJson (unpack x)

def optional (c : Codec α) : Codec (Option α) where
  ofOutline depth shape :=
    match shape with
    | .null => .ok none
    | shape => (c.ofOutline depth shape).map some
  ofJson holder v :=
    match v with
    | .null => .ok none
    | v => (c.ofJson holder v).map some
  toJson x :=
    match x with
    | none => .null
    | some x => c.toJson x

/-!
# Lists
-/

def list (c : Codec α) : Codec (List α) where
  ofOutline depth shape :=
    match shape with
    | .array items ending => do
        let depth ← orFault (Outline.enter depth)
        let xs ← items.mapM (c.ofOutline depth)
        orFault (raise? ending.nextFault?)
        .ok xs
    | shape => shape.refuse "a sequence"
  ofJson holder v :=
    match v with
    | .array items => items.mapM (c.ofJson holder)
    | v => .error (.kind v.found "a sequence")
  toJson xs := .array (xs.map c.toJson)

/-!
# Names
-/

def lookVariant (variants : List (String × α)) (name : String) : Except Mismatch α :=
  match variants.find? fun v => v.1 == name with
  | some (_, x) => .ok x
  | none => .error (.variant name (variants.map Prod.fst))

/-- Accepts only null, as the content of a variant that has none. -/
def unitContent (holder : Holder) : Json → Except Mismatch Unit
  | .null => .ok ()
  | .object [] => if holder = .held then .ok () else .error (.kind .map "unit")
  | v => .error (.kind v.found "unit")

def unitContentOutline : Outline → Except Mismatch Unit
  | .null => .ok ()
  | shape => shape.refuse "unit"

/--
One of several names.  A name is a string, or the only key of an object whose value is
null.
-/
def variants (names : List (String × α)) (name : α → String) : Codec α where
  ofOutline depth shape :=
    match shape with
    | .string text => do
        let (cs, _) ← orFault (readString text)
        lookVariant names (String.ofList cs)
    | .object members ending => do
        let _ ← orFault (Outline.enter depth)
        match members with
        | [] =>
            match ending with
            | .textEnd => .error (.fault .endInValue)
            | .keyless => .error (.fault .keyNotString)
            | _ => .error (.fault .valueDue)
        | (key, content) :: rest => do
            let (cs, _) ← orFault (readString key)
            let x ← lookVariant names (String.ofList cs)
            unitContentOutline content
            match rest, ending with
            | [], .closed => .ok x
            | [], .textEnd => .error (.fault .endInObject)
            | _, _ => .error (.fault .valueDue)
    | .broken .identWrong | .broken .identEnd | .broken .noValue => .error (.fault .valueDue)
    | .broken why => .error (.fault why.fault)
    | _ => .error (.fault .valueDue)
  ofJson holder v :=
    match v with
    | .string s => lookVariant names s
    | .object [(key, content)] => do
        let x ← lookVariant names key
        unitContent holder content
        .ok x
    | .object _ => .error (.range .map "map with a single key")
    | v => .error (.kind v.found "string or map")
  toJson x := .string (name x)

end Codec
end Json
end WalletLedger
