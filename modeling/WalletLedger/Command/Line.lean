import WalletLedger.Command.Usage

/-!
# Command lines

The arguments are read from the left.  An option waits for its value until the next
argument; its value is looked at when the argument behind it turns out to be an option too,
or at the end.  Variables of the environment count for options that are not given.
-/

namespace WalletLedger
namespace Command

inductive Value where
  | text (s : String)
  | number (n : Nat)
  deriving DecidableEq, Repr

/-!
# Values
-/

def readValue (s : Setting) (text : String) : Except UsageError Value :=
  let refused (why : ValueError) : UsageError := .valueRefused s text why
  match s.kind with
  | .text => .ok (.text text)
  | .path => if text.isEmpty then .error (.valueMissing s) else .ok (.text text)
  | .word =>
      match Text.readNat (2 ^ 64 - 1) text.toList with
      | .ok n => .ok (.number n)
      | .error why => .error (refused (.numeral why))
  | .upTo limit =>
      match Text.readInt64 text.toList with
      | .error why => .error (refused (.numeral why))
      | .ok n =>
          if 0 ≤ n ∧ n ≤ limit then .ok (.number n.toNat)
          else .error (refused (.outOfRange n limit))

abbrev Given := List (Setting × Value)

/-- Adds a setting, which must not have been given before. -/
def give (given : Given) (s : Setting) (text : String) : Except UsageError Given :=
  if (given.lookup s).isSome then .error (.repeated s)
  else do
    let value ← readValue s text
    return given ++ [(s, value)]

/-!
# Arguments
-/

inductive Argument where
  | escape
  | long (name : String) (attached : Option String)
  | short (letter : Char)
  | plain (text : String)
  deriving DecidableEq, Repr

def Argument.ofText (text : String) : Argument :=
  match text.toList with
  | ['-', '-'] => .escape
  | '-' :: '-' :: rest =>
      let name := String.ofList (rest.takeWhile (· != '='))
      match rest.dropWhile (· != '=') with
      | _ :: value => .long name (some (String.ofList value))
      | [] => .long name none
  | '-' :: letter :: _ => .short letter
  | _ => .plain text

/-- An option that waits, with its value if that has come. -/
abbrev Waiting := Option (Setting × Option String)

def settle (given : Given) : Waiting → Except UsageError Given
  | none => .ok given
  | some (s, none) => .error (.valueMissing s)
  | some (s, some text) => give given s text

/-- Ends with help or the version, unless the option that waits is wrong. -/
def stopAfter (given : Given) (waiting : Waiting) (stop : Stop) : Stop :=
  match settle given waiting with
  | .ok _ => stop
  | .error e => .usage e

def flagStop? : String → Option Stop
  | "help" => some .help
  | "version" => some .version
  | _ => none

/-- Reads arguments behind those that have been given; one may wait for its value. -/
def scan (given : Given) (waiting : Waiting) : List String → Except Stop Given
  | [] => (settle given waiting).mapError .usage
  | text :: rest =>
      let unexpected {α : Type} (argument : String) : Except Stop α :=
        .error (.usage (.unexpected argument))
      match Argument.ofText text with
      | .escape =>
          match rest with
          | [] => (settle given waiting).mapError .usage
          | next :: _ => unexpected next
      | .long name attached =>
          match Setting.ofFlag? name, attached with
          | some s, some value => do
              let given ← (settle given waiting).mapError .usage
              let given ← (give given s value).mapError .usage
              scan given none rest
          | some s, none => do
              let given ← (settle given waiting).mapError .usage
              scan given (some (s, none)) rest
          | none, attached =>
              match flagStop? name, attached with
              | some stop, none => .error (stopAfter given waiting stop)
              | some _, some value => .error (.usage (.valueTooMany value ("--" ++ name)))
              | none, _ => unexpected ("--" ++ name)
      | .short 'h' => .error (stopAfter given waiting .help)
      | .short 'V' => .error (stopAfter given waiting .version)
      | .short letter => unexpected (String.ofList ['-', letter])
      | .plain value =>
          match waiting with
          | some (s, none) => scan given (some (s, some value)) rest
          | _ => unexpected value

/-!
# The environment
-/

def addVariables (environment : String → Option String) :
    List Setting → Given → Except UsageError Given
  | [], given => .ok given
  | s :: rest, given =>
      match given.lookup s, s.envName?.bind environment with
      | none, some text => do
          let given ← give given s text
          addVariables environment rest given
      | _, _ => addVariables environment rest given

/-- The first setting that another one excludes, with that one. -/
def exclusion? (given : Given) : Option (Setting × Setting) :=
  (given.map Prod.fst).findSome? fun s =>
    ((given.map Prod.fst).find? s.excludes).map fun other => (s, other)

/-!
# The whole line
-/

namespace Given

def text? (given : Given) (s : Setting) : Option String :=
  match given.lookup s with
  | some (.text value) => some value
  | _ => none

def number? (given : Given) (s : Setting) : Option Nat :=
  match given.lookup s with
  | some (.number n) => some n
  | _ => none

end Given

def Arguments.ofGiven (given : Given) : Arguments where
  engineUrl := (given.text? .engineUrl).getD usual.engineUrl
  engineUser := given.text? .engineUser
  enginePass := given.text? .enginePass
  engineCookieFile := given.text? .engineCookieFile
  engineRequestsPerSecond := (given.number? .engineRequestsPerSecond).map UInt32.ofNat
  engineBatchChunkSize := (given.number? .engineBatchChunkSize).getD usual.engineBatchChunkSize
  snapshot := given.text? .snapshot
  minHeight := ((given.number? .minHeight).map UInt64.ofNat).getD usual.minHeight
  maxHeight := (given.number? .maxHeight).map UInt64.ofNat
  refreshIntervalSecs :=
    ((given.number? .refreshIntervalSecs).map UInt64.ofNat).getD usual.refreshIntervalSecs
  bind := (given.text? .bind).getD usual.bind
  port := ((given.number? .port).map UInt16.ofNat).getD usual.port

/-- Reads a command line, to which the name of the program does not belong. -/
def parse (arguments : List String) (environment : String → Option String) :
    Except Stop Arguments := do
  let given ← scan [] none arguments
  let given ← (addVariables environment Setting.all given).mapError .usage
  match exclusion? given with
  | some (first, second) => .error (.usage (.excluded first second))
  | none => .ok (.ofGiven given)

end Command
end WalletLedger
