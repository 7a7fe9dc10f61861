import WalletLedger.Command.Arguments

/-!
# Errors of use

Why a command line is not understood, and the first line of what is said about it.
-/

namespace WalletLedger
namespace Command

inductive ValueError where
  | numeral (why : Text.NumeralError)
  | outOfRange (n : Int) (limit : Nat)
  deriving DecidableEq, Repr

def ValueError.message : ValueError → String
  | .numeral why => why.message
  | .outOfRange n limit => s!"{n} is not in 0..={limit}"

inductive UsageError where
  | unexpected (argument : String)
  | valueMissing (setting : Setting)
  | valueRefused (setting : Setting) (text : String) (why : ValueError)
  | repeated (setting : Setting)
  | excluded (first second : Setting)
  /-- A value for a flag that takes none. -/
  | valueTooMany (text flag : String)
  deriving DecidableEq, Repr

namespace UsageError

def message : UsageError → String
  | .unexpected argument => s!"error: unexpected argument '{argument}' found"
  | .valueMissing s => s!"error: a value is required for '{s.shown}' but none was supplied"
  | .valueRefused s text why =>
      s!"error: invalid value '{text}' for '{s.shown}': {why.message}"
  | .repeated s => s!"error: the argument '{s.shown}' cannot be used multiple times"
  | .excluded first second =>
      s!"error: the argument '{first.shown}' cannot be used with '{second.shown}'"
  | .valueTooMany text flag =>
      s!"error: unexpected value '{text}' for '{flag}' found; no more were expected"

def headline (e : UsageError) : String :=
  String.ofList (e.message.toList.takeWhile (· != '\n'))

end UsageError

/-- What ends a command line before the program starts. -/
inductive Stop where
  | help
  | version
  | usage (e : UsageError)
  deriving DecidableEq, Repr

def about : String :=
  "Tally: local wallet transaction history cache with a REST API"

def versionText : String :=
  "tally 0.1.0"

def Setting.help (s : Setting) : String :=
  let fromEnvironment := match s.envName? with
    | some name => s!" [env: {name}]"
    | none => ""
  let usually := match s.usual? with
    | some text => s!" [default: {text}]"
    | none => ""
  s!"      {s.shown}\n          {s.explanation}{fromEnvironment}{usually}\n"

def helpText : String :=
  about ++ "\n\nUsage: tally [OPTIONS]\n\nOptions:\n" ++
    String.join (Setting.all.map Setting.help) ++
    "  -h, --help\n          Print help\n  -V, --version\n          Print version"

end Command
end WalletLedger
