import WalletLedger.Json.Outline
import WalletLedger.Json.Render
import WalletLedger.Text.Quoted

/-!
# Values of the wrong type

What a typed reader found in place of what it wanted, and the words for it.
-/

namespace WalletLedger
namespace Json

inductive Found where
  | null
  | bool (b : Bool)
  | unsigned (n : UInt64)
  | negative (n : Int)
  | binary (x : Number.Binary64)
  | string (s : String)
  | sequence
  | map
  deriving DecidableEq, Repr

namespace Found

def message : Found → String
  | .null => "null"
  | .bool b => s!"boolean `{b}`"
  | .unsigned n => s!"integer `{n.toNat}`"
  | .negative n => s!"integer `{n}`"
  | .binary x => s!"floating point `{String.ofList x.render}`"
  | .string s => s!"string {Text.quoted s}"
  | .sequence => "sequence"
  | .map => "map"

end Found

def found : Json → Found
  | .null => .null
  | .bool b => .bool b
  | .unsigned n => .unsigned n
  | .negative n => .negative n
  | .binary x => .binary x
  | .string s => .string s
  | .array _ => .sequence
  | .object _ => .map

inductive Mismatch where
  | fault (f : Fault)
  | kind (found : Found) (wanted : String)
  | range (found : Found) (wanted : String)
  | length (count : Nat) (wanted : String)
  | variant (name : String) (variants : List String)
  | missing (field : String)
  | duplicate (field : String)
  /-- A string that its reader refuses, with the reason. -/
  | refused (reason : String)
  deriving DecidableEq, Repr

namespace Mismatch

def choice : List String → String
  | [] => "there are no variants"
  | [a] => s!"expected `{a}`"
  | [a, b] => s!"expected `{a}` or `{b}`"
  | names => "expected one of " ++ String.intercalate ", " (names.map fun n => s!"`{n}`")

def message : Mismatch → String
  | .fault f => f.message
  | .kind found wanted => s!"invalid type: {found.message}, expected {wanted}"
  | .range found wanted => s!"invalid value: {found.message}, expected {wanted}"
  | .length count wanted => s!"invalid length {count}, expected {wanted}"
  | .variant name variants => s!"unknown variant `{name}`, {choice variants}"
  | .missing field => s!"missing field `{field}`"
  | .duplicate field => s!"duplicate field `{field}`"
  | .refused reason => reason

end Mismatch

def orFault (r : Except Fault α) : Except Mismatch α :=
  r.mapError .fault

namespace Outline

/-- What stands here, which may be a leaf that is broken itself. -/
def found : Outline → Except Fault Found
  | .null => .ok .null
  | .bool b => .ok (.bool b)
  | .number text => (readNumber text).map fun (v, _) => v.found
  | .string text => (readString text).map fun (cs, _) => .string (String.ofList cs)
  | .array _ _ => .ok .sequence
  | .object _ _ => .ok .map
  | .broken why => .error why.fault

/-- Refuses what stands here; of an array or object no more than its first character counts. -/
def refuse (shape : Outline) (wanted : String) : Except Mismatch α :=
  match shape.found with
  | .ok found => .error (.kind found wanted)
  | .error f => .error (.fault f)

end Outline
end Json
end WalletLedger
