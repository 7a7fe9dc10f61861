import WalletLedger.Number.Binary64

/-!
# JSON values

A value keeps whole numbers of 64 bits apart from fractions.  An object is a list of
members: one read as a value has its keys in ascending order and each key once, while one
that is about to be written or is only held for a later reading keeps its members as they
came.
-/

namespace WalletLedger

inductive Json where
  | null
  | bool (b : Bool)
  | unsigned (n : UInt64)
  | negative (n : Int)
  | binary (x : Number.Binary64)
  | string (s : String)
  | array (items : List Json)
  | object (members : List (String × Json))
  deriving Repr, Inhabited

namespace Json

/-!
# Equality
-/

mutual

def beq : Json → Json → Bool
  | .null, .null => true
  | .bool a, .bool b => a == b
  | .unsigned a, .unsigned b => a == b
  | .negative a, .negative b => a == b
  | .binary a, .binary b => a == b
  | .string a, .string b => a == b
  | .array a, .array b => beqItems a b
  | .object a, .object b => beqMembers a b
  | _, _ => false

def beqItems : List Json → List Json → Bool
  | [], [] => true
  | a :: as, b :: bs => beq a b && beqItems as bs
  | _, _ => false

def beqMembers : List (String × Json) → List (String × Json) → Bool
  | [], [] => true
  | (k, a) :: as, (l, b) :: bs => k == l && beq a b && beqMembers as bs
  | _, _ => false

end

instance : BEq Json := ⟨beq⟩

/-!
# Members
-/

/-- Puts a member into its place by key; one with the same key is replaced. -/
def insertMember (key : String) (value : Json) : List (String × Json) → List (String × Json)
  | [] => [(key, value)]
  | (k, v) :: rest =>
      if key < k then (key, value) :: (k, v) :: rest
      else if key = k then (key, value) :: rest
      else (k, v) :: insertMember key value rest

/-- Members by ascending key, of those with one key the last. -/
def sortMembers (members : List (String × Json)) : List (String × Json) :=
  members.foldl (fun sorted (key, value) => insertMember key value sorted) []

mutual

def sorted : Json → Json
  | .array items => .array (sortedItems items)
  | .object members => .object (sortMembers (sortedMembers members))
  | v => v

def sortedItems : List Json → List Json
  | [] => []
  | v :: rest => sorted v :: sortedItems rest

def sortedMembers : List (String × Json) → List (String × Json)
  | [] => []
  | (key, v) :: rest => (key, sorted v) :: sortedMembers rest

end

/-- The value of the first member with a key, null when there is none. -/
def member (key : String) : Json → Json
  | .object members => ((members.find? fun m => m.1 == key).map Prod.snd).getD .null
  | _ => .null

end Json
end WalletLedger
