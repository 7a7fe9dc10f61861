import WalletLedger.Rpc.Credentials
import WalletLedger.Rpc.Message

/-!
# Exchanges

A body goes out and a status with a body comes back, or nothing does.  What comes back is
read as one response or as the responses to a batch.
-/

namespace WalletLedger
namespace Rpc

open Json (Codec)

inductive Delivery where
  | failed (reason : String)
  | replied (status : Http.Status) (body : String)
  deriving DecidableEq

structure Post where
  credentials : Option Credentials
  body : String
  deriving DecidableEq

/-- The other side of every exchange, which may change from one to the next. -/
abbrev Peer (π : Type) := Post → π → Delivery × π

/--
Reads the body of a reply.  A body that does not decode is a fault of the engine if the
reply was a success, and otherwise means that no engine was reached.
-/
def decodeReply {α : Type} (c : Codec α) (what : String) : Delivery → Except CoreError α
  | .failed reason => .error (.engine (.transport reason))
  | .replied status body =>
      match c.decode body with
      | .ok x => .ok x
      | .error why =>
          if status.isSuccess then
            .error (.engine (.invalidResponse (.undecodable what why status)))
          else
            .error (.engine (.unavailable (.bare status what)))

def readSingle (d : Delivery) : Except CoreError Json := do
  let response ← decodeReply Response.codec "JSON-RPC response" d
  response.outcome

/-!
# Batches

The requests of a batch have ids that follow one another.  The items of the reply come in
any order; of several items with one id the last counts.

Ids are words, and here zero follows the greatest of them.  A range of ids that would go past
the greatest word is an overflow anywhere else.  A client whose counter stays below 2 ^ 64
never reserves such a range, and what is said of single ids is said under that condition.
-/

def requestsFrom (start : UInt64) : List Call → List Request
  | [] => []
  | call :: rest => ⟨start, call⟩ :: requestsFrom (start + 1) rest

/-- Ties every item to the number its id stands for; the first bad id is reported. -/
def identified (items : List Response) : Except CoreError (List (UInt64 × Response)) :=
  items.mapM fun item => do
    let id ← itemId item.id
    .ok (id, item)

/-- What the items, of which the latest come first, say about one id. -/
def resultFor (latest : List (UInt64 × Response)) (id : UInt64) : Except CoreError Json :=
  match latest.lookup id with
  | some item => item.outcome
  | none => .error (.engine (.missingItem id))

/-- The results for the ids from `start` on, up to the first one that fails. -/
def settle (items : List Response) (start : UInt64) (count : Nat) :
    Except CoreError (List Json) := do
  let latest := (← identified items).reverse
  (List.range count).mapM fun k => resultFor latest (start + UInt64.ofNat k)

def readBatch (start : UInt64) (count : Nat) (d : Delivery) : Except CoreError (List Json) := do
  let items ← decodeReply (.list Response.codec) "JSON-RPC batch response" d
  settle items start count

/-- A list in pieces of `size`, of which only the last may be shorter. -/
def chunksOf {α : Type} (size : Nat) (xs : List α) : List (List α) :=
  match xs with
  | [] => []
  | x :: rest =>
      (x :: rest.take (size - 1)) :: chunksOf size (rest.drop (size - 1))
termination_by xs.length

end Rpc
end WalletLedger
