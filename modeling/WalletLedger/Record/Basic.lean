import WalletLedger.Json.Fields
import WalletLedger.Wallet.Entry

/-!
# Transaction records

One shape for the entries of all four ledgers, and the statistics of the refresh that made
a collection of them.
-/

namespace WalletLedger

open Json (Codec Field Fields)

inductive Direction where
  | incoming
  | outgoing
  deriving DecidableEq, Repr

inductive RewardType where
  | unspecified
  | miner
  | serviceNode
  deriving DecidableEq, Repr

structure Transfer where
  amount : UInt64
  address : String
  deriving DecidableEq, Repr

structure Record where
  hash : String
  paymentId : String
  direction : Direction
  /-- The net amount moved, without fee and change. -/
  amount : UInt64
  fee : UInt64
  /-- Zero for entries that are not mined. -/
  blockHeight : UInt64
  confirmations : UInt64
  timestamp : UInt64
  unlockTime : UInt64
  account : UInt32
  indices : IndexSet
  label : String
  rewardType : RewardType
  isStake : Bool
  pending : Bool
  failed : Bool
  transfers : List Transfer
  deriving DecidableEq

/-- What a refresh found; the last two say how long it took and when it ended. -/
structure RefreshStats where
  walletHeight : UInt64
  incoming : UInt64
  outgoing : UInt64
  pendingOutgoing : UInt64
  pool : UInt64
  durationMs : UInt64
  completedAt : UInt64
  deriving DecidableEq, Repr

/-- How many entries were found in all, as a word. -/
def RefreshStats.total (s : RefreshStats) : UInt64 :=
  s.incoming + s.outgoing + s.pendingOutgoing + s.pool

/-!
# Names
-/

namespace Direction

def name : Direction → String
  | .incoming => "incoming"
  | .outgoing => "outgoing"

def shown : Direction → String
  | .incoming => "in"
  | .outgoing => "out"

def codec : Codec Direction :=
  .variants [(name .incoming, .incoming), (name .outgoing, .outgoing)] name

end Direction

namespace RewardType

def name : RewardType → String
  | .unspecified => "unspecified"
  | .miner => "miner"
  | .serviceNode => "service_node"

def codec : Codec RewardType :=
  .variants ([.unspecified, .miner, .serviceNode].map fun t => (t.name, t)) name

end RewardType

/-!
# The JSON form
-/

def Transfer.codec : Codec Transfer :=
  .record "Transfer"
    (.cons (.required "amount" .uint64) (.cons (.required "address" .string) .nil))
    (fun (amount, address, _) => ⟨amount, address⟩)
    (fun t => (t.amount, t.address, ()))

namespace Record

def fields : Fields [String, String, Direction, UInt64, UInt64, UInt64, UInt64, UInt64, UInt64,
    UInt32, IndexSet, String, RewardType, Bool, Bool, Bool, List Transfer] :=
  .cons (.required "hash" .string) <|
  .cons (.required "payment_id" .string) <|
  .cons (.required "direction" Direction.codec) <|
  .cons (.required "amount" .uint64) <|
  .cons (.required "fee" .uint64) <|
  .cons (.required "block_height" .uint64) <|
  .cons (.required "confirmations" .uint64) <|
  .cons (.required "timestamp" .uint64) <|
  .cons (.required "unlock_time" .uint64) <|
  .cons (.required "subaddress_account" .uint32) <|
  .cons (.required "subaddress_indices" IndexSet.codec) <|
  .cons (.required "label" .string) <|
  .cons (.required "reward_type" RewardType.codec) <|
  .cons (.required "is_stake" .bool) <|
  .cons (.required "pending" .bool) <|
  .cons (.required "failed" .bool) <|
  .cons (.required "transfers" (.list Transfer.codec)) .nil

def codec : Codec Record :=
  .record "TransactionRecord" fields
    (fun (hash, paymentId, direction, amount, fee, blockHeight, confirmations, timestamp,
        unlockTime, account, indices, label, rewardType, isStake, pending, failed,
        transfers, _) =>
      { hash, paymentId, direction, amount, fee, blockHeight, confirmations, timestamp,
        unlockTime, account, indices, label, rewardType, isStake, pending, failed, transfers })
    (fun r => (r.hash, r.paymentId, r.direction, r.amount, r.fee, r.blockHeight,
      r.confirmations, r.timestamp, r.unlockTime, r.account, r.indices, r.label, r.rewardType,
      r.isStake, r.pending, r.failed, r.transfers, ()))

end Record

def RefreshStats.codec : Codec RefreshStats :=
  .record "RefreshStats"
    (.cons (.required "wallet_height" .uint64) <|
     .cons (.required "incoming" .count) <|
     .cons (.required "outgoing" .count) <|
     .cons (.required "pending_outgoing" .count) <|
     .cons (.required "pool" .count) <|
     .cons (.required "duration_ms" .uint64) <|
     .cons (.required "completed_at" .uint64) .nil)
    (fun (walletHeight, incoming, outgoing, pendingOutgoing, pool, durationMs,
        completedAt, _) =>
      ⟨walletHeight, incoming, outgoing, pendingOutgoing, pool, durationMs, completedAt⟩)
    (fun s => (s.walletHeight, s.incoming, s.outgoing, s.pendingOutgoing, s.pool,
      s.durationMs, s.completedAt, ()))

end WalletLedger
