import WalletLedger.Wallet.Identifier
import WalletLedger.Wallet.IndexSet

/-!
# Ledger entries

What a wallet keeps about its transactions.  There are four ledgers: payments received and
mined, payments received that wait in the pool, transfers sent and mined, and transfers
sent that wait or have failed.  Amounts, heights and times are words of 64 bits.
-/

namespace WalletLedger

/-!
# Classification
-/

inductive PayType where
  | unspecified
  | incoming
  | outgoing
  | stake
  | miner
  | serviceNode
  | governance
  deriving DecidableEq, Repr, Hashable

inductive Network where
  | mainnet
  | testnet
  | devnet
  | fakechain
  deriving DecidableEq, Repr, Hashable

inductive TransferState where
  | pending
  | pendingNotInPool
  | failed
  deriving DecidableEq, Repr, Hashable

namespace PayType

def name : PayType → String
  | .unspecified => "unspecified"
  | .incoming => "in"
  | .outgoing => "out"
  | .stake => "stake"
  | .miner => "miner"
  | .serviceNode => "service_node"
  | .governance => "governance"

def all : List PayType :=
  [.unspecified, .incoming, .outgoing, .stake, .miner, .serviceNode, .governance]

def codec : Json.Codec PayType :=
  Json.Codec.variants (all.map fun t => (t.name, t)) name

end PayType

namespace Network

def name : Network → String
  | .mainnet => "mainnet"
  | .testnet => "testnet"
  | .devnet => "devnet"
  | .fakechain => "fakechain"

def all : List Network := [.mainnet, .testnet, .devnet, .fakechain]

def codec : Json.Codec Network :=
  Json.Codec.variants (all.map fun n => (n.name, n)) name

end Network

namespace TransferState

def name : TransferState → String
  | .pending => "pending"
  | .pendingNotInPool => "pending_not_in_pool"
  | .failed => "failed"

def all : List TransferState := [.pending, .pendingNotInPool, .failed]

def codec : Json.Codec TransferState :=
  Json.Codec.variants (all.map fun s => (s.name, s)) name

end TransferState

/-!
# Places
-/

/-- A subaddress: the account and the index within it. -/
structure SubaddressIndex where
  major : UInt32
  minor : UInt32
  deriving DecidableEq, Repr, Hashable

structure Destination where
  amount : UInt64
  spendKey : PublicKey
  viewKey : PublicKey
  isSubaddress : Bool
  isIntegrated : Bool
  /-- The address as the sender entered it. -/
  original : Option String
  deriving DecidableEq, Hashable

/-!
# Entries
-/

structure Payment where
  txHash : TxHash
  amount : UInt64
  subaddress : SubaddressIndex
  /-- Zero when the payment has not been mined. -/
  blockHeight : UInt64
  timestamp : UInt64
  unlockTime : UInt64
  payType : PayType
  deriving DecidableEq

structure PoolPayment where
  payment : Payment
  doubleSpendSeen : Bool
  deriving DecidableEq

/-- What mined and waiting transfers have in common; the totals are gross. -/
structure Spending where
  amountIn : UInt64
  amountOut : UInt64
  /-- What came back to the wallet, where that is known. -/
  change : Option UInt64
  timestamp : UInt64
  account : UInt32
  indices : IndexSet
  payType : PayType
  paymentId : PaymentId
  deriving DecidableEq

structure ConfirmedTransfer extends Spending where
  blockHeight : UInt64
  destinations : List Destination
  deriving DecidableEq

structure PendingTransfer extends Spending where
  state : TransferState
  deriving DecidableEq

/-!
# Ledgers
-/

abbrev IncomingLedger := List (PaymentId × Payment)
abbrev OutgoingLedger := List (TxHash × ConfirmedTransfer)
abbrev PendingLedger := List (TxHash × PendingTransfer)
abbrev PoolLedger := List (PaymentId × PoolPayment)

/-- Confirmed entries belong to a window of heights, open below and closed above. -/
structure HeightWindow where
  minHeight : UInt64
  maxHeight : UInt64
  deriving DecidableEq, Repr

namespace HeightWindow

def all : HeightWindow := ⟨0, 0xffffffffffffffff⟩

def contains (w : HeightWindow) (height : UInt64) : Bool :=
  w.minHeight < height && height ≤ w.maxHeight

end HeightWindow
end WalletLedger
