import WalletLedger.Engine.Basic
import WalletLedger.Record.Amounts
import WalletLedger.Wallet.PaymentIdText

/-!
# From ledgers to records

A refresh fetches the four ledgers, looks up every label and address that their entries
need, each once, and makes the records: mined incoming, mined outgoing, waiting outgoing
and waiting incoming, in the order of the ledgers.
-/

namespace WalletLedger

structure Ledgers where
  walletHeight : UInt64
  network : Network
  incoming : IncomingLedger
  outgoing : OutgoingLedger
  pending : PendingLedger
  pool : PoolLedger

/-!
# Lookups
-/

/-- A destination and the payment id that its address may contain. -/
abbrev AddressKey := Destination × PaymentId

/-- Labels and addresses that were looked up; the first of several for one key counts. -/
structure Lookups where
  labels : List (SubaddressIndex × String)
  addresses : List (AddressKey × String)

namespace Lookups

def empty : Lookups := ⟨[], []⟩

def withLabel (l : Lookups) (index : SubaddressIndex) (label : String) : Lookups :=
  { l with labels := (index, label) :: l.labels }

def withAddress (l : Lookups) (key : AddressKey) (address : String) : Lookups :=
  { l with addresses := (key, address) :: l.addresses }

def label (l : Lookups) (index : SubaddressIndex) : String :=
  (l.labels.lookup index).getD ""

def address (l : Lookups) (key : AddressKey) : String :=
  (l.addresses.lookup key).getD ""

end Lookups

def distinct {α : Type} [DecidableEq α] : List α → List α
  | [] => []
  | x :: xs => x :: (distinct xs).filter fun y => y ≠ x

namespace Spending

def subaddress? (t : Spending) : Option SubaddressIndex :=
  t.indices.only?.map fun minor => ⟨t.account, minor⟩

end Spending

namespace Ledgers

/-- Every subaddress whose label some entry needs, in the order of the scan. -/
def labelNeeds (l : Ledgers) : List SubaddressIndex :=
  l.incoming.map (fun (_, p) => p.subaddress) ++
    l.pool.map (fun (_, p) => p.payment.subaddress) ++
    l.outgoing.filterMap (fun (_, t) => t.subaddress?) ++
    l.pending.filterMap (fun (_, t) => t.subaddress?)

def addressNeeds (l : Ledgers) : List AddressKey :=
  l.outgoing.flatMap fun (_, t) => t.destinations.map fun d => (d, t.paymentId)

def labelKeys (l : Ledgers) : List SubaddressIndex :=
  distinct l.labelNeeds

def addressKeys (l : Ledgers) : List AddressKey :=
  distinct l.addressNeeds

end Ledgers

/-- Pairs each key with its reply; other numbers of replies than of keys are refused. -/
def Lookups.ofReplies (labelKeys : List SubaddressIndex) (addressKeys : List AddressKey)
    (labels addresses : List String) : Except CoreError Lookups :=
  if labels.length = labelKeys.length ∧ addresses.length = addressKeys.length then
    .ok ⟨labelKeys.zip labels, addressKeys.zip addresses⟩
  else
    .error (.invalidData (.lookupCount labels.length labelKeys.length
      addresses.length addressKeys.length))

/-!
# Records of single entries
-/

def PayType.reward : PayType → RewardType
  | .serviceNode => .serviceNode
  | .miner => .miner
  | _ => .unspecified

def PayType.isStake (t : PayType) : Bool :=
  t == .stake

namespace Record

def ofIncoming (paymentId : PaymentId) (p : Payment) (walletHeight : UInt64)
    (label : String) : Record where
  hash := p.txHash.toHex
  paymentId := paymentId.text
  direction := .incoming
  amount := p.amount
  fee := 0
  blockHeight := p.blockHeight
  confirmations := WalletLedger.confirmations walletHeight p.blockHeight
  timestamp := p.timestamp
  unlockTime := p.unlockTime
  account := p.subaddress.major
  indices := .singleton p.subaddress.minor
  label := label
  rewardType := p.payType.reward
  isStake := p.payType.isStake
  pending := false
  failed := false
  transfers := []

def ofSpending (hash : TxHash) (t : Spending) (label : String) : Record where
  hash := hash.toHex
  paymentId := t.paymentId.text
  direction := .outgoing
  amount := (outgoingAmounts t.amountIn t.amountOut t.change).amount
  fee := (outgoingAmounts t.amountIn t.amountOut t.change).fee
  blockHeight := 0
  confirmations := 0
  timestamp := t.timestamp
  unlockTime := 0
  account := t.account
  indices := t.indices
  label := label
  rewardType := .unspecified
  isStake := t.payType.isStake
  pending := false
  failed := false
  transfers := []

def ofOutgoing (hash : TxHash) (t : ConfirmedTransfer) (walletHeight : UInt64)
    (label : String) (addresses : List String) : Record :=
  { ofSpending hash t.toSpending label with
    blockHeight := t.blockHeight
    confirmations := WalletLedger.confirmations walletHeight t.blockHeight
    transfers := t.destinations.zipWith (fun d address => ⟨d.amount, address⟩) addresses }

def ofPending (hash : TxHash) (t : PendingTransfer) (label : String) : Record :=
  { ofSpending hash t.toSpending label with
    pending := true
    failed := t.state == .failed }

def ofPool (paymentId : PaymentId) (p : PoolPayment) (label : String) : Record :=
  { ofIncoming paymentId p.payment 0 label with
    pending := true
    confirmations := 0 }

end Record

/-!
# Notices of single entries
-/

def Spending.notices (hash : TxHash) (t : Spending) : List Notice :=
  amountNotices hash t.amountIn t.amountOut t.change

def PoolPayment.notices (p : PoolPayment) : List Notice :=
  (if p.doubleSpendSeen then [.doubleSpend p.payment.txHash] else []) ++
    [.unconfirmedPayment p.payment.txHash p.payment.amount]

/-!
# The collection
-/

namespace Ledgers

/-- The label of the subaddress a transfer spends from, empty when there is not just one. -/
def spendingLabel (lookups : Lookups) (t : Spending) : String :=
  (t.subaddress?.map lookups.label).getD ""

def records (l : Ledgers) (lookups : Lookups) : List Record :=
  l.incoming.map (fun (paymentId, p) =>
      .ofIncoming paymentId p l.walletHeight (lookups.label p.subaddress)) ++
    l.outgoing.map (fun (hash, t) =>
      .ofOutgoing hash t l.walletHeight (spendingLabel lookups t.toSpending)
        (t.destinations.map fun d => lookups.address (d, t.paymentId))) ++
    l.pending.map (fun (hash, t) =>
      .ofPending hash t (spendingLabel lookups t.toSpending)) ++
    l.pool.map (fun (paymentId, p) =>
      .ofPool paymentId p (lookups.label p.payment.subaddress))

def notices (l : Ledgers) : List Notice :=
  l.outgoing.flatMap (fun (hash, t) => t.toSpending.notices hash) ++
    l.pending.flatMap (fun (hash, t) => t.toSpending.notices hash) ++
    l.pool.flatMap (fun (_, p) => p.notices)

end Ledgers

/-!
# One refresh
-/

namespace Engine

variable {σ : Type}

def fetchLedgers (e : Engine σ) (window : HeightWindow) : Act σ Ledgers := do
  let both {α β : Type} := @Act.together σ α β e.overlapping
  let (walletHeight, network, incoming, outgoing, pending, pool) ←
    both e.height <| both e.network <| both (e.incoming window) <|
      both (e.outgoing window) <| both e.pending e.pool
  return { walletHeight, network, incoming, outgoing, pending, pool }

def resolveLookups (e : Engine σ) (l : Ledgers) : Act σ Lookups := do
  let labels ← e.labels l.labelKeys
  let addresses ← e.addresses l.addressKeys l.network
  Act.ofExcept (Lookups.ofReplies l.labelKeys l.addressKeys labels addresses)

def reconcile (e : Engine σ) (window : HeightWindow) : Act σ (Ledgers × List Record) := do
  let l ← e.fetchLedgers window
  let lookups ← e.resolveLookups l
  Act.report l.notices
  return (l, l.records lookups)

end Engine
end WalletLedger
