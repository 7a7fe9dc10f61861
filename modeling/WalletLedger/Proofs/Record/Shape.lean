import WalletLedger.Proofs.Wallet.PaymentIdText
import WalletLedger.Record.Ledgers

/-!
# The shape of records

Which fields of a record go together.  Each of the four kinds of entries makes records of
one shape, whatever its ledger says: with no heights, with heights above the wallet's, with
totals that contradict one another.
-/

namespace WalletLedger

/-!
# Amounts and confirmations as numbers
-/

theorem toNat_cutSub (a b : UInt64) : (cutSub a b).toNat = a.toNat - b.toNat := by
  unfold cutSub
  split
  · next hle => exact UInt64.toNat_sub_of_le a b hle
  · next hlt =>
      have hlt := UInt64.lt_iff_toNat_lt.mp (UInt64.not_le.mp hlt)
      rw [UInt64.toNat_zero]
      omega

theorem outgoingAmounts_le (amountIn amountOut : UInt64) (change : Option UInt64) :
    (outgoingAmounts amountIn amountOut change).amount.toNat +
      (outgoingAmounts amountIn amountOut change).fee.toNat ≤ amountIn.toNat := by
  unfold outgoingAmounts
  simp only [toNat_cutSub]
  omega

theorem confirmations_sum {walletHeight blockHeight : UInt64}
    (h : 0 < confirmations walletHeight blockHeight) :
    0 < blockHeight ∧
      blockHeight.toNat + (confirmations walletHeight blockHeight).toNat =
        walletHeight.toNat := by
  unfold confirmations at h ⊢
  by_cases hzero : blockHeight = 0
  · rw [if_pos hzero] at h
    exact absurd h (UInt64.lt_irrefl 0)
  · rw [if_neg hzero] at h ⊢
    have hpos := UInt64.lt_iff_toNat_lt.mp h
    rw [toNat_cutSub] at hpos ⊢
    refine ⟨UInt64.pos_iff_ne_zero.mpr hzero, ?_⟩
    rw [UInt64.toNat_zero] at hpos
    omega

/-!
# Shapes
-/

namespace Record

/-- What goes together in a record that was made for a wallet of a height. -/
structure Shaped (walletHeight : UInt64) (r : Record) : Prop where
  incoming : r.direction = .incoming →
    r.fee = 0 ∧ r.transfers = [] ∧ r.failed = false ∧ r.indices.toList.length = 1
  outgoing : r.direction = .outgoing → r.unlockTime = 0 ∧ r.rewardType = .unspecified
  failed : r.failed = true → r.pending = true ∧ r.direction = .outgoing
  pending : r.pending = true → r.confirmations = 0 ∧ r.transfers = [] ∧
    (r.direction = .outgoing → r.blockHeight = 0)
  label : r.label ≠ "" → r.indices.toList.length = 1
  confirmed : 0 < r.confirmations → 0 < r.blockHeight ∧
    r.blockHeight.toNat + r.confirmations.toNat = walletHeight.toNat
  amounts : r.amount.toNat + r.fee.toNat < 2 ^ 64
  hash : r.hash.length = 64 ∧ ∀ c ∈ r.hash.toList, Text.IsLowerHex c
  paymentId : (∀ c ∈ r.paymentId.toList, Text.IsLowerHex c) ∧
    (r.paymentId.length = 16 ∨
      r.paymentId.length = 64 ∧ ∃ c ∈ r.paymentId.toList.drop 16, c ≠ '0')

/-- Which of the four ledgers a record comes from can be told by these two fields. -/
def IsOf (direction : Direction) (pending : Bool) (r : Record) : Prop :=
  r.direction = direction ∧ r.pending = pending

theorem hash_shape (x : TxHash) :
    x.toHex.length = 64 ∧ ∀ c ∈ x.toHex.toList, Text.IsLowerHex c :=
  ⟨x.length_toHex, fun _ hc => Identifier.isLowerHex_of_mem_toHex hc⟩

theorem paymentId_shape (p : PaymentId) :
    (∀ c ∈ p.text.toList, Text.IsLowerHex c) ∧
      (p.text.length = 16 ∨ p.text.length = 64 ∧ ∃ c ∈ p.text.toList.drop 16, c ≠ '0') :=
  ⟨fun _ hc => p.isLowerHex_of_mem_text hc, p.length_text⟩

variable {walletHeight : UInt64}

theorem shaped_ofIncoming (paymentId : PaymentId) (p : Payment) (label : String) :
    (ofIncoming paymentId p walletHeight label).Shaped walletHeight where
  incoming _ := ⟨rfl, rfl, rfl, rfl⟩
  outgoing := nofun
  failed := nofun
  pending := nofun
  label _ := rfl
  confirmed h := confirmations_sum h
  amounts := p.amount.toNat_lt
  hash := hash_shape p.txHash
  paymentId := paymentId_shape paymentId

theorem shaped_ofPool (paymentId : PaymentId) (p : PoolPayment) (label : String) :
    (ofPool paymentId p label).Shaped walletHeight where
  incoming _ := ⟨rfl, rfl, rfl, rfl⟩
  outgoing := nofun
  failed := nofun
  pending _ := ⟨rfl, rfl, nofun⟩
  label _ := rfl
  confirmed h := absurd h (UInt64.lt_irrefl 0)
  amounts := p.payment.amount.toNat_lt
  hash := hash_shape p.payment.txHash
  paymentId := paymentId_shape paymentId

/-!
# Outgoing records

Their labels come with them, and are empty unless the entry spends from one subaddress.
-/

/-- A label that a transfer may have: one that is not empty belongs to a single subaddress. -/
def LabelFits (t : Spending) (label : String) : Prop :=
  label ≠ "" → t.indices.toList.length = 1

theorem amounts_ofSpending (hash : TxHash) (t : Spending) (label : String) :
    (ofSpending hash t label).amount.toNat + (ofSpending hash t label).fee.toNat < 2 ^ 64 :=
  Nat.lt_of_le_of_lt (outgoingAmounts_le t.amountIn t.amountOut t.change) t.amountIn.toNat_lt

theorem shaped_ofOutgoing (hash : TxHash) (t : ConfirmedTransfer) {label : String}
    (addresses : List String) (h : LabelFits t.toSpending label) :
    (ofOutgoing hash t walletHeight label addresses).Shaped walletHeight where
  incoming := nofun
  outgoing _ := ⟨rfl, rfl⟩
  failed := nofun
  pending := nofun
  label := h
  confirmed h := confirmations_sum h
  amounts := amounts_ofSpending hash t.toSpending label
  hash := hash_shape hash
  paymentId := paymentId_shape t.paymentId

theorem shaped_ofPending (hash : TxHash) (t : PendingTransfer) {label : String}
    (h : LabelFits t.toSpending label) :
    (ofPending hash t label).Shaped walletHeight where
  incoming := nofun
  outgoing _ := ⟨rfl, rfl⟩
  failed _ := ⟨rfl, rfl⟩
  pending _ := ⟨rfl, rfl, fun _ => rfl⟩
  label := h
  confirmed h := absurd h (UInt64.lt_irrefl 0)
  amounts := amounts_ofSpending hash t.toSpending label
  hash := hash_shape hash
  paymentId := paymentId_shape t.paymentId

end Record

/-!
# The collection
-/

namespace Ledgers

theorem labelFits_spendingLabel (lookups : Lookups) (t : Spending) :
    Record.LabelFits t (spendingLabel lookups t) := by
  intro hlabel
  unfold spendingLabel Spending.subaddress? IndexSet.only? at hlabel
  split at hlabel
  · next hone => rw [hone, List.length_singleton]
  · exact absurd rfl hlabel

theorem shaped_of_mem_records {l : Ledgers} {lookups : Lookups} {r : Record}
    (h : r ∈ l.records lookups) : r.Shaped l.walletHeight := by
  unfold records at h
  simp only [List.mem_append, List.mem_map] at h
  rcases h with ((⟨⟨paymentId, p⟩, _, rfl⟩ | ⟨⟨hash, t⟩, _, rfl⟩) | ⟨⟨hash, t⟩, _, rfl⟩) |
    ⟨⟨paymentId, p⟩, _, rfl⟩
  · exact Record.shaped_ofIncoming paymentId p _
  · exact Record.shaped_ofOutgoing hash t _ (labelFits_spendingLabel lookups t.toSpending)
  · exact Record.shaped_ofPending hash t (labelFits_spendingLabel lookups t.toSpending)
  · exact Record.shaped_ofPool paymentId p _

/-- The records stand in four runs, one for each ledger and as long as it. -/
theorem records_in_runs (l : Ledgers) (lookups : Lookups) :
    ∃ incoming outgoing pending pool,
      l.records lookups = incoming ++ outgoing ++ pending ++ pool ∧
      (incoming.length = l.incoming.length ∧ ∀ r ∈ incoming, r.IsOf .incoming false) ∧
      (outgoing.length = l.outgoing.length ∧ ∀ r ∈ outgoing, r.IsOf .outgoing false) ∧
      (pending.length = l.pending.length ∧ ∀ r ∈ pending, r.IsOf .outgoing true) ∧
      (pool.length = l.pool.length ∧ ∀ r ∈ pool, r.IsOf .incoming true) := by
  refine ⟨_, _, _, _, rfl, ⟨List.length_map _, ?_⟩, ⟨List.length_map _, ?_⟩,
    ⟨List.length_map _, ?_⟩, ⟨List.length_map _, ?_⟩⟩
  · exact List.forall_mem_map.mpr fun _ _ => ⟨rfl, rfl⟩
  · exact List.forall_mem_map.mpr fun _ _ => ⟨rfl, rfl⟩
  · exact List.forall_mem_map.mpr fun _ _ => ⟨rfl, rfl⟩
  · exact List.forall_mem_map.mpr fun _ _ => ⟨rfl, rfl⟩

end Ledgers
end WalletLedger
