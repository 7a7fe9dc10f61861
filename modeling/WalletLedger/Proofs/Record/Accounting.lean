import WalletLedger.Proofs.Reconcile.Served
import WalletLedger.Proofs.Record.Shape

/-!
# Accounting for amounts

What becomes of the totals of a transfer, told over the integers: the amount, the fee and
the warnings.  A refresh makes its records one by one and reports the warnings of each
transfer where it makes the record of that transfer.
-/

namespace WalletLedger

/-!
# The totals of one transfer
-/

/-- Amount and fee of a transfer and the warnings about its totals.  Neither amount nor fee is
below zero, and no sum is cut to a word. -/
structure Accounted (hash : TxHash) (amountIn amountOut : UInt64) (change : Option UInt64)
    (a : Amounts) (notices : List Notice) : Prop where
  fee : (a.fee.toNat : ℤ) = max 0 (amountIn.toNat - amountOut.toNat)
  amount : (a.amount.toNat : ℤ) = max 0 (amountIn.toNat - (change.getD 0).toNat - a.fee.toNat)
  notices : notices =
    (if (amountOut.toNat : ℤ) > amountIn.toNat then
      [.feeClamped hash amountIn amountOut] else []) ++
    (if ((change.getD 0).toNat + a.fee.toNat : ℤ) > amountIn.toNat then
      [.amountClamped hash amountIn (change.getD 0) a.fee] else [])

theorem overspent_iff (amountIn change fee : UInt64) :
    overspent amountIn change fee = true ↔ amountIn.toNat < change.toNat + fee.toNat := by
  unfold overspent
  rw [Bool.or_eq_true, decide_eq_true_iff, decide_eq_true_iff, UInt64.lt_iff_toNat_lt,
    UInt64.lt_iff_toNat_lt]
  by_cases hchange : amountIn.toNat < change.toNat
  · exact iff_of_true (.inl hchange) (by omega)
  · -- Here the change can be taken from what went in, and the difference is that of numbers.
    have hle : change ≤ amountIn := UInt64.le_iff_toNat_le.mpr (Nat.le_of_not_lt hchange)
    rw [UInt64.toNat_sub_of_le amountIn change hle]
    omega

section

variable (amountIn amountOut : UInt64) (change : Option UInt64)

theorem toNat_fee : (outgoingAmounts amountIn amountOut change).fee.toNat =
    amountIn.toNat - amountOut.toNat :=
  toNat_cutSub amountIn amountOut

theorem toNat_amount : (outgoingAmounts amountIn amountOut change).amount.toNat =
    amountIn.toNat - (change.getD 0).toNat -
      (outgoingAmounts amountIn amountOut change).fee.toNat := by
  unfold outgoingAmounts
  rw [toNat_cutSub, toNat_cutSub]

theorem accounted (hash : TxHash) : Accounted hash amountIn amountOut change
    (outgoingAmounts amountIn amountOut change)
    (amountNotices hash amountIn amountOut change) where
  fee := by
    rw [toNat_fee]
    omega
  amount := by
    rw [toNat_amount]
    omega
  notices := by
    unfold amountNotices
    have hfee : amountIn < amountOut ↔ (amountOut.toNat : ℤ) > amountIn.toNat :=
      UInt64.lt_iff_toNat_lt.trans Nat.cast_lt.symm
    have hamount : overspent amountIn (change.getD 0) (cutSub amountIn amountOut) = true ↔
        ((change.getD 0).toNat + (cutSub amountIn amountOut).toNat : ℤ) > amountIn.toNat := by
      rw [overspent_iff]
      omega
    simp only [hfee, hamount]
    rfl

theorem amount_fee_change (hchange : change.getD 0 ≤ amountOut) (hout : amountOut ≤ amountIn) :
    (outgoingAmounts amountIn amountOut change).amount.toNat +
        (outgoingAmounts amountIn amountOut change).fee.toNat + (change.getD 0).toNat =
      amountIn.toNat := by
  rw [UInt64.le_iff_toNat_le] at hchange hout
  rw [toNat_amount, toNat_fee]
  omega

theorem amount_le_of_unknown : (outgoingAmounts amountIn amountOut change).amount ≤
    (outgoingAmounts amountIn amountOut none).amount := by
  rw [UInt64.le_iff_toNat_le, toNat_amount, toNat_amount, toNat_fee, toNat_fee,
    Option.getD_none, UInt64.toNat_zero]
  omega

end

/-!
# The collection
-/

namespace Ledgers

/-- Records with what was reported while each of them was made, one for each entry. -/
structure Itemized (l : Ledgers) (incoming outgoing pending pool : List (Record × List Notice)) :
    Prop where
  incoming : List.Forall₂ (fun (_, p) (r, notices) =>
    r.hash = p.txHash.toHex ∧ r.amount = p.amount ∧ r.fee = 0 ∧ notices = []) l.incoming incoming
  outgoing : List.Forall₂ (fun (hash, t) (r, notices) => r.hash = hash.toHex ∧
    Accounted hash t.amountIn t.amountOut t.change ⟨r.amount, r.fee⟩ notices) l.outgoing outgoing
  pending : List.Forall₂ (fun (hash, t) (r, notices) => r.hash = hash.toHex ∧
    Accounted hash t.amountIn t.amountOut t.change ⟨r.amount, r.fee⟩ notices) l.pending pending
  pool : List.Forall₂ (fun (_, p) (r, notices) => r.hash = p.payment.txHash.toHex ∧
    r.amount = p.payment.amount ∧ r.fee = 0 ∧ ∀ n ∈ notices,
      n = .doubleSpend p.payment.txHash ∨
        n = .unconfirmedPayment p.payment.txHash p.payment.amount) l.pool pool

/-- Each entry makes one record and reports its own notices at the same place. -/
theorem records_itemized (l : Ledgers) (lookups : Lookups) :
    ∃ incoming outgoing pending pool : List (Record × List Notice),
      l.records lookups = (incoming ++ outgoing ++ pending ++ pool).map Prod.fst ∧
      l.notices = (incoming ++ outgoing ++ pending ++ pool).flatMap Prod.snd ∧
      l.Itemized incoming outgoing pending pool := by
  refine ⟨l.incoming.map fun (paymentId, p) =>
      (.ofIncoming paymentId p l.walletHeight (lookups.label p.subaddress), []),
    l.outgoing.map fun (hash, t) =>
      (.ofOutgoing hash t l.walletHeight (spendingLabel lookups t.toSpending)
        (t.destinations.map fun d => lookups.address (d, t.paymentId)),
        t.toSpending.notices hash),
    l.pending.map fun (hash, t) =>
      (.ofPending hash t (spendingLabel lookups t.toSpending), t.toSpending.notices hash),
    l.pool.map fun (paymentId, p) =>
      (.ofPool paymentId p (lookups.label p.payment.subaddress), p.notices),
    ?_, ?_, ?_, ?_, ?_, ?_⟩
  · simp only [List.map_append, List.map_map]
    rfl
  · have hnone : (l.incoming.flatMap fun _ => ([] : List Notice)) = [] :=
      List.flatMap_eq_nil_iff.mpr fun _ _ => rfl
    simp only [List.flatMap_append, List.flatMap_map]
    rw [hnone]
    rfl
  · rw [List.forall₂_map_right_iff, List.forall₂_same]
    exact fun _ _ => ⟨rfl, rfl, rfl, rfl⟩
  · rw [List.forall₂_map_right_iff, List.forall₂_same]
    exact fun (hash, t) _ => ⟨rfl, accounted t.amountIn t.amountOut t.change hash⟩
  · rw [List.forall₂_map_right_iff, List.forall₂_same]
    exact fun (hash, t) _ => ⟨rfl, accounted t.amountIn t.amountOut t.change hash⟩
  · rw [List.forall₂_map_right_iff, List.forall₂_same]
    refine fun (_, p) _ => ⟨rfl, rfl, rfl, ?_⟩
    intro n hn
    unfold PoolPayment.notices at hn
    split at hn
    · simpa using hn
    · exact .inr (by simpa using hn)

end Ledgers

namespace Act

variable {σ α : Type}

theorem Succeeds.run {x : Act σ α} {s t : σ} {a : α} (h : x.Succeeds s a t) :
    x s = ⟨.ok a, (x s).notices, t⟩ := by
  rw [← h.1, ← h.2]

end Act

/-- After the engine's own notices a refresh reports those of the entries, and nothing else. -/
theorem Engine.reconcile_notices {σ : Type} {e : Engine σ} {w : HeightWindow} {s : σ}
    {l : Ledgers} {records : List Record} (h : (e.reconcile w s).answer = .ok (l, records)) :
    let fetched := e.fetchLedgers w s
    let resolved := e.resolveLookups l fetched.state
    fetched.answer = .ok l ∧
      (∃ lookups, resolved.answer = .ok lookups ∧ records = l.records lookups) ∧
      (e.reconcile w s).notices = fetched.notices ++ (resolved.notices ++ l.notices) := by
  rcases Act.bind_succeeds_iff.mp ⟨h, rfl⟩ with ⟨fetched, r, hfetch, hrest⟩
  rcases Act.bind_succeeds_iff.mp hrest with ⟨lookups, q, hresolve, hmade⟩
  rcases Act.bind_succeeds_iff.mp hmade with ⟨_, _, ⟨_, hq⟩, hpair, _⟩
  cases hpair
  have hstate : (e.fetchLedgers w s).state = r := hfetch.2
  have hnotices : (e.reconcile w s).notices = _ :=
    congrArg Outcome.notices (Act.bind_run _ hfetch.run)
  rw [Act.bind_run _ hresolve.run] at hnotices
  refine ⟨hfetch.1, ⟨lookups, hstate ▸ hresolve.1, rfl⟩, ?_⟩
  rw [hstate, hnotices]
  change _ ++ (_ ++ (l.notices ++ [])) = _
  rw [List.append_nil]

/-- Amounts and warnings are exact.  Over the integers amount and fee are differences that are
never below zero and never more than went in, and there is a warning just where one of them
would have been below zero; a change that is not known never makes the amount smaller.  The
records of a collection have the amounts of their entries, and each transfer reports its own
warnings at the place of its record; a refresh reports these after whatever the engine does. -/
theorem amounts_accounted :
    (∀ hash amountIn amountOut change,
      let a := outgoingAmounts amountIn amountOut change
      Accounted hash amountIn amountOut change a
        (amountNotices hash amountIn amountOut change) ∧
      a.amount.toNat + a.fee.toNat ≤ amountIn.toNat ∧
      (change.getD 0 ≤ amountOut → amountOut ≤ amountIn →
        a.amount.toNat + a.fee.toNat + (change.getD 0).toNat = amountIn.toNat ∧
        (a.amount.toNat : ℤ) = amountOut.toNat - (change.getD 0).toNat) ∧
      a.amount ≤ (outgoingAmounts amountIn amountOut none).amount) ∧
    (∀ (l : Ledgers) (lookups : Lookups),
      ∃ incoming outgoing pending pool : List (Record × List Notice),
        l.records lookups = (incoming ++ outgoing ++ pending ++ pool).map Prod.fst ∧
        l.notices = (incoming ++ outgoing ++ pending ++ pool).flatMap Prod.snd ∧
        l.Itemized incoming outgoing pending pool) ∧
    ∀ {σ : Type} (e : Engine σ) (w : HeightWindow) (s : σ) (l : Ledgers)
      (records : List Record), (e.reconcile w s).answer = .ok (l, records) →
        let fetched := e.fetchLedgers w s
        let resolved := e.resolveLookups l fetched.state
        fetched.answer = .ok l ∧
        (∃ lookups, resolved.answer = .ok lookups ∧ records = l.records lookups) ∧
        (e.reconcile w s).notices = fetched.notices ++ (resolved.notices ++ l.notices) := by
  refine ⟨?_, Ledgers.records_itemized, fun e w s l records => Engine.reconcile_notices⟩
  intro hash amountIn amountOut change a
  refine ⟨accounted amountIn amountOut change hash,
    outgoingAmounts_le amountIn amountOut change, ?_, amount_le_of_unknown amountIn amountOut change⟩
  intro hchange hout
  have hsum : a.amount.toNat + a.fee.toNat + (change.getD 0).toNat = amountIn.toNat :=
    amount_fee_change amountIn amountOut change hchange hout
  have hfee : a.fee.toNat = amountIn.toNat - amountOut.toNat := toNat_fee amountIn amountOut change
  have hle := UInt64.le_iff_toNat_le.mp hout
  refine ⟨hsum, ?_⟩
  omega

/-- A change so great that its sum with the fee is no word, a change that fits, and a refresh
of the miner's wallet, which reports a missing address and then the notices of its entries. -/
theorem amounts_accounted_greatChange :
    Accounted .zero 10 8 (some 0xffffffffffffffff) ⟨0, 2⟩
      [.amountClamped .zero 10 0xffffffffffffffff 2] ∧
    ((some 5 : Option UInt64).getD 0 ≤ 8 ∧ (8 : UInt64) ≤ 10 ∧
      outgoingAmounts 10 8 (some 5) = ⟨3, 2⟩ ∧ 3 + 2 + 5 = (10 : UInt64).toNat) ∧
    ∃ l records, ((Engine.minersWallet.engine : Engine Unit).reconcile .all ()).answer =
        .ok (l, records) ∧
      ((Engine.minersWallet.engine : Engine Unit).reconcile .all ()).notices =
        [.addressBlank .zero 400, .doubleSpend .zero, .unconfirmedPayment .zero 42] := by
  refine ⟨(amounts_accounted.1 .zero 10 8 (some 0xffffffffffffffff)).1,
    ⟨by decide, by decide, rfl, ?_⟩, Engine.minersWallet.ledgers .all, _, rfl, ?_⟩
  · exact ((amounts_accounted.1 .zero 10 8 (some 5)).2.2.1 (by decide) (by decide)).1
  · rw [(amounts_accounted.2.2 (Engine.minersWallet.engine : Engine Unit) .all () _ _ rfl).2.2]
    rfl

end WalletLedger
