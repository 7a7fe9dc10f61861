import WalletLedger.Proofs.History.Run
import WalletLedger.Proofs.Record.Shape

/-!
# The published collection

What the records of a history look like and what its statistics say about them, whatever
calls were made on it and whatever its engine has answered.
-/

namespace WalletLedger

structure RefreshStats.Describes (stats : RefreshStats) (records : List Record) : Prop where
  shaped : ∀ r ∈ records, r.Shaped stats.walletHeight
  inRuns : ∃ incoming outgoing pending pool,
    records = incoming ++ outgoing ++ pending ++ pool ∧
    (∀ r ∈ incoming, r.IsOf .incoming false) ∧ (∀ r ∈ outgoing, r.IsOf .outgoing false) ∧
    (∀ r ∈ pending, r.IsOf .outgoing true) ∧ (∀ r ∈ pool, r.IsOf .incoming true) ∧
    (records.length < 2 ^ 64 →
      incoming.length = stats.incoming.toNat ∧ outgoing.length = stats.outgoing.toNat ∧
        pending.length = stats.pendingOutgoing.toNat ∧ pool.length = stats.pool.toNat)

theorem History.describes_records (l : Ledgers) (lookups : Lookups) (timing : Timing) :
    (statsOf l timing).Describes (l.records lookups) where
  shaped _ hr := Ledgers.shaped_of_mem_records hr
  inRuns := by
    rcases l.records_in_runs lookups with ⟨incoming, outgoing, pending, pool, hrecords,
      ⟨hinLength, hin⟩, ⟨houtLength, hout⟩, ⟨hpendingLength, hpending⟩, ⟨hpoolLength, hpool⟩⟩
    refine ⟨incoming, outgoing, pending, pool, hrecords, hin, hout, hpending, hpool, ?_⟩
    intro hcountable
    rw [l.records_length] at hcountable
    rcases statsOf_counts hcountable timing with ⟨h₁, h₂, h₃, h₄⟩
    rw [h₁, h₂, h₃, h₄]
    exact ⟨hinLength, houtLength, hpendingLength, hpoolLength⟩

namespace Engine

variable {σ : Type} {e : Engine σ} {w : HeightWindow} {s : σ} {l : Ledgers}
  {records : List Record}

theorem describes_of_reconcile (h : (e.reconcile w s).answer = .ok (l, records))
    (timing : Timing) : (History.statsOf l timing).Describes records := by
  rcases reconcile_succeeds_iff.mp ⟨h, rfl⟩ with ⟨labels, addresses, _, _, _, _, _, _, hrecords⟩
  rw [hrecords]
  exact History.describes_records l (lookupsOf l labels addresses) timing

end Engine

namespace Api

open TimedCall

variable {σ : Type}

/-- Every history that calls lead to is empty or described by its own statistics. -/
theorem published_after_calls (service : Service σ) (calls : List TimedCall) (engineState : σ) :
    let start := Session.start engineState
    let history := (performAll service calls start).history
    (NoneSucceeds service calls start ∧ history.lastRefresh = none ∧ history.records = []) ∨
      ∃ stats, history.lastRefresh = some stats ∧ stats.Describes history.records := by
  intro start history
  rcases performAll_history calls start with ⟨hnone, hkept⟩ | ⟨timing, l, records, hlast, hmade⟩
  · left
    have hempty : history = .empty := hkept
    rw [hempty]
    exact ⟨hnone, rfl, rfl⟩
  · right
    rcases hlast with ⟨_, _, _, hreconcile, _⟩
    have hhistory : history = _ := hmade
    rw [hhistory]
    exact ⟨_, rfl, Engine.describes_of_reconcile hreconcile timing⟩

end Api
end WalletLedger
