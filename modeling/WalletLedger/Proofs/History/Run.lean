import WalletLedger.Api.Call
import WalletLedger.Proofs.Reconcile.Stages

/-!
# Runs of a history

A history is used by calls, one after another, each at its own time.  Its engine may answer
differently at every call.  After any run the history is what the last refresh that
succeeded has made, and empty before the first one.
-/

namespace WalletLedger

/-!
# One call
-/

namespace Api

variable {σ : Type}

def HistoryCall.IsQuery {α : Type} : HistoryCall α → Prop
  | .refresh => False
  | _ => True

theorem perform_query {α : Type} {call : HistoryCall α} (h : call.IsQuery)
    (service : Service σ) (s : Session σ) : (call.perform service s).session = s := by
  cases call with
  | refresh => exact absurd h id
  | count => rfl
  | all => rfl
  | byIndex index => rfl
  | byHash hash => rfl
  | lastRefresh => rfl

theorem perform_refresh_of_ok {service : Service σ} {s : Session σ} {l : Ledgers}
    {records : List Record}
    (h : (service.engine.reconcile service.window s.engineState).answer = .ok (l, records)) :
    (HistoryCall.refresh.perform service s).result = .ok (History.statsOf l service.timing) ∧
      (HistoryCall.refresh.perform service s).session.history =
        ⟨records, some (History.statsOf l service.timing)⟩ := by
  simp only [HistoryCall.perform, History.refresh, h]
  exact ⟨trivial, trivial⟩

theorem perform_refresh_of_error {service : Service σ} {s : Session σ} {err : CoreError}
    (h : (service.engine.reconcile service.window s.engineState).answer = .error err) :
    (HistoryCall.refresh.perform service s).result = .error err ∧
      (HistoryCall.refresh.perform service s).session.history = s.history := by
  simp only [HistoryCall.perform, History.refresh, h]
  exact ⟨trivial, trivial⟩

/-!
# Calls in time
-/

structure TimedCall where
  timing : Timing
  {α : Type}
  call : HistoryCall α

namespace TimedCall

def refresh (timing : Timing) : TimedCall := ⟨timing, .refresh⟩

def perform (service : Service σ) (c : TimedCall) (s : Session σ) : Session σ :=
  (c.call.perform { service with timing := c.timing } s).session

def performAll (service : Service σ) : List TimedCall → Session σ → Session σ
  | [], s => s
  | c :: rest, s => performAll service rest (c.perform service s)

end TimedCall
end Api

def Session.start {σ : Type} (engineState : σ) : Session σ :=
  ⟨.empty, engineState⟩

namespace Api

open TimedCall

variable {σ : Type} {service : Service σ}

/-- No refresh among the calls succeeds when they are made from a session on. -/
def NoneSucceeds (service : Service σ) (calls : List TimedCall) (s : Session σ) : Prop :=
  ∀ before timing after, calls = before ++ refresh timing :: after →
    ∃ err, service.engine.ReconcileFails service.window
      (performAll service before s).engineState err

/-- The last refresh among the calls that succeeds makes these ledgers and records. -/
def LastSuccess (service : Service σ) (calls : List TimedCall) (s : Session σ)
    (timing : Timing) (l : Ledgers) (records : List Record) : Prop :=
  ∃ before after, calls = before ++ refresh timing :: after ∧
    (service.engine.reconcile service.window
      (performAll service before s).engineState).answer = .ok (l, records) ∧
    NoneSucceeds service after ((refresh timing).perform service (performAll service before s))

theorem performAll_append (calls more : List TimedCall) (s : Session σ) :
    performAll service (calls ++ more) s = performAll service more (performAll service calls s) := by
  induction calls generalizing s with
  | nil => rfl
  | cons c rest ih => exact ih _

theorem noneSucceeds_nil (s : Session σ) : NoneSucceeds service [] s := by
  intro before timing after h
  cases before <;> cases h

theorem noneSucceeds_cons {c : TimedCall} {rest : List TimedCall} {s : Session σ}
    (hfirst : ∀ timing, c = refresh timing →
      ∃ err, service.engine.ReconcileFails service.window s.engineState err)
    (hrest : NoneSucceeds service rest (c.perform service s)) :
    NoneSucceeds service (c :: rest) s := by
  intro before timing after h
  cases before with
  | nil =>
      cases h
      exact hfirst timing rfl
  | cons b before =>
      cases h
      exact hrest before timing after rfl

theorem lastSuccess_cons {c : TimedCall} {rest : List TimedCall} {s : Session σ}
    {timing : Timing} {l : Ledgers} {records : List Record}
    (h : LastSuccess service rest (c.perform service s) timing l records) :
    LastSuccess service (c :: rest) s timing l records := by
  rcases h with ⟨before, after, hrest, hmade, hafter⟩
  refine ⟨c :: before, after, ?_, hmade, hafter⟩
  rw [hrest]
  rfl

theorem lastSuccess_first {rest : List TimedCall} {s : Session σ} {timing : Timing}
    {l : Ledgers} {records : List Record}
    (hmade : (service.engine.reconcile service.window s.engineState).answer =
      .ok (l, records))
    (hrest : NoneSucceeds service rest ((refresh timing).perform service s)) :
    LastSuccess service (refresh timing :: rest) s timing l records :=
  ⟨[], rest, rfl, hmade, hrest⟩

/-!
# What a run leaves
-/

/-- A run either leaves the history alone or leaves what its last success has made. -/
theorem performAll_history (calls : List TimedCall) (s : Session σ) :
    (NoneSucceeds service calls s ∧ (performAll service calls s).history = s.history) ∨
      ∃ timing l records, LastSuccess service calls s timing l records ∧
        (performAll service calls s).history =
          ⟨records, some (History.statsOf l timing)⟩ := by
  induction calls generalizing s with
  | nil => exact .inl ⟨noneSucceeds_nil s, rfl⟩
  | cons c rest ih =>
      rcases ih (c.perform service s) with ⟨hnone, hkept⟩ | ⟨timing, l, records, hlast, hmade⟩
      · -- The rest changes nothing, so the first call decides.
        by_cases hquery : c.call.IsQuery
        · have hs : c.perform service s = s := perform_query hquery _ s
          refine .inl ⟨noneSucceeds_cons ?_ hnone, ?_⟩
          · intro timing hc
            rw [hc] at hquery
            exact absurd hquery id
          · rw [performAll, hkept, hs]
        · rcases c with ⟨timing, call⟩
          cases call with
          | refresh =>
              cases hanswer : (service.engine.reconcile service.window
                  s.engineState).answer with
              | ok made =>
                  rcases made with ⟨l, records⟩
                  refine .inr ⟨timing, l, records, lastSuccess_first hanswer hnone, ?_⟩
                  rw [performAll, hkept]
                  exact (@perform_refresh_of_ok σ { service with timing } s l records
                    hanswer).2
              | error err =>
                  refine .inl ⟨noneSucceeds_cons ?_ hnone, ?_⟩
                  · intro _ _
                    exact ⟨err, Engine.reconcile_error_iff.mp hanswer⟩
                  · rw [performAll, hkept]
                    exact (@perform_refresh_of_error σ { service with timing } s err
                      hanswer).2
          | count => exact absurd trivial hquery
          | all => exact absurd trivial hquery
          | byIndex index => exact absurd trivial hquery
          | byHash hash => exact absurd trivial hquery
          | lastRefresh => exact absurd trivial hquery
      · exact .inr ⟨timing, l, records, lastSuccess_cons hlast, hmade⟩

theorem history_of_noneSucceeds {calls : List TimedCall} {s : Session σ}
    (h : NoneSucceeds service calls s) : (performAll service calls s).history = s.history := by
  rcases @performAll_history σ service calls s with
    ⟨_, hkept⟩ | ⟨timing, l, records, ⟨before, after, hsplit, hmade, _⟩, _⟩
  · exact hkept
  · rcases h before timing after hsplit with ⟨err, hfails⟩
    rw [Engine.reconcile_error_iff.mpr hfails] at hmade
    cases hmade

end Api

/-!
# Counting

As long as all entries together can be counted by a word, the total of the statistics is
the number of records.
-/

def Ledgers.size (l : Ledgers) : Nat :=
  l.incoming.length + l.outgoing.length + l.pending.length + l.pool.length

theorem Ledgers.records_length (l : Ledgers) (lookups : Lookups) :
    (l.records lookups).length = l.size := by
  unfold records size
  simp only [List.length_append, List.length_map]

namespace Engine

theorem records_length_of_reconcile {σ : Type} {e : Engine σ} {w : HeightWindow} {s : σ}
    {l : Ledgers} {records : List Record}
    (h : (e.reconcile w s).answer = .ok (l, records)) : records.length = l.size := by
  rcases reconcile_succeeds_iff.mp ⟨h, rfl⟩ with ⟨_, _, _, _, _, _, _, _, hrecords⟩
  rw [hrecords]
  exact l.records_length _

end Engine

namespace History

/-- Each count of the statistics is exact if all entries together can be counted. -/
theorem statsOf_counts {l : Ledgers} (h : l.size < 2 ^ 64) (timing : Timing) :
    (statsOf l timing).incoming.toNat = l.incoming.length ∧
      (statsOf l timing).outgoing.toNat = l.outgoing.length ∧
      (statsOf l timing).pendingOutgoing.toNat = l.pending.length ∧
      (statsOf l timing).pool.toNat = l.pool.length := by
  unfold Ledgers.size at h
  have hword : UInt64.size = 2 ^ 64 := rfl
  refine ⟨?_, ?_, ?_, ?_⟩
  · exact UInt64.toNat_ofNat_of_lt' (by omega)
  · exact UInt64.toNat_ofNat_of_lt' (by omega)
  · exact UInt64.toNat_ofNat_of_lt' (by omega)
  · exact UInt64.toNat_ofNat_of_lt' (by omega)

theorem statsOf_total {l : Ledgers} (h : l.size < 2 ^ 64) (timing : Timing) :
    (statsOf l timing).total.toNat = l.size := by
  rcases statsOf_counts h timing with ⟨hincoming, houtgoing, hpending, hpool⟩
  unfold RefreshStats.total
  rw [UInt64.toNat_add, UInt64.toNat_add, UInt64.toNat_add, hincoming, houtgoing, hpending,
    hpool]
  unfold Ledgers.size at h ⊢
  omega

theorem statsOf_total_eq (l : Ledgers) (timing : Timing) :
    (statsOf l timing).total = UInt64.ofNat l.size := by
  unfold RefreshStats.total statsOf Ledgers.size
  simp only [UInt64.ofNat_add]

end History

/-!
# The history after any run
-/

namespace Api

open TimedCall

variable {σ : Type}

theorem history_after_calls (service : Service σ) (calls : List TimedCall) (engineState : σ) :
    let start := Session.start engineState
    let final := performAll service calls start
    let history := final.history
    ((NoneSucceeds service calls start ∧ history = .empty) ∨
      ∃ timing l records, LastSuccess service calls start timing l records ∧
        history = ⟨records, some (History.statsOf l timing)⟩ ∧ history.count = l.size) ∧
    (∀ timing err, service.engine.ReconcileFails service.window final.engineState err →
      (HistoryCall.refresh.perform { service with timing } final).result = .error err ∧
        ((refresh timing).perform service final).history = history) ∧
    (∀ {α : Type} (call : HistoryCall α), call.IsQuery →
      (call.perform service final).session = final) ∧
    history.count = history.all.length ∧
    (history.lastRefresh = none → history.count = 0) ∧
    ∀ stats, history.lastRefresh = some stats → history.count < 2 ^ 64 →
      history.count = stats.total.toNat ∧
        stats.total.toNat = stats.incoming.toNat + stats.outgoing.toNat +
          stats.pendingOutgoing.toNat + stats.pool.toNat := by
  intro start final history
  have hrun : (NoneSucceeds service calls start ∧ history = .empty) ∨
      ∃ timing l records, LastSuccess service calls start timing l records ∧
        history = ⟨records, some (History.statsOf l timing)⟩ ∧ history.count = l.size := by
    rcases @performAll_history σ service calls start with hnone | hmade
    · exact .inl hnone
    · rcases hmade with ⟨timing, l, records, hlast, hhistory⟩
      refine .inr ⟨timing, l, records, hlast, hhistory, ?_⟩
      rcases hlast with ⟨_, _, _, hreconcile, _⟩
      have hcount : history.count = records.length := congrArg History.count hhistory
      rw [hcount]
      exact Engine.records_length_of_reconcile hreconcile
  refine ⟨hrun, ?_, ?_, rfl, ?_, ?_⟩
  · intro timing err hfails
    exact @perform_refresh_of_error σ { service with timing } final err
      (Engine.reconcile_error_iff.mpr hfails)
  · intro α call hquery
    exact perform_query hquery service final
  · intro hlast
    rcases hrun with ⟨_, hempty⟩ | ⟨timing, l, records, _, hhistory, _⟩
    · rw [hempty]
      rfl
    · rw [hhistory] at hlast
      cases hlast
  · intro stats hlast hsize
    rcases hrun with ⟨_, hempty⟩ | ⟨timing, l, records, _, hhistory, hcount⟩
    · rw [hempty] at hlast
      cases hlast
    · rw [hhistory] at hlast
      cases hlast
      rw [hcount] at hsize ⊢
      rcases History.statsOf_counts hsize timing with ⟨hincoming, houtgoing, hpending, hpool⟩
      rw [History.statsOf_total hsize, hincoming, houtgoing, hpending, hpool]
      exact ⟨rfl, rfl⟩

end Api
end WalletLedger
