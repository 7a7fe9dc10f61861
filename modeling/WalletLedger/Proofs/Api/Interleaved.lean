import WalletLedger.Proofs.Api.Lookups
import WalletLedger.Proofs.Api.Token
import WalletLedger.Proofs.Reconcile.Served

/-!
# Requests at the same time

While one request is answered, others are too.  No call on the history is cut in two, but
between two calls of one handler the history may be refreshed.  A handler that looks at it
once tells of one moment.  The status is made of two looks, with the last refresh from the
first and the number of records from the second, and so it may tell of two moments.
-/

namespace WalletLedger
namespace Api

open Http (Request Response)
open TimedCall

variable {σ ρ : Type} {service : Service σ}

/-!
# Calls of others
-/

/-- A program runs to its end, while others make these calls on the same history. -/
inductive RunsAmong (service : Service σ) :
    List TimedCall → Program ρ → Session σ → ρ → Session σ → Prop where
  | done (result : ρ) (s : Session σ) : RunsAmong service [] (.done result) s result s
  | own {others : List TimedCall} {α : Type} {call : HistoryCall α} {next : α → Program ρ}
      {s t : Session σ} {result : ρ} {made : Performed σ α} (timing : Timing) :
      call.perform { service with timing } s = made →
        RunsAmong service others (next made.result) made.session result t →
          RunsAmong service others (.ask call next) s result t
  | other {others : List TimedCall} {p : Program ρ} {s t : Session σ} {result : ρ}
      (c : TimedCall) :
      RunsAmong service others p (c.perform service s) result t →
        RunsAmong service (c :: others) p s result t

namespace RunsAmong

variable {others : List TimedCall} {s t : Session σ} {result : ρ}

theorem alone (p : Program ρ) (s : Session σ) :
    RunsAmong service [] p s (p.run service s).result (p.run service s).session := by
  induction p generalizing s with
  | done result => exact .done result s
  | ask call next ih => exact .own service.timing rfl (ih _ _)

theorem result_of_done {x : ρ} (h : RunsAmong service others (.done x) s result t) :
    result = x := by
  generalize hp : Program.done x = p at h
  induction h with
  | done result s =>
      cases hp
      rfl
  | own timing _ _ _ => cases hp
  | other c _ ih => exact ih hp

theorem of_query {α : Type} {call : HistoryCall α} {next : α → Program ρ}
    (h : RunsAmong service others (.ask call next) s result t) (hquery : call.IsQuery) :
    ∃ first rest, others = first ++ rest ∧
      let r := performAll service first s
      RunsAmong service rest (next (call.perform service r).result) r result t := by
  generalize hp : Program.ask call next = p at h
  induction h with
  | done result s => cases hp
  | @own others _ _ _ s _ _ _ timing hmade hrest _ =>
      cases hp
      have hsession := perform_query hquery { service with timing } s
      have hresult := HistoryCall.query_result hquery { service with timing } service
        (rfl : s.history = s.history)
      rw [hmade] at hsession hresult
      rw [hsession, hresult] at hrest
      exact ⟨[], others, rfl, hrest⟩
  | other c _ ih =>
      rcases ih hp with ⟨first, rest, rfl, hrest⟩
      exact ⟨c :: first, rest, rfl, hrest⟩

end RunsAmong

/-!
# Counts and statistics
-/

def totalOf : Option RefreshStats → UInt64
  | none => 0
  | some stats => stats.total

/-- At every moment there are as many records as the statistics of that moment say. -/
theorem count_of_calls (service : Service σ) (calls : List TimedCall) (engineState : σ) :
    let history := (performAll service calls (Session.start engineState)).history
    UInt64.ofNat history.count = totalOf history.lastRefresh := by
  rcases @performAll_history σ service calls (Session.start engineState) with
    ⟨_, hkept⟩ | ⟨timing, l, records, ⟨_, _, _, hreconcile, _⟩, hmade⟩
  · rw [hkept]
    rfl
  · rw [hmade]
    change UInt64.ofNat records.length = (History.statsOf l timing).total
    rw [History.statsOf_total_eq, Engine.records_length_of_reconcile hreconcile]

namespace Server

/-!
# Answers
-/

def statusOf (stats? : Option RefreshStats) (count : UInt64) : Json :=
  .object [("count", .unsigned count),
    ("last_refresh", (Json.Codec.optional RefreshStats.codec).toJson stats?),
    ("refreshed_at", (Json.Codec.optional .string).toJson
      (stats?.bind fun stats => Time.instantText? stats.completedAt))]

theorem statusOf_inj {a b : Option RefreshStats} {m n : UInt64}
    (h : statusOf a m = statusOf b n) :
    m = n ∧ (Json.Codec.optional RefreshStats.codec).toJson a =
      (Json.Codec.optional RefreshStats.codec).toJson b := by
  unfold statusOf at h
  injection h with hmembers
  injection hmembers with hcount hrest
  injection hrest with hlast _
  exact ⟨Json.unsigned.inj (Prod.mk.inj hcount).2, (Prod.mk.inj hlast).2⟩

/-- The count of the status is what the last refresh that it tells of has found. -/
def OfOneMoment (reply : Response) : Prop :=
  ∃ stats?, Gives reply (statusOf stats? (totalOf stats?))

variable {server : Server} {r : Request}

theorem gives_finish (hmethod : r.method = .get) (v : Json) :
    Gives (server.finish r (.json .ok v)) v := by
  constructor
  · rw [finish_status]
    rfl
  · rw [finish_body, if_neg (by rw [hmethod]; nofun)]
    rfl

section Runs

variable {others : List TimedCall} {s t : Session σ} {reply : Response}

theorem history_among (h : server.Reads r "/api/v1/history")
    (hrun : RunsAmong service others (server.respond r) s reply t) :
    ∃ first rest, others = first ++ rest ∧
      let transactions := listed (performAll service first s).history.records
      Gives reply (.object [("count", .unsigned (UInt64.ofNat transactions.length)),
        ("transactions", .array transactions)]) := by
  rw [respond_of_handle h .history nofun (guarded_of_authorizes h.token listHistory)] at hrun
  have hask : RunsAmong service others (.ask .all _) s reply t := hrun
  rcases hask.of_query trivial with ⟨first, rest, hothers, hdone⟩
  refine ⟨first, rest, hothers, ?_⟩
  rw [hdone.result_of_done]
  simp only [listed, List.length_map]
  exact gives_finish h.method _

/-- The last refresh is that of one moment and the count that of a later one. -/
theorem status_among (h : server.Reads r "/api/v1/history/status")
    (hrun : RunsAmong service others (server.respond r) s reply t) :
    ∃ first between rest, others = first ++ between ++ rest ∧
      let looked := performAll service first s
      let counted := performAll service between looked
      Gives reply (statusOf looked.history.lastRefresh (UInt64.ofNat counted.history.count)) := by
  rw [respond_of_handle h .status nofun (guarded_of_authorizes h.token getStatus)] at hrun
  have hlook : RunsAmong service others (.ask .lastRefresh _) s reply t := hrun
  rcases hlook.of_query trivial with ⟨first, later, rfl, hlater⟩
  have hcount : RunsAmong service later (.ask .count _) (performAll service first s) reply t :=
    hlater
  rcases hcount.of_query trivial with ⟨between, rest, rfl, hdone⟩
  refine ⟨first, between, rest, (List.append_assoc _ _ _).symm, ?_⟩
  rw [hdone.result_of_done]
  exact gives_finish h.method _

end Runs

/-- Whatever others do while a request is answered, the list is counted as it is given.  The
status tells of two moments: of the last refresh at one and of the number of records at a
later one, which is what the refresh that was the last by then has found.  If no refresh has
succeeded in between, the two moments are as good as one. -/
theorem answers_among_others (server : Server) (service : Service σ) (calls : List TimedCall)
    (engineState : σ) (r : Request) (others : List TimedCall) (reply : Response) (t : Session σ)
    (hrun : RunsAmong service others (server.respond r)
      (performAll service calls (Session.start engineState)) reply t) :
    let s := performAll service calls (Session.start engineState)
    (server.Reads r "/api/v1/history" → ∃ first rest, others = first ++ rest ∧
      let transactions := listed (performAll service first s).history.records
      Gives reply (.object [("count", .unsigned (UInt64.ofNat transactions.length)),
        ("transactions", .array transactions)])) ∧
    (server.Reads r "/api/v1/history/status" → ∃ first between rest,
      others = first ++ between ++ rest ∧
      let looked := performAll service first s
      let counted := performAll service between looked
      Gives reply (statusOf looked.history.lastRefresh (totalOf counted.history.lastRefresh)) ∧
        (NoneSucceeds service between looked → OfOneMoment reply)) := by
  intro s
  refine ⟨fun h => history_among h hrun, fun h => ?_⟩
  rcases status_among h hrun with ⟨first, between, rest, hothers, hgives⟩
  have hcount := count_of_calls service (calls ++ (first ++ between)) engineState
  rw [performAll_append, performAll_append] at hcount
  simp only [hcount] at hgives
  refine ⟨first, between, rest, hothers, hgives, ?_⟩
  intro hnone
  rw [history_of_noneSucceeds hnone] at hgives
  exact ⟨_, hgives⟩

def minersService : Service Unit :=
  ⟨Engine.minersWallet.engine, .all, ⟨3, 1700000600⟩⟩

def statusRequest : Request where
  method := .get
  target := "/api/v1/history/status"
  headers := [("x-api-token", "open sesame")]

theorem reads_statusRequest : keeper.Reads statusRequest "/api/v1/history/status" :=
  ⟨by decide, rfl, by decide⟩

def refreshed : Session Unit :=
  (TimedCall.refresh minersService.timing).perform minersService (Session.start ())

theorem count_refreshed : refreshed.history.count = 3 := by
  have hserves : minersService.engine.Serves _ .all _ _ _ :=
    Engine.minersWallet.engine_serves .all
  have hmade : refreshed.history = _ :=
    (History.refresh_of_serves hserves minersService.timing trivial).2
  rw [History.count, hmade, Ledgers.records_length]
  rfl

theorem runsAmong_refreshed : ∃ reply,
    RunsAmong minersService [.refresh minersService.timing] (keeper.respond statusRequest)
        (Session.start ()) reply refreshed ∧
      Gives reply (statusOf none 3) := by
  have hrespond := respond_of_handle reads_statusRequest .status nofun
    (guarded_of_authorizes reads_statusRequest.token getStatus)
  refine ⟨keeper.finish statusRequest (.json .ok
    (statusOf none (UInt64.ofNat refreshed.history.count))), ?_, ?_⟩
  · rw [hrespond]
    exact .own minersService.timing rfl (.other (.refresh minersService.timing)
      (.own minersService.timing rfl (.done _ _)))
  · rw [count_refreshed]
    exact gives_finish rfl _

theorem answers_among_others_refreshed : ∃ reply,
    RunsAmong minersService [.refresh minersService.timing] (keeper.respond statusRequest)
        (Session.start ()) reply refreshed ∧
      ∃ first between rest, [.refresh minersService.timing] = first ++ between ++ rest ∧
        let looked := performAll minersService first (Session.start ())
        let counted := performAll minersService between looked
        Gives reply (statusOf looked.history.lastRefresh (totalOf counted.history.lastRefresh)) := by
  rcases runsAmong_refreshed with ⟨reply, hrun, _⟩
  rcases (answers_among_others keeper minersService [] () statusRequest _ reply refreshed hrun).2
    reads_statusRequest with ⟨first, between, rest, hothers, hgives, _⟩
  exact ⟨reply, hrun, first, between, rest, hothers, hgives⟩

/-- Not every status is of one moment: here it has no refresh to tell of and three records. -/
theorem status_of_two_moments : ∃ reply,
    RunsAmong minersService [.refresh minersService.timing] (keeper.respond statusRequest)
        (Session.start ()) reply refreshed ∧
      keeper.Reads statusRequest "/api/v1/history/status" ∧
      Gives reply (statusOf none 3) ∧ ¬ OfOneMoment reply := by
  rcases runsAmong_refreshed with ⟨reply, hrun, hgives⟩
  refine ⟨reply, hrun, reads_statusRequest, hgives, ?_⟩
  intro hone
  rcases hone with ⟨stats?, hone⟩
  have hbody := hone.2.symm.trans hgives.2
  rcases statusOf_inj (Http.Body.json.inj hbody) with ⟨hcount, hlast⟩
  cases stats? with
  | none => cases hcount
  | some stats => cases hlast

end Server
end Api
end WalletLedger
