import WalletLedger.Proofs.Api.Server
import WalletLedger.Proofs.Engine.Faults

/-!
# What requests change

The service answers one request after another, and its engine may change or fail between
them.  Only a refresh that was ordered with the token and that succeeds changes what is
served; everything else, a failed refresh too, leaves the history as it was.
-/

namespace WalletLedger

theorem RefreshStats.toJson_eq (stats : RefreshStats) :
    RefreshStats.codec.toJson stats = .object
      [("wallet_height", .unsigned stats.walletHeight), ("incoming", .unsigned stats.incoming),
        ("outgoing", .unsigned stats.outgoing),
        ("pending_outgoing", .unsigned stats.pendingOutgoing), ("pool", .unsigned stats.pool),
        ("duration_ms", .unsigned stats.durationMs),
        ("completed_at", .unsigned stats.completedAt)] :=
  rfl

namespace Api

open Http (Request Response)

/-- A request, with what has become of the engine before it and with what the clock says. -/
structure Visit (σ : Type) where
  meanwhile : σ → σ
  timing : Timing
  request : Request

namespace Server

variable {σ : Type}

def visit (server : Server) (service : Service σ) (v : Visit σ) (s : Session σ) :
    Performed σ Response :=
  (server.respond v.request).run { service with timing := v.timing }
    ⟨s.history, v.meanwhile s.engineState⟩

def visitAll (server : Server) (service : Service σ) : List (Visit σ) → Session σ → Session σ
  | [], s => s
  | v :: rest, s => visitAll server service rest (server.visit service v s).session

/-- A refresh is asked for with the token. -/
def OrdersRefresh (server : Server) (r : Request) : Prop :=
  server.authorizes r = true ∧ r.method = .post ∧ r.path = "/api/v1/history/refresh"

def Refreshes (server : Server) (service : Service σ) (v : Visit σ) (s : Session σ) : Prop :=
  server.OrdersRefresh v.request ∧ (server.visit service v s).result.status = ⟨200⟩

def NoneRefreshes (server : Server) (service : Service σ) (visits : List (Visit σ))
    (s : Session σ) : Prop :=
  ∀ before v after, visits = before ++ v :: after →
    ¬ server.Refreshes service v (server.visitAll service before s)

/-- The last visit of a run that refreshes finds the session `t`. -/
def LastRefreshes (server : Server) (service : Service σ) (visits : List (Visit σ))
    (s : Session σ) (v : Visit σ) (t : Session σ) : Prop :=
  ∃ before after, visits = before ++ v :: after ∧ t = server.visitAll service before s ∧
    server.Refreshes service v t ∧
    server.NoneRefreshes service after (server.visit service v t).session

variable {server : Server} {service : Service σ} {r : Request}

/-!
# Requests that order no refresh
-/

theorem guarded_onlyLooks {handler : Program Response} (h : handler.OnlyLooks) :
    (server.guarded r handler).OnlyLooks := by
  unfold guarded
  split
  · exact h
  · trivial

theorem withParameter_onlyLooks {name parameter : String} {next : String → Program Response}
    (h : ∀ text, (next text).OnlyLooks) : (withParameter name parameter next).OnlyLooks := by
  unfold withParameter
  split
  · exact h _
  · trivial

theorem answerRecord_onlyLooks (found : Option Record) (otherwise : Refusal) :
    (answerRecord found otherwise).OnlyLooks := by
  cases found with
  | some record => trivial
  | none => trivial

theorem getByIndex_onlyLooks (text : String) : (getByIndex text).OnlyLooks := by
  unfold getByIndex
  split
  · trivial
  · exact ⟨trivial, fun found => answerRecord_onlyLooks found _⟩

theorem handle_onlyLooks {resource : Resource} (h : resource ≠ .refresh) :
    (server.handle r resource).OnlyLooks := by
  cases resource with
  | refresh => exact absurd rfl h
  | health => trivial
  | unknown => trivial
  | history => exact guarded_onlyLooks ⟨trivial, fun _ => trivial⟩
  | count => exact guarded_onlyLooks ⟨trivial, fun _ => trivial⟩
  | status => exact guarded_onlyLooks ⟨trivial, fun _ => ⟨trivial, fun _ => trivial⟩⟩
  | byIndex parameter =>
      exact withParameter_onlyLooks fun text => guarded_onlyLooks (getByIndex_onlyLooks text)
  | byHash parameter =>
      exact withParameter_onlyLooks fun hash =>
        guarded_onlyLooks ⟨trivial, fun found => answerRecord_onlyLooks found _⟩

/-- The only way to the handler of refreshes is the one path, with the one method. -/
theorem handle_refresh_onlyLooks (hpath : Resource.ofPath? r.path = some .refresh)
    (hmethod : Resource.refresh.accepts r.method = true) (h : ¬ server.OrdersRefresh r) :
    (server.handle r .refresh).OnlyLooks := by
  have hpost : r.method = .post := by
    simpa [Resource.accepts, Resource.methods?] using hmethod
  have hspelling : r.path = "/api/v1/history/refresh" :=
    (Resource.names_of_ofPath? hpath nofun).eq_of_refresh
  have htoken : server.authorizes r = false := by
    rw [Bool.eq_false_iff]
    exact fun htoken => h ⟨htoken, hpost, hspelling⟩
  change (server.guarded r refresh).OnlyLooks
  rw [guarded_of_not_authorizes htoken]
  trivial

theorem route_onlyLooks (h : ¬ server.OrdersRefresh r) : (server.route r).OnlyLooks := by
  unfold route
  simp only
  split
  · trivial
  · split
    · trivial
    · next found hfound =>
        split
        · next haccepts =>
            by_cases hrefresh : found = .refresh
            · rw [hrefresh] at hfound haccepts ⊢
              exact handle_refresh_onlyLooks hfound haccepts h
            · exact handle_onlyLooks hrefresh
        · trivial

theorem respond_onlyLooks (h : ¬ server.OrdersRefresh r) : (server.respond r).OnlyLooks :=
  (route_onlyLooks h).map _

theorem not_ordersRefresh_of_get (h : r.method = .get) : ¬ server.OrdersRefresh r := by
  intro horders
  rw [horders.2.1] at h
  cases h

/-!
# Requests that order a refresh
-/

theorem respond_of_ordersRefresh (h : server.OrdersRefresh r) :
    server.respond r = refresh.map (server.finish r) := by
  rcases h with ⟨htoken, hmethod, hpath⟩
  have hoptions : r.method ≠ .options := by
    rw [hmethod]
    nofun
  have haccepts : Resource.refresh.accepts r.method = true := by
    rw [hmethod]
    rfl
  have hhandle : server.handle r .refresh = refresh :=
    guarded_of_authorizes htoken refresh
  unfold respond
  rw [server.route_of_names (hpath ▸ .refresh) hoptions haccepts, hhandle]

variable {v : Visit σ} {s : Session σ}

theorem visit_of_ok (h : server.OrdersRefresh v.request) {l : Ledgers} {records : List Record}
    (hmade : (service.engine.reconcile service.window (v.meanwhile s.engineState)).answer =
      .ok (l, records)) :
    let stats := History.statsOf l v.timing
    (server.visit service v s).result.status = ⟨200⟩ ∧
      (server.visit service v s).result.body = .json (RefreshStats.codec.toJson stats) ∧
      (server.visit service v s).session.history = ⟨records, some stats⟩ := by
  intro stats
  have hperformed := @perform_refresh_of_ok σ { service with timing := v.timing }
    ⟨s.history, v.meanwhile s.engineState⟩ l records hmade
  unfold visit
  rw [respond_of_ordersRefresh h, Program.map_result, Program.map_session, finish_status,
    finish_body, if_neg (by rw [h.2.1]; nofun)]
  simp only [refresh, Program.run, hperformed.1]
  exact ⟨rfl, rfl, hperformed.2⟩

theorem visit_of_error (h : server.OrdersRefresh v.request) {err : CoreError}
    (hmade : (service.engine.reconcile service.window (v.meanwhile s.engineState)).answer =
      .error err) :
    (server.visit service v s).result.status = (Refusal.ofError err).status ∧
      (server.visit service v s).session.history = s.history := by
  have hperformed := @perform_refresh_of_error σ { service with timing := v.timing }
    ⟨s.history, v.meanwhile s.engineState⟩ err hmade
  unfold visit
  rw [respond_of_ordersRefresh h, Program.map_result, Program.map_session, finish_status]
  simp only [refresh, Program.run, hperformed.1]
  exact ⟨by cases err <;> rfl, hperformed.2⟩

/-!
# One visit
-/

/-- A visit either refreshes, and then says what the history says of its last refresh, or it
leaves the history as it was. -/
theorem visit_history (service : Service σ) (v : Visit σ) (s : Session σ) :
    (server.Refreshes service v s ∧ ∃ stats,
        (server.visit service v s).session.history.lastRefresh = some stats ∧
        (server.visit service v s).result.body = .json (RefreshStats.codec.toJson stats)) ∨
      (¬ server.Refreshes service v s ∧
        (server.visit service v s).session.history = s.history) := by
  by_cases horders : server.OrdersRefresh v.request
  · cases hmade : (service.engine.reconcile service.window (v.meanwhile s.engineState)).answer with
    | ok made =>
        rcases made with ⟨l, records⟩
        rcases visit_of_ok horders hmade with ⟨hstatus, hbody, hhistory⟩
        exact .inl ⟨⟨horders, hstatus⟩, _, congrArg History.lastRefresh hhistory, hbody⟩
    | error err =>
        rcases visit_of_error horders hmade with ⟨hstatus, hhistory⟩
        refine .inr ⟨fun hrefreshes => ?_, hhistory⟩
        -- No refusal has the status of a success.
        have hok := hstatus.symm.trans hrefreshes.2
        cases err <;> cases hok
  · have hlooks := respond_onlyLooks horders
    refine .inr ⟨fun hrefreshes => horders hrefreshes.1, ?_⟩
    unfold visit
    rw [hlooks.session]

theorem visit_of_builtIn (hengine : service.engine.BuiltIn) (h : server.OrdersRefresh v.request)
    (hstatus : (server.visit service v s).result.status ≠ ⟨200⟩) :
    (server.visit service v s).result.status = ⟨502⟩ := by
  cases hmade : (service.engine.reconcile service.window (v.meanwhile s.engineState)).answer with
  | ok made => exact absurd (visit_of_ok h hmade).1 hstatus
  | error err =>
      rw [(visit_of_error h hmade).1]
      rcases hengine.reconcile_fails _ _ err hmade with ⟨why, rfl⟩ | ⟨why, rfl⟩
      · rfl
      · rfl

/-!
# Runs of visits
-/

theorem noneRefreshes_nil (s : Session σ) : server.NoneRefreshes service [] s := by
  intro before v after h
  cases before <;> cases h

theorem noneRefreshes_cons {rest : List (Visit σ)} (hfirst : ¬ server.Refreshes service v s)
    (hrest : server.NoneRefreshes service rest (server.visit service v s).session) :
    server.NoneRefreshes service (v :: rest) s := by
  intro before w after h
  cases before with
  | nil =>
      cases h
      exact hfirst
  | cons b before =>
      cases h
      exact hrest before w after rfl

theorem lastRefreshes_cons {rest : List (Visit σ)} {w : Visit σ} {t : Session σ}
    (h : server.LastRefreshes service rest (server.visit service v s).session w t) :
    server.LastRefreshes service (v :: rest) s w t := by
  rcases h with ⟨before, after, hrest, ht, hrefreshes, hafter⟩
  refine ⟨v :: before, after, ?_, ht, hrefreshes, hafter⟩
  rw [hrest]
  rfl

theorem visitAll_history (visits : List (Visit σ)) (s : Session σ) :
    (server.NoneRefreshes service visits s ∧
        (server.visitAll service visits s).history = s.history) ∨
      ∃ v t, server.LastRefreshes service visits s v t ∧
        (server.visitAll service visits s).history =
          (server.visit service v t).session.history := by
  induction visits generalizing s with
  | nil => exact .inl ⟨noneRefreshes_nil s, rfl⟩
  | cons v rest ih =>
      rcases ih (server.visit service v s).session with ⟨hnone, hkept⟩ | ⟨w, t, hlast, hmade⟩
      · -- The rest changes nothing, so the first visit decides.
        rcases visit_history service v s with ⟨hrefreshes, _⟩ | ⟨hfails, hsame⟩
        · exact .inr ⟨v, s, ⟨[], rest, rfl, rfl, hrefreshes, hnone⟩, hkept⟩
        · exact .inl ⟨noneRefreshes_cons hfails hnone, hkept.trans hsame⟩
      · exact .inr ⟨w, t, lastRefreshes_cons hlast, hmade⟩

/-- Over any run of requests the history is what the last successful refresh has left, or what
was there before a run without one, and then whatever is read is as it would have been.  After
any run, what the next request does to the history shows in its answer. -/
theorem served_after_visits (server : Server) (service : Service σ) (visits : List (Visit σ))
    (s : Session σ) :
    let final := server.visitAll service visits s
    ((server.NoneRefreshes service visits s ∧ final.history = s.history ∧
        ∀ r : Request, r.method = .get → ∀ before after : Service σ,
          ((server.respond r).run after final).result =
            ((server.respond r).run before s).result) ∨
      ∃ v t, server.LastRefreshes service visits s v t ∧
        final.history = (server.visit service v t).session.history) ∧
    ∀ v : Visit σ,
      let made := server.visit service v final
      (server.Refreshes service v final → ∃ stats,
        made.session.history.lastRefresh = some stats ∧
          made.result.body = .json (.object
            [("wallet_height", .unsigned stats.walletHeight),
              ("incoming", .unsigned stats.incoming), ("outgoing", .unsigned stats.outgoing),
              ("pending_outgoing", .unsigned stats.pendingOutgoing),
              ("pool", .unsigned stats.pool), ("duration_ms", .unsigned stats.durationMs),
              ("completed_at", .unsigned stats.completedAt)])) ∧
      (¬ server.Refreshes service v final → made.session.history = final.history) ∧
      (service.engine.BuiltIn → server.OrdersRefresh v.request →
        made.result.status ≠ ⟨200⟩ → made.result.status = ⟨502⟩) := by
  intro final
  constructor
  · rcases visitAll_history visits s with ⟨hnone, hkept⟩ | hlast
    · refine .inl ⟨hnone, hkept, ?_⟩
      intro r hget before after
      exact (respond_onlyLooks (not_ordersRefresh_of_get hget)).result after before hkept
    · exact .inr hlast
  · intro v made
    refine ⟨?_, ?_, visit_of_builtIn⟩
    · intro hrefreshes
      rcases visit_history service v final with ⟨_, stats, hlast, hbody⟩ | ⟨hfails, _⟩
      · rw [RefreshStats.toJson_eq] at hbody
        exact ⟨stats, hlast, hbody⟩
      · exact absurd hrefreshes hfails
    · intro hfails
      rcases visit_history service v final with ⟨hrefreshes, _⟩ | ⟨_, hsame⟩
      · exact absurd hrefreshes hfails
      · exact hsame

end Server
end Api
end WalletLedger
