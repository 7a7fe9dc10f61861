import WalletLedger.Proofs.History.Run

/-!
# Programs that only look

A program without a refresh among its calls changes nothing, and what it comes to depends on
the history alone: not on the engine, its state or the clock.
-/

namespace WalletLedger
namespace Api

variable {σ τ ρ ρ' : Type}

/-!
# Single queries
-/

namespace HistoryCall

theorem query_result {α : Type} {call : HistoryCall α} (h : call.IsQuery) (a : Service σ)
    (b : Service τ) {s : Session σ} {t : Session τ} (hst : s.history = t.history) :
    (call.perform a s).result = (call.perform b t).result := by
  cases call with
  | refresh => exact absurd h id
  | count => exact congrArg History.count hst
  | all => exact congrArg History.all hst
  | byIndex index => exact congrArg (fun h => h.byIndex index) hst
  | byHash hash => exact congrArg (fun h => h.byHash hash) hst
  | lastRefresh => exact congrArg History.lastRefresh hst

end HistoryCall

/-!
# Whole programs
-/

namespace Program

theorem map_result (f : ρ → ρ') (p : Program ρ) (service : Service σ) (s : Session σ) :
    ((p.map f).run service s).result = f (p.run service s).result := by
  induction p generalizing s with
  | done result => rfl
  | ask call next ih => exact ih _ _

theorem map_session (f : ρ → ρ') (p : Program ρ) (service : Service σ) (s : Session σ) :
    ((p.map f).run service s).session = (p.run service s).session := by
  induction p generalizing s with
  | done result => rfl
  | ask call next ih => exact ih _ _

/-- None of the calls of a program, whatever those before it bring, is a refresh. -/
def OnlyLooks : Program ρ → Prop
  | .done _ => True
  | .ask call next => call.IsQuery ∧ ∀ x, (next x).OnlyLooks

theorem OnlyLooks.map {p : Program ρ} (h : p.OnlyLooks) (f : ρ → ρ') : (p.map f).OnlyLooks := by
  induction p with
  | done result => trivial
  | ask call next ih => exact ⟨h.1, fun x => ih x (h.2 x)⟩

theorem OnlyLooks.session {p : Program ρ} (h : p.OnlyLooks) (service : Service σ)
    (s : Session σ) : (p.run service s).session = s := by
  induction p generalizing s with
  | done result => rfl
  | ask call next ih =>
      have hfirst : (call.perform service s).session = s := perform_query h.1 service s
      change ((next _).run service (call.perform service s).session).session = s
      rw [hfirst]
      exact ih _ (h.2 _) s

theorem OnlyLooks.result {p : Program ρ} (h : p.OnlyLooks) (a : Service σ) (b : Service τ)
    {s : Session σ} {t : Session τ} (hst : s.history = t.history) :
    (p.run a s).result = (p.run b t).result := by
  induction p generalizing s t with
  | done result => rfl
  | ask call next ih =>
      have hs : (call.perform a s).session = s := perform_query h.1 a s
      have ht : (call.perform b t).session = t := perform_query h.1 b t
      change ((next (call.perform a s).result).run a (call.perform a s).session).result =
        ((next (call.perform b t).result).run b (call.perform b t).session).result
      -- Nothing has changed on either side, so the rest starts from equal histories again.
      rw [hs, ht, HistoryCall.query_result h.1 a b hst]
      exact ih _ (h.2 _) hst

end Program
end Api
end WalletLedger
