import WalletLedger.History

/-!
# Calls on the history

What a handler asks of the history, one step at a time.  A handler is a program of such
calls; other work on the same history may fall between two of them, but not into one.
-/

namespace WalletLedger
namespace Api

inductive HistoryCall : Type → Type where
  | count : HistoryCall Nat
  | all : HistoryCall (List Record)
  | byIndex (index : Int) : HistoryCall (Option Record)
  | byHash (hash : String) : HistoryCall (Option Record)
  | lastRefresh : HistoryCall (Option RefreshStats)
  | refresh : HistoryCall (Except CoreError RefreshStats)

/-- A program that asks the history for what it needs until it is done. -/
inductive Program (ρ : Type) : Type 1 where
  | done (result : ρ)
  | ask {α : Type} (call : HistoryCall α) (next : α → Program ρ)

structure Performed (σ α : Type) where
  result : α
  notices : List Notice
  session : Session σ

/-- The history that calls are made on: its engine, its window and the clock. -/
structure Service (σ : Type) where
  engine : Engine σ
  window : HeightWindow
  timing : Timing

namespace HistoryCall

variable {σ : Type}

def perform (service : Service σ) (s : Session σ) {α : Type} : HistoryCall α → Performed σ α
  | .count => ⟨s.history.count, [], s⟩
  | .all => ⟨s.history.all, [], s⟩
  | .byIndex index => ⟨s.history.byIndex index, [], s⟩
  | .byHash hash => ⟨s.history.byHash hash, [], s⟩
  | .lastRefresh => ⟨s.history.lastRefresh, [], s⟩
  | .refresh =>
      let made := History.refresh service.engine service.window service.timing s
      ⟨made.answer, made.notices, made.state⟩

end HistoryCall

namespace Program

variable {σ ρ ρ' : Type}

def map (f : ρ → ρ') : Program ρ → Program ρ'
  | .done result => .done (f result)
  | .ask call next => .ask call fun x => (next x).map f

/-- Runs a program with nothing between its calls. -/
def run (service : Service σ) : Program ρ → Session σ → Performed σ ρ
  | .done result, s => ⟨result, [], s⟩
  | .ask call next, s =>
      let first := call.perform service s
      let rest := (next first.result).run service first.session
      ⟨rest.result, first.notices ++ rest.notices, rest.session⟩

end Program
end Api
end WalletLedger
