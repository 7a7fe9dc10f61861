import WalletLedger.Record.Ledgers

/-!
# The history

The collection of records that the last successful refresh made, with its statistics.  A
refresh makes the whole collection anew and replaces it at once; one that fails leaves it
as it was.
-/

namespace WalletLedger

structure History where
  records : List Record
  lastRefresh : Option RefreshStats

structure Session (σ : Type) where
  history : History
  engineState : σ

/-- What the clock says about a refresh: how long it took and when it ended. -/
structure Timing where
  durationMs : UInt64
  completedAt : UInt64

namespace History

def empty : History := ⟨[], none⟩

/-!
# Queries
-/

def count (h : History) : Nat :=
  h.records.length

/-- The record at a place; places below zero have none. -/
def byIndex (h : History) (index : Int) : Option Record :=
  match index with
  | .ofNat n => h.records[n]?
  | .negSucc _ => none

def byHash (h : History) (hash : String) : Option Record :=
  h.records.find? fun r => r.hash == hash

def all (h : History) : List Record :=
  h.records

/-!
# Refreshing
-/

def statsOf (l : Ledgers) (timing : Timing) : RefreshStats where
  walletHeight := l.walletHeight
  incoming := UInt64.ofNat l.incoming.length
  outgoing := UInt64.ofNat l.outgoing.length
  pendingOutgoing := UInt64.ofNat l.pending.length
  pool := UInt64.ofNat l.pool.length
  durationMs := timing.durationMs
  completedAt := timing.completedAt

/-- Makes the collection anew; a failure is reported with the number of records kept. -/
def refresh {σ : Type} (e : Engine σ) (window : HeightWindow) (timing : Timing) :
    Act (Session σ) RefreshStats := fun s =>
  let made := e.reconcile window s.engineState
  match made.answer with
  | .ok (l, records) =>
      let stats := statsOf l timing
      ⟨.ok stats, made.notices ++ [.refreshed stats], ⟨⟨records, some stats⟩, made.state⟩⟩
  | .error err =>
      ⟨.error err, made.notices ++ [.refreshFailed err s.history.count],
        ⟨s.history, made.state⟩⟩

end History
end WalletLedger
