import WalletLedger.Proofs.Reconcile.Direct

/-!
# Refreshes over engines that serve the same things

What a refresh makes depends on the ledgers that an engine serves and on the labels and
addresses that it gives, and on nothing else that the engine does.
-/

namespace WalletLedger

/-!
# Engines that serve the same things
-/

section Serving

variable {σ : Type}

/-- In all states with the property the engine answers from these ledgers and functions. -/
structure Engine.Serves (e : Engine σ) (P : σ → Prop) (w : HeightWindow) (l : Ledgers)
    (label : SubaddressIndex → String) (address : Destination → String) : Prop where
  height : e.height.Yields P (.ok l.walletHeight)
  network : e.network.Yields P (.ok l.network)
  incoming : (e.incoming w).Yields P (.ok l.incoming)
  outgoing : (e.outgoing w).Yields P (.ok l.outgoing)
  pending : e.pending.Yields P (.ok l.pending)
  pool : e.pool.Yields P (.ok l.pool)
  labels (keys : List SubaddressIndex) : (e.labels keys).Yields P (.ok (keys.map label))
  addresses (keys : List AddressKey) (n : Network) :
    (e.addresses keys n).Yields P (.ok (keys.map fun key => address key.1))

def Ledgers.servedLookups (l : Ledgers) (label : SubaddressIndex → String)
    (address : Destination → String) : Lookups :=
  ⟨l.labelKeys.zip (l.labelKeys.map label),
    l.addressKeys.zip (l.addressKeys.map fun key => address key.1)⟩

theorem Engine.reconcile_of_serves {e : Engine σ} {P : σ → Prop} {w : HeightWindow}
    {l : Ledgers} {label : SubaddressIndex → String} {address : Destination → String}
    (h : e.Serves P w l label address) :
    (e.reconcile w).Yields P (.ok (l, l.records (l.servedLookups label address))) := by
  have hfetch : (e.fetchLedgers w).Yields P (.ok l) :=
    (h.height.together <| h.network.together <| h.incoming.together <| h.outgoing.together <|
      h.pending.together h.pool).bind fun _ _ => Act.Yields.pure _
  have hfit : Lookups.ofReplies l.labelKeys l.addressKeys (l.labelKeys.map label)
      (l.addressKeys.map fun key => address key.1) = .ok (l.servedLookups label address) := by
    unfold Lookups.ofReplies
    rw [if_pos ⟨List.length_map _, List.length_map _⟩]
    rfl
  have hresolve : (e.resolveLookups l).Yields P (.ok (l.servedLookups label address)) := by
    rw [← hfit]
    apply (h.labels l.labelKeys).bind_ok
    apply (h.addresses l.addressKeys l.network).bind_ok
    exact Act.Yields.ofExcept _
  apply hfetch.bind_ok
  apply hresolve.bind_ok
  apply (Act.Yields.report l.notices).bind_ok
  exact Act.Yields.pure _

theorem History.refresh_of_serves {e : Engine σ} {P : σ → Prop} {w : HeightWindow} {l : Ledgers}
    {label : SubaddressIndex → String} {address : Destination → String}
    (h : e.Serves P w l label address) (timing : Timing) {s : Session σ} (hs : P s.engineState) :
    (History.refresh e w timing s).answer = .ok (History.statsOf l timing) ∧
      (History.refresh e w timing s).state.history =
        ⟨l.records (l.servedLookups label address), some (History.statsOf l timing)⟩ := by
  have hmade := (Engine.reconcile_of_serves h s.engineState hs).1
  unfold History.refresh
  constructor <;> simp only [hmade]

end Serving

/-!
# The snapshot as an engine
-/

namespace Snapshot

def ledgers (s : Snapshot) (w : HeightWindow) : Ledgers where
  walletHeight := s.height
  network := s.network
  incoming := s.incoming.filter fun (_, p) => w.contains p.blockHeight
  outgoing := s.outgoing.filter fun (_, t) => w.contains t.blockHeight
  pending := s.pendingOutgoing
  pool := s.pool

def given (d : Destination) : String :=
  d.original.getD ""

theorem engine_serves (s : Snapshot) (w : HeightWindow) {σ : Type} :
    (s.engine : Engine σ).Serves (fun _ => True) w (s.ledgers w) s.label given where
  height := Act.Yields.pure _
  network := Act.Yields.pure _
  incoming := Act.Yields.pure _
  outgoing := Act.Yields.pure _
  pending := Act.Yields.pure _
  pool := Act.Yields.pure _
  labels keys t _ := by
    rw [s.engine_steady.labels_answer keys t]
    exact ⟨Results.mapM_eq_ok_map fun _ _ => rfl, trivial⟩
  addresses keys n t _ := by
    rw [s.engine_steady.addresses_answer keys n t]
    exact ⟨Results.mapM_eq_ok_map fun _ _ => rfl, trivial⟩

end Snapshot

end WalletLedger
