import WalletLedger.Proofs.Rpc.Agreement

/-!
# Runs of a client

A client is asked for addresses and refreshed from in any order, while its peer changes in
whatever does not matter to addresses.  The cache that all this leaves behind is right, and
so it makes no difference to any address.
-/

namespace WalletLedger
namespace Rpc

/-!
# What the calls of a refresh keep
-/

section Frame

variable {π : Type} (a : Access π) {P : AddressCache → Prop}

theorem labels_keeps (keys : List SubaddressIndex) :
    (a.labels keys).Keeps (Client.Caches P) := by
  intro c hc
  have hkept := a.batches_keeps (keys.map Call.label) c hc
  cases hmade : (a.batches (keys.map Call.label) c).answer with
  | ok raws =>
      rw [(Access.labels_of_ok hmade).2]
      exact hkept
  | error e =>
      rw [(Access.labels_of_error hmade).2]
      exact Act.Keeps.inTurn (fun index _ => a.ask_keeps Result.label (.label index)) _ hkept

end Frame

section Runs

variable {π : Type} {a : Access π} {rendered : List Json → Except Json Json}

theorem engine_preserves (h : a.GivesAddresses rendered) (hsize : a.chunkSize < 2 ^ 64) :
    a.engine.Preserves (CachesTruth π rendered) where
  height := a.ask_keeps _ _
  network := a.ask_keeps _ _
  incoming _ := a.ask_keeps _ _
  outgoing _ := a.ask_keeps _ _
  pending := a.ask_keeps _ _
  pool := a.ask_keeps _ _
  labels keys := labels_keeps a keys
  addresses _ _ _ hc := (addresses_run h hsize _ hc).2

/-!
# Errands
-/

/-- What is done with a client, and what may happen to its peer in the meantime. -/
inductive Errand (π : Type) where
  | address (d : Destination) (n : Network) (p : PaymentId)
  | addresses (requests : List (Destination × PaymentId)) (n : Network)
  | refresh (w : HeightWindow) (timing : Timing)
  | meanwhile (change : π → π)

namespace Errand

def run (a : Access π) : Errand π → Session (Client π) → Session (Client π)
  | address d n p, s => { s with engineState := (a.engine.address d n p s.engineState).state }
  | addresses requests n, s =>
      { s with engineState := (a.engine.addresses requests n s.engineState).state }
  | refresh w timing, s => (History.refresh a.engine w timing s).state
  | meanwhile change, s =>
      { s with engineState := { s.engineState with peer := change s.engineState.peer } }

def runAll (a : Access π) : List (Errand π) → Session (Client π) → Session (Client π)
  | [], s => s
  | errand :: rest, s => runAll a rest (errand.run a s)

theorem run_cachesTruth (h : a.GivesAddresses rendered) (hsize : a.chunkSize < 2 ^ 64)
    (errand : Errand π) {s : Session (Client π)} (hs : CachesTruth π rendered s.engineState) :
    CachesTruth π rendered (errand.run a s).engineState := by
  cases errand with
  | address d n p => exact (address_yields h ⟨d, n, p⟩ _ hs).2
  | addresses requests n =>
      exact (addresses_run h hsize _ hs).2
  | refresh w timing =>
      change CachesTruth π rendered (History.refresh a.engine w timing s).state.engineState
      rw [History.engineState_refresh]
      exact Engine.reconcile_keeps (engine_preserves h hsize) w _ hs
  | meanwhile change => exact hs

theorem runAll_cachesTruth (h : a.GivesAddresses rendered) (hsize : a.chunkSize < 2 ^ 64)
    (errands : List (Errand π)) {s : Session (Client π)}
    (hs : CachesTruth π rendered s.engineState) :
    CachesTruth π rendered (runAll a errands s).engineState := by
  induction errands generalizing s with
  | nil => exact hs
  | cons errand rest ih => exact ih (run_cachesTruth h hsize errand hs)

end Errand

/-!
# The cache is transparent
-/

/-- Whatever was done with a client, its cache is right and makes no difference to answers. -/
theorem cache_transparent (h : a.GivesAddresses rendered) (hsize : a.chunkSize < 2 ^ 64)
    (history : History) (peer : π) (firstId : UInt64) (errands : List (Errand π)) :
    let c := (Errand.runAll a errands ⟨history, .start peer firstId⟩).engineState
    (∀ e ∈ c.cache.entries, addressGiven rendered e.1 = .ok e.2) ∧
      (c.cache.entries.map Prod.fst).Nodup ∧ c.cache.entries.length ≤ 10000 ∧
      ∀ fresh : Client π, fresh.cache = .empty →
        (∀ d n p address,
          ((a.engine.address d n p c).answer = .ok address ↔
            (a.engine.address d n p fresh).answer = .ok address) ∧
          ((a.engine.address d n p c).answer = .ok address ↔
            addressGiven rendered ⟨d, n, p⟩ = .ok address)) ∧
        ∀ requests n addresses,
          ((a.engine.addresses requests n c).answer = .ok addresses ↔
            (a.engine.addresses requests n fresh).answer = .ok addresses) ∧
          ((a.engine.addresses requests n c).answer = .ok addresses ↔
            List.Forall₂ (fun (d, p) address => addressGiven rendered ⟨d, n, p⟩ = .ok address)
              requests addresses) := by
  intro c
  have hc : CachesTruth π rendered c :=
    Errand.runAll_cachesTruth h hsize errands AddressCache.empty_faithful
  refine ⟨hc.entries_right, hc.nodup_keys, hc.length_le, ?_⟩
  intro fresh hfresh
  have hf : CachesTruth π rendered fresh := by
    change fresh.cache.Faithful (Gives rendered)
    rw [hfresh]
    exact AddressCache.empty_faithful
  constructor
  · intro d n p address
    change ((a.address ⟨d, n, p⟩ c).answer = _ ↔ (a.address ⟨d, n, p⟩ fresh).answer = _) ∧
      ((a.address ⟨d, n, p⟩ c).answer = _ ↔ _)
    rw [(address_yields h ⟨d, n, p⟩ c hc).1, (address_yields h ⟨d, n, p⟩ fresh hf).1]
    exact ⟨Iff.rfl, Iff.rfl⟩
  · intro requests n addresses
    have hanswer : ∀ {c : Client π}, CachesTruth π rendered c →
        ((a.engine.addresses requests n c).answer = .ok addresses ↔
          List.Forall₂ (Gives rendered) (requests.map fun (d, p) => ⟨d, n, p⟩) addresses) :=
      fun hc => addresses_ok_iff h hsize hc
    rw [hanswer hc, hanswer hf, List.forall₂_map_left_iff]
    exact ⟨Iff.rfl, Iff.rfl⟩

end Runs

def entered : Destination :=
  ⟨600, .zero, .zero, false, false, some "somewhere"⟩

theorem cache_transparent_entered :
    Host.stubborn.inPairs.GivesAddresses Host.stubborn.renders ∧
      ∃ c : Client Unit,
        c = (Errand.runAll Host.stubborn.inPairs
          [.refresh .all ⟨3, 1700000000⟩, .address entered .testnet .zero, .meanwhile id,
            .addresses [(entered, .zero), (entered, .zero)] .testnet]
          ⟨.empty, .start () 1⟩).engineState ∧
        (Host.stubborn.inPairs.engine.addresses [(entered, .zero), (entered, .zero)] .testnet
          c).answer = .ok ["somewhere", "somewhere"] := by
  have hgives : Host.stubborn.inPairs.GivesAddresses Host.stubborn.renders := Host.givesAddresses rfl
  have htold : addressGiven Host.stubborn.renders ⟨entered, .testnet, .zero⟩ = .ok "somewhere" :=
    (Host.tells_address Host.stubborn ⟨entered, .testnet, .zero⟩).read _
  rcases cache_transparent hgives (by decide) .empty () 1
    [.refresh .all ⟨3, 1700000000⟩, .address entered .testnet .zero, .meanwhile id,
      .addresses [(entered, .zero), (entered, .zero)] .testnet] with ⟨_, _, _, hsame⟩
  refine ⟨hgives, _, rfl, ?_⟩
  exact ((hsame (.start () 1) rfl).2 _ _ _).2.mpr (.cons htold (.cons htold .nil))

end Rpc
end WalletLedger
