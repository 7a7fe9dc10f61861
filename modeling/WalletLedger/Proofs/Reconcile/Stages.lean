import WalletLedger.History
import WalletLedger.Proofs.Act

/-!
# The stages of a refresh

A refresh fetches six things, looks up labels and then addresses, and counts the replies.
It succeeds when all of that does and fails at the first stage that fails.  The two
relations of this module say which, in terms of single calls on the engine, and every
statement about a refresh starts from them.
-/

namespace WalletLedger

open Act

namespace Engine

variable {σ : Type}

/-!
# Fetching
-/

/-- The six fetches answer one behind the other with the parts of `l`, and leave `t`. -/
def Fetches (e : Engine σ) (w : HeightWindow) (s : σ) (l : Ledgers) (t : σ) : Prop :=
  ∃ s₁ s₂ s₃ s₄ s₅,
    e.height.Succeeds s l.walletHeight s₁ ∧ e.network.Succeeds s₁ l.network s₂ ∧
      (e.incoming w).Succeeds s₂ l.incoming s₃ ∧ (e.outgoing w).Succeeds s₃ l.outgoing s₄ ∧
        e.pending.Succeeds s₄ l.pending s₅ ∧ e.pool.Succeeds s₅ l.pool t

/-- One of the six fetches fails after those before it have succeeded. -/
inductive FetchFails (e : Engine σ) (w : HeightWindow) (s : σ) (err : CoreError) : Prop where
  | height : (e.height s).answer = .error err → FetchFails e w s err
  | network {a : UInt64} {s₁ : σ} :
      e.height.Succeeds s a s₁ → (e.network s₁).answer = .error err → FetchFails e w s err
  | incoming {a : UInt64} {b : Network} {s₁ s₂ : σ} :
      e.height.Succeeds s a s₁ → e.network.Succeeds s₁ b s₂ →
        (e.incoming w s₂).answer = .error err → FetchFails e w s err
  | outgoing {a : UInt64} {b : Network} {c : IncomingLedger} {s₁ s₂ s₃ : σ} :
      e.height.Succeeds s a s₁ → e.network.Succeeds s₁ b s₂ →
        (e.incoming w).Succeeds s₂ c s₃ → (e.outgoing w s₃).answer = .error err →
          FetchFails e w s err
  | pending {a : UInt64} {b : Network} {c : IncomingLedger} {d : OutgoingLedger}
      {s₁ s₂ s₃ s₄ : σ} :
      e.height.Succeeds s a s₁ → e.network.Succeeds s₁ b s₂ →
        (e.incoming w).Succeeds s₂ c s₃ → (e.outgoing w).Succeeds s₃ d s₄ →
          (e.pending s₄).answer = .error err → FetchFails e w s err
  | pool {a : UInt64} {b : Network} {c : IncomingLedger} {d : OutgoingLedger}
      {p : PendingLedger} {s₁ s₂ s₃ s₄ s₅ : σ} :
      e.height.Succeeds s a s₁ → e.network.Succeeds s₁ b s₂ →
        (e.incoming w).Succeeds s₂ c s₃ → (e.outgoing w).Succeeds s₃ d s₄ →
          e.pending.Succeeds s₄ p s₅ → (e.pool s₅).answer = .error err → FetchFails e w s err

theorem fetchLedgers_succeeds_iff {e : Engine σ} {w : HeightWindow} {s t : σ} {l : Ledgers} :
    (e.fetchLedgers w).Succeeds s l t ↔ e.Fetches w s l t := by
  unfold fetchLedgers Fetches
  rw [bind_succeeds_iff]
  constructor
  · intro hrun
    rcases hrun with ⟨⟨walletHeight, network, incoming, outgoing, pending, pool⟩, r, hall, hmade⟩
    rcases hmade with ⟨hl, hr⟩
    cases hl
    cases hr
    rcases together_succeeds_iff.mp hall with ⟨s₁, h₁, hall⟩
    rcases together_succeeds_iff.mp hall with ⟨s₂, h₂, hall⟩
    rcases together_succeeds_iff.mp hall with ⟨s₃, h₃, hall⟩
    rcases together_succeeds_iff.mp hall with ⟨s₄, h₄, hall⟩
    rcases together_succeeds_iff.mp hall with ⟨s₅, h₅, h₆⟩
    exact ⟨s₁, s₂, s₃, s₄, s₅, h₁, h₂, h₃, h₄, h₅, h₆⟩
  · intro hrun
    rcases hrun with ⟨s₁, s₂, s₃, s₄, s₅, h₁, h₂, h₃, h₄, h₅, h₆⟩
    refine ⟨(l.walletHeight, l.network, l.incoming, l.outgoing, l.pending, l.pool), t, ?_,
      rfl, rfl⟩
    refine together_succeeds_iff.mpr ⟨s₁, h₁, ?_⟩
    refine together_succeeds_iff.mpr ⟨s₂, h₂, ?_⟩
    refine together_succeeds_iff.mpr ⟨s₃, h₃, ?_⟩
    refine together_succeeds_iff.mpr ⟨s₄, h₄, ?_⟩
    exact together_succeeds_iff.mpr ⟨s₅, h₅, h₆⟩

theorem fetchLedgers_error_iff {e : Engine σ} {w : HeightWindow} {s : σ} {err : CoreError} :
    (e.fetchLedgers w s).answer = .error err ↔ e.FetchFails w s err := by
  unfold fetchLedgers
  rw [bind_error_iff]
  constructor
  · intro hrun
    rcases hrun with hall | ⟨⟨_, _, _, _, _, _⟩, r, _, hmade⟩
    · rcases together_error_iff.mp hall with h | ⟨a, s₁, h₁, hall⟩
      · exact .height h
      rcases together_error_iff.mp hall with h | ⟨b, s₂, h₂, hall⟩
      · exact .network h₁ h
      rcases together_error_iff.mp hall with h | ⟨c, s₃, h₃, hall⟩
      · exact .incoming h₁ h₂ h
      rcases together_error_iff.mp hall with h | ⟨d, s₄, h₄, hall⟩
      · exact .outgoing h₁ h₂ h₃ h
      rcases together_error_iff.mp hall with h | ⟨p, s₅, h₅, h⟩
      · exact .pending h₁ h₂ h₃ h₄ h
      · exact .pool h₁ h₂ h₃ h₄ h₅ h
    · cases hmade
  · intro hfail
    refine .inl (together_error_iff.mpr ?_)
    cases hfail with
    | height h => exact .inl h
    | network h₁ h =>
        exact .inr ⟨_, _, h₁, together_error_iff.mpr (.inl h)⟩
    | incoming h₁ h₂ h =>
        refine .inr ⟨_, _, h₁, together_error_iff.mpr (.inr ⟨_, _, h₂, ?_⟩)⟩
        exact together_error_iff.mpr (.inl h)
    | outgoing h₁ h₂ h₃ h =>
        refine .inr ⟨_, _, h₁, together_error_iff.mpr (.inr ⟨_, _, h₂, ?_⟩)⟩
        refine together_error_iff.mpr (.inr ⟨_, _, h₃, ?_⟩)
        exact together_error_iff.mpr (.inl h)
    | pending h₁ h₂ h₃ h₄ h =>
        refine .inr ⟨_, _, h₁, together_error_iff.mpr (.inr ⟨_, _, h₂, ?_⟩)⟩
        refine together_error_iff.mpr (.inr ⟨_, _, h₃, ?_⟩)
        refine together_error_iff.mpr (.inr ⟨_, _, h₄, ?_⟩)
        exact together_error_iff.mpr (.inl h)
    | pool h₁ h₂ h₃ h₄ h₅ h =>
        refine .inr ⟨_, _, h₁, together_error_iff.mpr (.inr ⟨_, _, h₂, ?_⟩)⟩
        refine together_error_iff.mpr (.inr ⟨_, _, h₃, ?_⟩)
        refine together_error_iff.mpr (.inr ⟨_, _, h₄, ?_⟩)
        exact together_error_iff.mpr (.inr ⟨_, _, h₅, h⟩)

/-!
# The whole refresh
-/

def RepliesFit (l : Ledgers) (labels addresses : List String) : Prop :=
  labels.length = l.labelKeys.length ∧ addresses.length = l.addressKeys.length

def lookupsOf (l : Ledgers) (labels addresses : List String) : Lookups :=
  ⟨l.labelKeys.zip labels, l.addressKeys.zip addresses⟩

/-- The stage at which a refresh fails, and the error it fails with. -/
inductive ReconcileFails (e : Engine σ) (w : HeightWindow) (s : σ) : CoreError → Prop where
  | fetch {err : CoreError} : e.FetchFails w s err → ReconcileFails e w s err
  | labels {err : CoreError} {l : Ledgers} {t : σ} :
      e.Fetches w s l t → (e.labels l.labelKeys t).answer = .error err →
        ReconcileFails e w s err
  | addresses {err : CoreError} {l : Ledgers} {t u : σ} {labels : List String} :
      e.Fetches w s l t → (e.labels l.labelKeys).Succeeds t labels u →
        (e.addresses l.addressKeys l.network u).answer = .error err →
          ReconcileFails e w s err
  | replies {l : Ledgers} {t u v : σ} {labels addresses : List String} :
      e.Fetches w s l t → (e.labels l.labelKeys).Succeeds t labels u →
        (e.addresses l.addressKeys l.network).Succeeds u addresses v →
          ¬ RepliesFit l labels addresses →
            ReconcileFails e w s (.invalidData (.lookupCount labels.length
              l.labelKeys.length addresses.length l.addressKeys.length))

theorem ofReplies_of_fit {l : Ledgers} {labels addresses : List String}
    (h : RepliesFit l labels addresses) :
    Lookups.ofReplies l.labelKeys l.addressKeys labels addresses =
      .ok (lookupsOf l labels addresses) :=
  if_pos h

theorem ofReplies_of_not_fit {l : Ledgers} {labels addresses : List String}
    (h : ¬ RepliesFit l labels addresses) :
    Lookups.ofReplies l.labelKeys l.addressKeys labels addresses =
      .error (.invalidData (.lookupCount labels.length l.labelKeys.length addresses.length
        l.addressKeys.length)) :=
  if_neg h

theorem resolveLookups_succeeds_iff {e : Engine σ} {l : Ledgers} {s t : σ}
    {lookups : Lookups} :
    (e.resolveLookups l).Succeeds s lookups t ↔
      ∃ labels addresses r, (e.labels l.labelKeys).Succeeds s labels r ∧
        (e.addresses l.addressKeys l.network).Succeeds r addresses t ∧
          RepliesFit l labels addresses ∧ lookups = lookupsOf l labels addresses := by
  unfold resolveLookups
  rw [bind_succeeds_iff]
  constructor
  · intro hrun
    rcases hrun with ⟨labels, r, hlabels, hrest⟩
    rcases bind_succeeds_iff.mp hrest with ⟨addresses, q, haddresses, hmade, hq⟩
    cases hq
    by_cases hfit : RepliesFit l labels addresses
    · rw [ofExcept_answer, ofReplies_of_fit hfit] at hmade
      cases hmade
      exact ⟨labels, addresses, r, hlabels, haddresses, hfit, rfl⟩
    · rw [ofExcept_answer, ofReplies_of_not_fit hfit] at hmade
      cases hmade
  · intro hrun
    rcases hrun with ⟨labels, addresses, r, hlabels, haddresses, hfit, hmade⟩
    refine ⟨labels, r, hlabels, bind_succeeds_iff.mpr ⟨addresses, t, haddresses, ?_, rfl⟩⟩
    rw [ofExcept_answer, ofReplies_of_fit hfit, hmade]

theorem reconcile_succeeds_iff {e : Engine σ} {w : HeightWindow} {s t : σ} {l : Ledgers}
    {records : List Record} :
    (e.reconcile w).Succeeds s (l, records) t ↔
      ∃ labels addresses r q, e.Fetches w s l r ∧ (e.labels l.labelKeys).Succeeds r labels q ∧
        (e.addresses l.addressKeys l.network).Succeeds q addresses t ∧
          RepliesFit l labels addresses ∧
            records = l.records (lookupsOf l labels addresses) := by
  unfold reconcile
  rw [bind_succeeds_iff]
  constructor
  · intro hrun
    rcases hrun with ⟨l', r, hfetch, hrest⟩
    rcases bind_succeeds_iff.mp hrest with ⟨lookups, q, hresolve, hmade⟩
    rcases bind_succeeds_iff.mp hmade with ⟨_, q', ⟨_, hq⟩, hpair, hq'⟩
    cases hpair
    cases hq
    cases hq'
    rcases resolveLookups_succeeds_iff.mp hresolve with
      ⟨labels, addresses, p, hlabels, haddresses, hfit, hlookups⟩
    refine ⟨labels, addresses, r, p, fetchLedgers_succeeds_iff.mp hfetch, hlabels, haddresses,
      hfit, ?_⟩
    rw [hlookups]
  · intro hrun
    rcases hrun with ⟨labels, addresses, r, q, hfetch, hlabels, haddresses, hfit, hrecords⟩
    refine ⟨l, r, fetchLedgers_succeeds_iff.mpr hfetch, bind_succeeds_iff.mpr ?_⟩
    refine ⟨lookupsOf l labels addresses, t, resolveLookups_succeeds_iff.mpr ?_, ?_⟩
    · exact ⟨labels, addresses, q, hlabels, haddresses, hfit, rfl⟩
    · rw [hrecords]
      exact bind_succeeds_iff.mpr ⟨(), t, ⟨rfl, rfl⟩, rfl, rfl⟩

theorem resolveLookups_error_iff {e : Engine σ} {l : Ledgers} {s : σ} {err : CoreError} :
    (e.resolveLookups l s).answer = .error err ↔
      (e.labels l.labelKeys s).answer = .error err ∨
        ∃ labels r, (e.labels l.labelKeys).Succeeds s labels r ∧
          ((e.addresses l.addressKeys l.network r).answer = .error err ∨
            ∃ addresses t, (e.addresses l.addressKeys l.network).Succeeds r addresses t ∧
              ¬ RepliesFit l labels addresses ∧
                err = .invalidData (.lookupCount labels.length l.labelKeys.length
                  addresses.length l.addressKeys.length)) := by
  unfold resolveLookups
  rw [bind_error_iff]
  refine or_congr Iff.rfl (exists_congr fun labels => exists_congr fun r =>
    and_congr_right fun _ => ?_)
  rw [bind_error_iff]
  refine or_congr Iff.rfl (exists_congr fun addresses => exists_congr fun t =>
    and_congr_right fun _ => ?_)
  rw [ofExcept_answer]
  by_cases hfit : RepliesFit l labels addresses
  · rw [ofReplies_of_fit hfit]
    constructor
    · intro h
      cases h
    · intro hrun
      rcases hrun with ⟨hnot, _⟩
      exact absurd hfit hnot
  · rw [ofReplies_of_not_fit hfit]
    constructor
    · intro h
      cases h
      exact ⟨hfit, rfl⟩
    · intro hrun
      rcases hrun with ⟨_, herr⟩
      rw [herr]

theorem reconcile_error_iff {e : Engine σ} {w : HeightWindow} {s : σ} {err : CoreError} :
    (e.reconcile w s).answer = .error err ↔ e.ReconcileFails w s err := by
  unfold reconcile
  rw [bind_error_iff]
  constructor
  · intro hrun
    rcases hrun with h | ⟨l, t, hfetch, hrest⟩
    · exact .fetch (fetchLedgers_error_iff.mp h)
    have hfetch := fetchLedgers_succeeds_iff.mp hfetch
    rcases bind_error_iff.mp hrest with hresolve | ⟨lookups, u, _, hmade⟩
    · rcases resolveLookups_error_iff.mp hresolve with
        hlabels | ⟨labels, u, hlabels, haddresses | ⟨addresses, v, haddresses, hfit, herr⟩⟩
      · exact .labels hfetch hlabels
      · exact .addresses hfetch hlabels haddresses
      · rw [herr]
        exact .replies hfetch hlabels haddresses hfit
    · -- What follows the lookups never fails.
      rcases bind_error_iff.mp hmade with h | ⟨_, _, _, h⟩ <;> cases h
  · intro hfail
    cases hfail with
    | fetch h => exact .inl (fetchLedgers_error_iff.mpr h)
    | labels hfetch hlabels =>
        refine .inr ⟨_, _, fetchLedgers_succeeds_iff.mpr hfetch, bind_error_iff.mpr (.inl ?_)⟩
        exact resolveLookups_error_iff.mpr (.inl hlabels)
    | addresses hfetch hlabels haddresses =>
        refine .inr ⟨_, _, fetchLedgers_succeeds_iff.mpr hfetch, bind_error_iff.mpr (.inl ?_)⟩
        exact resolveLookups_error_iff.mpr (.inr ⟨_, _, hlabels, .inl haddresses⟩)
    | replies hfetch hlabels haddresses hfit =>
        refine .inr ⟨_, _, fetchLedgers_succeeds_iff.mpr hfetch, bind_error_iff.mpr (.inl ?_)⟩
        refine resolveLookups_error_iff.mpr (.inr ⟨_, _, hlabels, .inr ?_⟩)
        exact ⟨_, _, haddresses, hfit, rfl⟩

/-!
# What a refresh keeps
-/

/-- No call that a refresh makes loses the property. -/
structure Preserves (e : Engine σ) (P : σ → Prop) : Prop where
  height : e.height.Keeps P
  network : e.network.Keeps P
  incoming (w : HeightWindow) : (e.incoming w).Keeps P
  outgoing (w : HeightWindow) : (e.outgoing w).Keeps P
  pending : e.pending.Keeps P
  pool : e.pool.Keeps P
  labels (keys : List SubaddressIndex) : (e.labels keys).Keeps P
  addresses (keys : List AddressKey) (n : Network) : (e.addresses keys n).Keeps P

theorem reconcile_keeps {e : Engine σ} {P : σ → Prop} (h : e.Preserves P) (w : HeightWindow) :
    (e.reconcile w).Keeps P := by
  have hfetch : (e.fetchLedgers w).Keeps P :=
    (h.height.together <| h.network.together <| (h.incoming w).together <|
      (h.outgoing w).together <| h.pending.together h.pool).bind fun _ => Keeps.pure _
  refine hfetch.bind fun l => ?_
  have hresolve : (e.resolveLookups l).Keeps P :=
    (h.labels l.labelKeys).bind fun _ =>
      (h.addresses l.addressKeys l.network).bind fun _ => Keeps.ofExcept _
  exact hresolve.bind fun _ => (Keeps.report _).bind fun _ => Keeps.pure _

end Engine

theorem History.engineState_refresh {σ : Type} (e : Engine σ) (w : HeightWindow)
    (timing : Timing) (s : Session σ) :
    (History.refresh e w timing s).state.engineState = (e.reconcile w s.engineState).state := by
  unfold History.refresh
  cases h : (e.reconcile w s.engineState).answer with
  | ok made => simp only [h]
  | error err => simp only [h]

end WalletLedger
