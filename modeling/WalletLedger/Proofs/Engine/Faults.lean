import WalletLedger.Engine.Canned
import WalletLedger.Engine.Snapshot
import WalletLedger.Record.Ledgers
import WalletLedger.Proofs.Rpc.Faults

/-!
# What can go wrong with a refresh

The engines that come with the library fail only by errors of their own, whichever of their
methods is asked.  A refresh from one of them adds a single error, for replies that are not
as many as the questions.
-/

namespace WalletLedger

def CoreError.IsLaidToEngine (e : CoreError) : Prop :=
  e.IsEngine ∨ ∃ why, e = .invalidData why

theorem Lookups.ofReplies_fails (labelKeys : List SubaddressIndex)
    (addressKeys : List AddressKey) (labels addresses : List String) :
    Results.FailsOnly CoreError.IsLaidToEngine
      (Lookups.ofReplies labelKeys addressKeys labels addresses) := by
  unfold ofReplies
  split
  · exact .ok _
  · exact .error (.inr ⟨_, rfl⟩)

namespace Engine

variable {σ : Type}

structure FailsOnly (kind : CoreError → Prop) (e : Engine σ) : Prop where
  height : e.height.FailsOnly kind
  network : e.network.FailsOnly kind
  incoming : ∀ w, (e.incoming w).FailsOnly kind
  outgoing : ∀ w, (e.outgoing w).FailsOnly kind
  pending : e.pending.FailsOnly kind
  pool : e.pool.FailsOnly kind
  label : ∀ index, (e.label index).FailsOnly kind
  labels : ∀ indices, (e.labels indices).FailsOnly kind
  address : ∀ d n p, (e.address d n p).FailsOnly kind
  addresses : ∀ requests n, (e.addresses requests n).FailsOnly kind

/-!
# Refreshes
-/

namespace FailsOnly

variable {kind : CoreError → Prop} {e : Engine σ}

theorem fetchLedgers (h : e.FailsOnly kind) (w : HeightWindow) :
    (e.fetchLedgers w).FailsOnly kind :=
  (h.height.together <| h.network.together <| (h.incoming w).together <|
    (h.outgoing w).together <| h.pending.together h.pool).bind fun _ => .pure _

theorem resolveLookups (h : e.FailsOnly CoreError.IsEngine) (l : Ledgers) :
    (e.resolveLookups l).FailsOnly CoreError.IsLaidToEngine :=
  ((h.labels l.labelKeys).mono fun _ => .inl).bind fun labels =>
    ((h.addresses l.addressKeys l.network).mono fun _ => .inl).bind fun addresses =>
      .ofExcept (Lookups.ofReplies_fails l.labelKeys l.addressKeys labels addresses)

theorem reconcile (h : e.FailsOnly CoreError.IsEngine) (w : HeightWindow) :
    (e.reconcile w).FailsOnly CoreError.IsLaidToEngine :=
  ((h.fetchLedgers w).mono fun _ => .inl).bind fun l =>
    (h.resolveLookups l).bind fun _ => (Act.FailsOnly.report _).bind fun _ => .pure _

end FailsOnly

/-!
# The engines of the library
-/

inductive BuiltIn : {σ : Type} → Engine σ → Prop where
  | snapshot (s : Snapshot) {σ : Type} : BuiltIn (s.engine : Engine σ)
  | canned : BuiltIn Canned.engine
  | remote {π : Type} (a : Rpc.Access π) : BuiltIn a.engine

end Engine

theorem Snapshot.addressOf_fails {σ : Type} (kind : CoreError → Prop) (d : Destination) :
    (Snapshot.addressOf d : Act σ String).FailsOnly kind := by
  unfold addressOf
  split
  · exact .pure _
  · exact (Act.FailsOnly.report _).bind fun _ => .pure _

theorem Snapshot.engine_fails {σ : Type} (kind : CoreError → Prop) (s : Snapshot) :
    (s.engine : Engine σ).FailsOnly kind where
  height := .pure _
  network := .pure _
  incoming _ := .pure _
  outgoing _ := .pure _
  pending := .pure _
  pool := .pure _
  label _ := .pure _
  labels _ := .inTurn fun _ _ => .pure _
  address d _ _ := addressOf_fails kind d
  addresses _ _ := .inTurn fun request _ => addressOf_fails kind request.1

namespace Canned

theorem answer_fails {α : Type} {x : Act Canned α} (h : x.FailsOnly CoreError.IsEngine) :
    (answer x).FailsOnly CoreError.IsEngine := by
  intro c
  unfold answer
  split
  · exact .error ⟨_, rfl⟩
  · exact h c

theorem engine_fails : Canned.engine.FailsOnly CoreError.IsEngine where
  height := answer_fails (.look _)
  network := answer_fails (.look _)
  incoming _ := answer_fails ((Act.FailsOnly.change _).bind fun _ => .look _)
  outgoing _ := answer_fails (.look _)
  pending := answer_fails (.look _)
  pool := answer_fails (.look _)
  label _ := answer_fails (.look _)
  labels _ := .inTurn fun _ _ => answer_fails (.look _)
  address _ _ _ := answer_fails (.pure _)
  addresses _ _ := .inTurn fun _ _ => answer_fails (.pure _)

end Canned

theorem Rpc.Access.engine_fails {π : Type} (a : Rpc.Access π) :
    a.engine.FailsOnly CoreError.IsEngine where
  height := a.ask_fails _ _
  network := a.ask_fails _ _
  incoming _ := a.ask_fails _ _
  outgoing _ := a.ask_fails _ _
  pending := a.ask_fails _ _
  pool := a.ask_fails _ _
  label := a.label_fails
  labels := a.labels_fails
  address _ _ _ := a.address_fails _
  addresses _ _ := a.addresses_fails _

namespace Engine

theorem BuiltIn.failsOnly {σ : Type} {e : Engine σ} (h : BuiltIn e) :
    e.FailsOnly CoreError.IsEngine := by
  cases h with
  | snapshot s => exact s.engine_fails _
  | canned => exact Canned.engine_fails
  | remote a => exact a.engine_fails

/-- Whatever a built-in engine meets with, a refresh fails by what is laid to the engine. -/
theorem BuiltIn.reconcile_fails {σ : Type} {e : Engine σ} (h : BuiltIn e) (w : HeightWindow) :
    (e.reconcile w).FailsOnly CoreError.IsLaidToEngine :=
  h.failsOnly.reconcile w

end Engine
end WalletLedger
