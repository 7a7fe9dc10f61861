import WalletLedger.Proofs.Rpc.Labels

/-!
# What can go wrong with a remote engine

Replies are checked in many places, and whatever is found wrong is laid to the engine.  No
reply, however strange, makes a lookup fail with another kind of error.
-/

namespace WalletLedger

def CoreError.IsEngine (e : CoreError) : Prop :=
  ∃ why, e = .engine why

namespace Rpc

open Results (FailsOnly)

/-!
# Replies
-/

theorem decodeReply_fails {α : Type} (c : Json.Codec α) (what : String) (d : Delivery) :
    FailsOnly CoreError.IsEngine (decodeReply c what d) := by
  cases d with
  | failed reason => exact .error ⟨_, rfl⟩
  | replied status body =>
      cases h : c.decode body with
      | ok x =>
          simp only [decodeReply, h]
          exact .ok x
      | error why =>
          simp only [decodeReply, h]
          split
          · exact .error ⟨_, rfl⟩
          · exact .error ⟨_, rfl⟩

theorem decodeResult_fails {α : Type} (c : Json.Codec α) (method : String) (raw : Json) :
    FailsOnly CoreError.IsEngine (decodeResult c method raw) := by
  unfold decodeResult
  cases c.decodeValue raw with
  | ok x => exact .ok x
  | error why => exact .error ⟨_, rfl⟩

theorem errorOf_isEngine (error : Json) : (errorOf error).IsEngine := by
  unfold errorOf
  split
  · exact ⟨_, rfl⟩
  · exact ⟨_, rfl⟩

theorem outcome_fails (r : Response) : FailsOnly CoreError.IsEngine r.outcome := by
  unfold Response.outcome
  cases r.error with
  | none => exact .ok _
  | some error => exact .error (errorOf_isEngine error)

theorem itemId_fails (id : Json) : FailsOnly CoreError.IsEngine (itemId id) := by
  unfold itemId
  split
  · exact .ok _
  · split
    · exact .ok _
    · exact .error ⟨_, rfl⟩
  · exact .error ⟨_, rfl⟩

theorem resultFor_fails (latest : List (UInt64 × Response)) (id : UInt64) :
    FailsOnly CoreError.IsEngine (resultFor latest id) := by
  unfold resultFor
  cases latest.lookup id with
  | some item => exact outcome_fails item
  | none => exact .error ⟨_, rfl⟩

theorem readSingle_fails (d : Delivery) : FailsOnly CoreError.IsEngine (readSingle d) :=
  (decodeReply_fails _ _ d).bind outcome_fails

theorem readBatch_fails (start : UInt64) (count : Nat) (d : Delivery) :
    FailsOnly CoreError.IsEngine (readBatch start count d) := by
  refine (decodeReply_fails _ _ d).bind fun items => ?_
  have hids : FailsOnly CoreError.IsEngine (identified items) :=
    .mapM fun item _ => (itemId_fails item.id).bind fun id => .ok (id, item)
  exact hids.bind fun pairs => .mapM fun k _ => resultFor_fails pairs.reverse _

/-!
# Lookups
-/

namespace Access

variable {π : Type} (a : Access π)

theorem reserve_fails (kind : CoreError → Prop) (count : Nat) :
    (Client.reserve count : Act (Client π) UInt64).FailsOnly kind :=
  fun c => .ok c.nextId

theorem exchange_fails (kind : CoreError → Prop) (body : String) :
    (a.exchange body).FailsOnly kind :=
  fun c => .ok (a.peer ⟨a.credentials, body⟩ c.peer).1

theorem withCache_fails {α : Type} (kind : CoreError → Prop)
    (f : AddressCache → α × AddressCache) :
    (Client.withCache f : Act (Client π) α).FailsOnly kind :=
  fun c => .ok (f c.cache).1

theorem single_fails (call : Call) : (a.single call).FailsOnly CoreError.IsEngine :=
  (reserve_fails _ 1).bind fun _ => (a.exchange_fails _ _).bind fun d =>
    .ofExcept (readSingle_fails d)

theorem batch_fails (calls : List Call) : (a.batch calls).FailsOnly CoreError.IsEngine :=
  (reserve_fails _ _).bind fun start => (a.exchange_fails _ _).bind fun d =>
    .ofExcept (readBatch_fails start calls.length d)

theorem batches_fails (calls : List Call) : (a.batches calls).FailsOnly CoreError.IsEngine :=
  (Act.FailsOnly.allTogether fun chunk _ => a.batch_fails chunk).bind fun parts =>
    .pure parts.flatten

theorem ask_fails {α : Type} (codec : Json.Codec α) (call : Call) :
    (a.ask codec call).FailsOnly CoreError.IsEngine :=
  (a.single_fails call).bind fun raw => .ofExcept (decodeResult_fails codec call.method raw)

theorem label_fails (index : SubaddressIndex) :
    (a.label index).FailsOnly CoreError.IsEngine :=
  a.ask_fails Result.label (.label index)

theorem labels_fails (indices : List SubaddressIndex) :
    (a.labels indices).FailsOnly CoreError.IsEngine := by
  intro c
  cases hmade : (a.batches (indices.map Call.label) c).answer with
  | ok raws =>
      rw [(labels_of_ok hmade).1]
      exact .mapM fun raw _ => decodeResult_fails Result.label _ raw
  | error e =>
      rw [(labels_of_error hmade).1]
      exact Act.FailsOnly.inTurn (fun index _ => a.label_fails index) _

theorem address_fails (key : RenderKey) : (a.address key).FailsOnly CoreError.IsEngine := by
  refine (withCache_fails _ _).bind fun found => ?_
  cases found with
  | some address => exact .pure address
  | none =>
      exact (a.ask_fails Result.address (.address key)).bind fun address =>
        (withCache_fails _ _).bind fun _ => .pure address

theorem keepAll_fails (pairs : List (RenderKey × Json)) :
    (Client.keepAll pairs : Act (Client π) (List String)).FailsOnly CoreError.IsEngine := by
  induction pairs with
  | nil => exact .pure []
  | cons pair rest ih =>
      rcases pair with ⟨key, raw⟩
      exact (Act.FailsOnly.ofExcept (decodeResult_fails Result.address _ raw)).bind fun address =>
        (withCache_fails _ _).bind fun _ => ih.bind fun others => .pure (address :: others)

theorem addresses_fails (keys : List RenderKey) :
    (a.addresses keys).FailsOnly CoreError.IsEngine := by
  refine (withCache_fails _ _).bind fun found => ?_
  change Act.FailsOnly _ (if (misses keys found).isEmpty then _ else _)
  split
  · exact .pure _
  · exact (a.batches_fails _).bind fun raws => (keepAll_fails _).bind fun fresh =>
      .pure (fillBlanks found fresh)

end Access
end Rpc
end WalletLedger
