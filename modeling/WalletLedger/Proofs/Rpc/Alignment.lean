import WalletLedger.Proofs.Reconcile.Stages
import WalletLedger.Proofs.Rpc.Agreement
import WalletLedger.Proofs.Rpc.Faults

/-!
# Replies that stay with their calls

A peer may answer a batch with too many items or too few, in any order and under any ids.
None of this moves a result to another call or makes a list of results longer or shorter: a
batch has its results in the order of its calls, or it fails.
-/

namespace WalletLedger
namespace Rpc

/-!
# Items
-/

/-- The response has the id as a number or as the numeral of one. -/
def Response.CarriesId (r : Response) (id : UInt64) : Prop :=
  r.id = .unsigned id ∨
    ∃ s n, r.id = .string s ∧ Text.readNat (2 ^ 64 - 1) s.toList = .ok n ∧ id = UInt64.ofNat n

theorem itemId_eq_ok_iff {r : Response} {id : UInt64} :
    itemId r.id = .ok id ↔ r.CarriesId id := by
  unfold Response.CarriesId
  cases hid : r.id with
  | unsigned n => simp [itemId]
  | string s =>
      constructor
      · intro h
        cases hread : Text.readNat (2 ^ 64 - 1) s.toList with
        | ok n =>
            simp only [itemId, hread] at h
            cases h
            exact .inr ⟨s, n, rfl, hread, rfl⟩
        | error why =>
            simp only [itemId, hread] at h
            cases h
      · intro h
        rcases h with h | ⟨_, n, h, hread, rfl⟩
        · cases h
        · cases h
          simp only [itemId, hread]
  | _ => simp [itemId]

theorem Response.CarriesId.unique {r : Response} {id id' : UInt64} (h : r.CarriesId id)
    (h' : r.CarriesId id') : id = id' := by
  have hid := itemId_eq_ok_iff.mpr h
  rw [itemId_eq_ok_iff.mpr h'] at hid
  cases hid
  rfl

def LastFor (items : List Response) (id : UInt64) (item : Response) : Prop :=
  ∃ before after, items = before ++ item :: after ∧ item.CarriesId id ∧
    ∀ other ∈ after, ¬ other.CarriesId id

def Delivery.Settles (d : Delivery) (id : UInt64) (v : Json) : Prop :=
  ∃ items item, decodeReply (.list Response.codec) "JSON-RPC batch response" d = .ok items ∧
    LastFor items id item ∧ item.error = none ∧ v = item.result.getD .null

theorem identified_eq_ok {items : List Response} {pairs : List (UInt64 × Response)}
    (h : identified items = .ok pairs) :
    items = pairs.map Prod.snd ∧ ∀ p ∈ pairs, p.2.CarriesId p.1 := by
  have hall := Results.mapM_eq_ok_iff.mp h
  clear h
  induction hall with
  | nil => exact ⟨rfl, fun p hp => absurd hp List.not_mem_nil⟩
  | @cons item p _ _ hitem _ ih =>
      rcases Results.bind_eq_ok_iff.mp hitem with ⟨id, hid, heq⟩
      cases heq
      constructor
      · rw [List.map_cons, ← ih.1]
      · intro q hq
        rcases List.mem_cons.mp hq with rfl | hq
        · exact itemId_eq_ok_iff.mp hid
        · exact ih.2 q hq

theorem lastFor_of_lookup {items : List Response} {pairs : List (UInt64 × Response)}
    (hpairs : identified items = .ok pairs) {id : UInt64} {item : Response}
    (h : pairs.reverse.lookup id = some item) : LastFor items id item := by
  rcases identified_eq_ok hpairs with ⟨hitems, hcarries⟩
  rcases List.lookup_eq_some_iff.mp h with ⟨later, earlier, hreverse, hlater⟩
  have hsplit : pairs = earlier.reverse ++ (id, item) :: later.reverse := by
    rw [← List.reverse_reverse pairs, hreverse]
    simp
  refine ⟨earlier.reverse.map Prod.snd, later.reverse.map Prod.snd, ?_, ?_, ?_⟩
  · rw [hitems, hsplit]
    simp
  · exact hcarries (id, item) (by simp [hsplit])
  · intro other hother hid
    rcases List.mem_map.mp hother with ⟨p, hp, rfl⟩
    have hp := List.mem_reverse.mp hp
    have hown := hcarries p (by simp [hsplit, hp])
    exact absurd (hid.unique hown) (bne_iff_ne.mp (hlater p hp))

theorem resultFor_eq_ok {latest : List (UInt64 × Response)} {id : UInt64} {v : Json}
    (h : resultFor latest id = .ok v) :
    ∃ item, latest.lookup id = some item ∧ item.error = none ∧ v = item.result.getD .null := by
  unfold resultFor at h
  cases hlookup : latest.lookup id with
  | none =>
      rw [hlookup] at h
      cases h
  | some item =>
      simp only [hlookup] at h
      unfold Response.outcome at h
      cases herror : item.error with
      | some error =>
          rw [herror] at h
          cases h
      | none =>
          rw [herror] at h
          cases h
          exact ⟨item, rfl, herror, rfl⟩

theorem settles_of_readBatch {start : UInt64} {calls : List Call} {d : Delivery}
    {results : List Json} (h : readBatch start calls.length d = .ok results) :
    List.Forall₂ (fun r v => d.Settles r.id v) (requestsFrom start calls) results := by
  rcases Results.bind_eq_ok_iff.mp h with ⟨items, hitems, hsettle⟩
  rcases Results.bind_eq_ok_iff.mp hsettle with ⟨pairs, hpairs, hresults⟩
  have hall := Results.mapM_eq_ok_iff.mp hresults
  have hids : List.Forall₂ (fun id v => resultFor pairs.reverse id = .ok v)
      ((requestsFrom start calls).map Request.id) results := by
    rw [ids_of_requestsFrom, List.forall₂_map_left_iff]
    exact hall
  rw [List.forall₂_map_left_iff] at hids
  refine hids.imp fun r v hr => ?_
  rcases resultFor_eq_ok hr with ⟨item, hlookup, herror, hv⟩
  exact ⟨items, item, hitems, lastFor_of_lookup hpairs hlookup, herror, hv⟩

/-!
# Pieces
-/

theorem requestsFrom_append (start : UInt64) (calls more : List Call) :
    requestsFrom start (calls ++ more) =
      requestsFrom start calls ++ requestsFrom (start + UInt64.ofNat calls.length) more := by
  induction calls generalizing start with
  | nil => simp [requestsFrom]
  | cons call rest ih =>
      have hnext : start + 1 + UInt64.ofNat rest.length =
          start + UInt64.ofNat (rest.length + 1) := by
        rw [UInt64.add_assoc, UInt64.add_comm 1, UInt64.ofNat_add]
        rfl
      rw [List.cons_append, requestsFrom, ih, hnext]
      rfl

theorem numbers_of_requestsFrom {start : UInt64} {calls : List Call}
    (h : start.toNat + calls.length < 2 ^ 64) :
    (requestsFrom start calls).map (fun r => r.id.toNat) =
      List.range' start.toNat calls.length := by
  rw [← toNat_of_counted h.le, ← ids_of_requestsFrom, List.map_map]
  rfl

namespace Access

variable {π : Type} (a : Access π)

/-- The requests for calls that are sent in pieces, each with the reply to its own piece. -/
def sentInPieces : List (List Call) → UInt64 → π → List (Request × Delivery)
  | [], _, _ => []
  | piece :: rest, start, p =>
      let body := batchBody (requestsFrom start piece)
      (requestsFrom start piece).map (fun r => (r, a.reply body p)) ++
        sentInPieces rest (start + UInt64.ofNat piece.length) (a.peer ⟨a.credentials, body⟩ p).2

theorem requests_of_sentInPieces (pieces : List (List Call)) (start : UInt64) (p : π) :
    (a.sentInPieces pieces start p).map Prod.fst = requestsFrom start pieces.flatten := by
  induction pieces generalizing start p with
  | nil => rfl
  | cons piece rest ih =>
      rw [sentInPieces, List.map_append, ih, List.map_map, List.flatten_cons, requestsFrom_append]
      congr 1
      exact List.map_id _

variable {a}

theorem settles_of_pieces {pieces : List (List Call)} {c : Client π} {parts : List (List Json)}
    (h : (Act.allTogether true a.batch pieces c).answer = .ok parts) :
    List.Forall₂ (fun (r, d) v => d.Settles r.id v) (a.sentInPieces pieces c.nextId c.peer)
      parts.flatten := by
  induction pieces generalizing c parts with
  | nil =>
      cases h
      exact .nil
  | cons piece rest ih =>
      rcases Act.allTogether_cons_ok_iff.mp h with ⟨part, parts, hpart, hrest, rfl⟩
      have hfirst : readBatch c.nextId piece.length
          (a.reply (batchBody (requestsFrom c.nextId piece)) c.peer) = .ok part := hpart
      refine List.rel_append ?_ (ih hrest)
      exact List.forall₂_map_left_iff.mpr (settles_of_readBatch hfirst)

theorem settles_of_batches {calls : List Call} {c : Client π} {results : List Json}
    (h : (a.batches calls c).answer = .ok results) :
    List.Forall₂ (fun (r, d) v => d.Settles r.id v)
      (a.sentInPieces (chunksOf a.chunkSize calls) c.nextId c.peer) results := by
  rcases Act.bind_succeeds_iff.mp ⟨h, rfl⟩ with ⟨parts, t, ⟨hparts, _⟩, hflat, _⟩
  cases hflat
  exact settles_of_pieces hparts

theorem length_of_batches {calls : List Call} {c : Client π} {results : List Json}
    (h : (a.batches calls c).answer = .ok results) : results.length = calls.length := by
  have hsent := congrArg List.length
    (a.requests_of_sentInPieces (chunksOf a.chunkSize calls) c.nextId c.peer)
  have hcalls := congrArg List.length (calls_of_requestsFrom c.nextId calls)
  rw [flatten_chunksOf, List.length_map] at hsent
  rw [List.length_map] at hcalls
  rw [← (settles_of_batches h).length_eq, hsent, hcalls]

/-!
# Lookups
-/

theorem length_of_labels {indices : List SubaddressIndex} {c : Client π} {labels : List String}
    (h : (a.labels indices c).answer = .ok labels) : labels.length = indices.length := by
  cases hmade : (a.batches (indices.map Call.label) c).answer with
  | ok raws =>
      rw [(labels_of_ok hmade).1] at h
      rw [Results.length_of_mapM h, length_of_batches hmade, List.length_map]
  | error e =>
      rw [(labels_of_error hmade).1] at h
      exact Act.length_of_inTurn h

end Access

theorem length_of_keepAll {π : Type} {pairs : List (RenderKey × Json)} {c : Client π}
    {addresses : List String} (h : (Client.keepAll pairs c).answer = .ok addresses) :
    addresses.length = pairs.length := by
  induction pairs generalizing c addresses with
  | nil =>
      cases h
      rfl
  | cons pair rest ih =>
      rcases pair with ⟨key, raw⟩
      rcases Act.bind_succeeds_iff.mp ⟨h, rfl⟩ with ⟨address, _, _, hkeep⟩
      rcases Act.bind_succeeds_iff.mp hkeep with ⟨_, _, _, hrest⟩
      rcases Act.bind_succeeds_iff.mp hrest with ⟨others, _, hothers, hmade, _⟩
      cases hmade
      rw [List.length_cons, List.length_cons, ih hothers.1]

theorem length_of_fillBlanks {keys : List RenderKey} {found : List (Option String)}
    {fresh : List String} (hfound : found.length = keys.length)
    (hfresh : fresh.length = (misses keys found).length) :
    (fillBlanks found fresh).length = keys.length := by
  induction found generalizing keys fresh with
  | nil => exact hfound
  | cons address found ih =>
      cases keys with
      | nil => cases hfound
      | cons key keys =>
          have hrest : found.length = keys.length := Nat.succ.inj hfound
          cases address with
          | some address =>
              rw [misses_cons_some] at hfresh
              exact congrArg Nat.succ (ih hrest hfresh)
          | none =>
              rw [misses_cons_none] at hfresh
              cases fresh with
              | nil => cases hfresh
              | cons address fresh => exact congrArg Nat.succ (ih hrest (Nat.succ.inj hfresh))

namespace Access

variable {π : Type} {a : Access π}

theorem length_of_addresses {keys : List RenderKey} {c : Client π} {addresses : List String}
    (h : (a.addresses keys c).answer = .ok addresses) : addresses.length = keys.length := by
  unfold Access.addresses at h
  rw [(Act.bind_of_ok _ (getAll_answer keys c)).1] at h
  have hfound : (keys.map c.cache.find?).length = keys.length := List.length_map _
  by_cases hnone : (misses keys (keys.map c.cache.find?)).isEmpty = true
  · rw [if_pos hnone] at h
    cases h
    exact length_of_fillBlanks hfound (by rw [List.isEmpty_iff.mp hnone]; rfl)
  · rw [if_neg hnone] at h
    rcases Act.bind_succeeds_iff.mp ⟨h, rfl⟩ with ⟨raws, _, hraws, hkeep⟩
    rcases Act.bind_succeeds_iff.mp hkeep with ⟨fresh, _, hfresh, hmade, _⟩
    cases hmade
    apply length_of_fillBlanks hfound
    have hlength := length_of_batches hraws.1
    rw [List.length_map] at hlength
    rw [length_of_keepAll hfresh.1, List.length_zip, hlength, Nat.min_self]

/-- There are always as many replies as keys, so only the engine can be to blame. -/
theorem resolveLookups_fails (l : Ledgers) :
    (a.engine.resolveLookups l).FailsOnly CoreError.IsEngine := by
  intro c e herror
  rcases Engine.resolveLookups_error_iff.mp herror with
    hlabels | ⟨labels, r, hlabels, haddresses | ⟨addresses, t, haddresses, hfit, _⟩⟩
  · exact a.labels_fails _ c e hlabels
  · exact a.addresses_fails _ r e haddresses
  · have haddresses := length_of_addresses haddresses.1
    rw [List.length_map] at haddresses
    exact absurd ⟨length_of_labels hlabels.1, haddresses⟩ hfit

end Access

/-- However a peer replies, a batch that succeeds has one result for each call, in the order of
the calls: what the last item with the id of the call says in the reply to its piece.  So
lookups have as many replies as there are keys, and a refresh never finds another number. -/
theorem replies_aligned {π : Type} (a : Access π) :
    (∀ (calls : List Call) (c : Client π) (results : List Json),
      c.nextId.toNat + calls.length < 2 ^ 64 → (a.batches calls c).answer = .ok results →
        let sent := a.sentInPieces (chunksOf a.chunkSize calls) c.nextId c.peer
        results.length = calls.length ∧
          (sent.map Prod.fst).map Request.call = calls ∧
          (sent.map Prod.fst).map (fun r => r.id.toNat) =
            List.range' c.nextId.toNat calls.length ∧
          List.Forall₂ (fun (r, d) v => d.Settles r.id v) sent results) ∧
    (∀ (indices : List SubaddressIndex) (c : Client π) (labels : List String),
      (a.engine.labels indices c).answer = .ok labels → labels.length = indices.length) ∧
    (∀ (requests : List (Destination × PaymentId)) (n : Network) (c : Client π)
        (addresses : List String),
      (a.engine.addresses requests n c).answer = .ok addresses →
        addresses.length = requests.length) ∧
    ∀ (l : Ledgers) (c : Client π) (labels labelKeys addresses addressKeys : Nat),
      (a.engine.resolveLookups l c).answer ≠
        .error (.invalidData (.lookupCount labels labelKeys addresses addressKeys)) := by
  refine ⟨?_, ?_, ?_, ?_⟩
  · intro calls c results hcounter hok sent
    have hsent : sent.map Prod.fst = requestsFrom c.nextId calls := by
      rw [Access.requests_of_sentInPieces, flatten_chunksOf]
    rw [hsent]
    exact ⟨Access.length_of_batches hok, calls_of_requestsFrom c.nextId calls,
      numbers_of_requestsFrom hcounter, Access.settles_of_batches hok⟩
  · exact fun indices c labels hok => Access.length_of_labels hok
  · intro requests n c addresses hok
    rw [Access.length_of_addresses hok, List.length_map]
  · intro l c labels labelKeys addresses addressKeys herror
    rcases Access.resolveLookups_fails l c _ herror with ⟨why, heq⟩
    cases heq

/-- A reply with the items out of order, one id given twice, one as a numeral and one for
nothing that was asked. -/
def crowded : Delivery :=
  .replied .ok "[\x7b\"id\":2,\"result\":20\x7d,\x7b\"id\":1,\"result\":10\x7d,\x7b\"id\":\"1\",\"result\":11\x7d,\x7b\"id\":9\x7d]"

def crowding : Access Unit where
  peer _ p := (crowded, p)
  credentials := none
  chunkSize := 2
  chunkSize_pos := Nat.two_pos

theorem replies_aligned_crowded :
    (crowding.batches [.height, .network] (.start () 1)).answer =
        .ok [.unsigned 11, .unsigned 20] ∧
      let sent := crowding.sentInPieces [[.height, .network]] 1 ()
      (sent.map Prod.fst).map (fun r => r.id.toNat) = [1, 2] ∧
        List.Forall₂ (fun (r, d) v => d.Settles r.id v) sent [.unsigned 11, .unsigned 20] := by
  have hread : readBatch 1 2 crowded = .ok [.unsigned 11, .unsigned 20] := by cbv
  have hpieces : chunksOf crowding.chunkSize [Call.height, Call.network] =
      [[.height, .network]] := by
    simp [chunksOf, crowding]
  have hok : (crowding.batches [.height, .network] (.start () 1)).answer =
      .ok [.unsigned 11, .unsigned 20] := by
    have hpiece : (crowding.batch [.height, .network] (.start () 1)).answer =
        .ok [.unsigned 11, .unsigned 20] := hread
    have hparts : (Act.allTogether true crowding.batch [[.height, .network]]
        (.start () 1)).answer = .ok [[.unsigned 11, .unsigned 20]] :=
      Act.allTogether_cons_ok_iff.mpr ⟨_, [], hpiece, rfl, rfl⟩
    unfold Access.batches
    rw [hpieces, (Act.bind_of_ok _ hparts).1]
    rfl
  have haligned := (replies_aligned crowding).1 _ (.start () 1) _ (by decide) hok
  rw [hpieces] at haligned
  exact ⟨hok, haligned.2.2⟩

end Rpc
end WalletLedger
