import WalletLedger.Proofs.Act
import WalletLedger.Rpc.Client

/-!
# Calls that are answered

A batch is cut into pieces, every call gets an id, and the items of a reply come in any
order.  As long as a peer answers every call, none of this shows: a list of calls has the
results that the calls would have one by one.
-/

namespace WalletLedger
namespace Rpc

/-!
# Pieces
-/

section Pieces

variable {α : Type} {size : Nat}

theorem flatten_chunksOf (xs : List α) : (chunksOf size xs).flatten = xs := by
  induction xs using chunksOf.induct size with
  | case1 => simp [chunksOf]
  | case2 x rest ih =>
      rw [chunksOf, List.flatten_cons, ih, List.cons_append, List.take_append_drop]

theorem ne_nil_of_mem_chunksOf {xs chunk : List α} (h : chunk ∈ chunksOf size xs) :
    chunk ≠ [] := by
  induction xs using chunksOf.induct size with
  | case1 => simp [chunksOf] at h
  | case2 x rest ih =>
      rw [chunksOf] at h
      rcases List.mem_cons.mp h with rfl | h
      · exact List.cons_ne_nil _ _
      · exact ih h

theorem length_le_of_mem_chunksOf (hsize : 0 < size) {xs chunk : List α}
    (h : chunk ∈ chunksOf size xs) : chunk.length ≤ size := by
  induction xs using chunksOf.induct size with
  | case1 => simp [chunksOf] at h
  | case2 x rest ih =>
      rw [chunksOf] at h
      rcases List.mem_cons.mp h with rfl | h
      · have hle := List.length_take_le (size - 1) rest
        rw [List.length_cons]
        omega
      · exact ih h

theorem mem_of_mem_chunksOf {xs chunk : List α}
    (h : chunk ∈ chunksOf size xs) {x : α} (hx : x ∈ chunk) : x ∈ xs := by
  rw [← @flatten_chunksOf α size xs]
  exact List.mem_flatten.mpr ⟨chunk, h, hx⟩

theorem length_chunksOf (hsize : 0 < size) (xs : List α) :
    (chunksOf size xs).length = (xs.length + size - 1) / size := by
  induction xs using chunksOf.induct size with
  | case1 =>
      have hlt : 0 + size - 1 < size := by omega
      rw [chunksOf]
      exact (Nat.div_eq_of_lt hlt).symm
  | case2 x rest ih =>
      rw [chunksOf, List.length_cons, ih, List.length_drop, List.length_cons,
        show rest.length + 1 + size - 1 = rest.length + size by omega,
        Nat.add_div_right rest.length hsize]
      congr 1
      by_cases hshort : rest.length < size
      · rw [Nat.div_eq_of_lt hshort, Nat.div_eq_of_lt (by omega)]
      · rw [show rest.length - (size - 1) + size - 1 = rest.length by omega]

end Pieces

theorem mapM_flatten {ε α β : Type} (f : α → Except ε β) (chunks : List (List α)) :
    (do let parts ← chunks.mapM (·.mapM f)
        pure parts.flatten) = chunks.flatten.mapM f := by
  induction chunks with
  | nil => rfl
  | cons chunk chunks ih =>
      rw [List.flatten_cons, List.mapM_append, ← ih, List.mapM_cons]
      simp only [bind_assoc, pure_bind, List.flatten_cons]

/-!
# Ids
-/

theorem calls_of_requestsFrom (start : UInt64) (calls : List Call) :
    (requestsFrom start calls).map Request.call = calls := by
  induction calls generalizing start with
  | nil => rfl
  | cons call rest ih => exact congrArg (call :: ·) (ih (start + 1))

theorem ids_of_requestsFrom (start : UInt64) (calls : List Call) :
    (requestsFrom start calls).map Request.id =
      (List.range calls.length).map fun k => start + UInt64.ofNat k := by
  induction calls generalizing start with
  | nil => rfl
  | cons call rest ih =>
      rw [List.length_cons, List.range_succ_eq_map, List.map_cons, List.map_map]
      change start :: (requestsFrom (start + 1) rest).map Request.id = _
      rw [ih]
      congr 1
      · simp
      · apply List.map_congr_left
        intro k _
        simp only [Function.comp_apply, Nat.succ_eq_add_one, UInt64.ofNat_add]
        rw [UInt64.add_assoc, UInt64.add_comm 1]
        rfl

/-- As long as the counter does not wrap around, ids are numbers one after another. -/
theorem toNat_of_counted {first : UInt64} {count : Nat} (h : first.toNat + count ≤ 2 ^ 64) :
    ((List.range count).map fun k => first + UInt64.ofNat k).map UInt64.toNat =
      List.range' first.toNat count := by
  rw [List.map_map, List.range'_eq_map_range]
  apply List.map_congr_left
  intro k hk
  have hk := List.mem_range.mp hk
  simp only [Function.comp_apply, UInt64.toNat_add, UInt64.toNat_ofNat']
  omega

/-- The counter wraps around, but not within one batch. -/
theorem nodup_ids_of_requestsFrom (start : UInt64) {calls : List Call}
    (h : calls.length ≤ 2 ^ 64) : ((requestsFrom start calls).map Request.id).Nodup := by
  rw [ids_of_requestsFrom]
  refine List.Nodup.map_on ?_ List.nodup_range
  intro i hi j hj heq
  have hi := List.mem_range.mp hi
  have hj := List.mem_range.mp hj
  have hnat := congrArg UInt64.toNat heq
  simp only [UInt64.toNat_add, UInt64.toNat_ofNat'] at hnat
  omega

/-!
# Replies

`answer` is what a peer answers each call with, whatever its state.
-/

/-- The items of a reply answer the calls of a batch, each once and in any order. -/
def CarriesItems (answer : Call → Except CoreError Json) (start : UInt64) (calls : List Call)
    (d : Delivery) : Prop :=
  ∃ items pairs, decodeReply (.list Response.codec) "JSON-RPC batch response" d = .ok items ∧
    identified items = .ok pairs ∧
    (pairs.map fun (id, item) => (id, item.outcome)).Perm
      ((requestsFrom start calls).map fun r => (r.id, answer r.call))

theorem CarriesItems.congr {answer answer' : Call → Except CoreError Json} {start : UInt64}
    {calls : List Call} {d : Delivery} (h : CarriesItems answer start calls d)
    (hsame : ∀ call ∈ calls, answer call = answer' call) :
    CarriesItems answer' start calls d := by
  rcases h with ⟨items, pairs, hitems, hpairs, hperm⟩
  refine ⟨items, pairs, hitems, hpairs, ?_⟩
  rw [← calls_of_requestsFrom start calls] at hsame
  have hrequests : (requestsFrom start calls).map (fun r => (r.id, answer r.call)) =
      (requestsFrom start calls).map fun r => (r.id, answer' r.call) :=
    List.map_congr_left fun r hr =>
      congrArg (Prod.mk r.id) (hsame r.call (List.mem_map_of_mem hr))
  rw [← hrequests]
  exact hperm

theorem readBatch_of_carriesItems {answer : Call → Except CoreError Json} {start : UInt64}
    {calls : List Call} {d : Delivery} (hlength : calls.length ≤ 2 ^ 64)
    (h : CarriesItems answer start calls d) :
    readBatch start calls.length d = calls.mapM answer := by
  rcases h with ⟨items, pairs, hitems, hpairs, hperm⟩
  -- The ids of the items are those of the requests, so no two items share one.
  have hnodup : (pairs.reverse.map Prod.fst).Nodup := by
    have hids := (hperm.map Prod.fst).nodup_iff
    rw [List.map_map, List.map_map] at hids
    rw [List.map_reverse, List.nodup_reverse]
    exact hids.mpr (nodup_ids_of_requestsFrom start hlength)
  have hresult : ∀ r ∈ requestsFrom start calls,
      resultFor pairs.reverse r.id = answer r.call := by
    intro r hr
    have hmem := hperm.mem_iff.mpr (List.mem_map_of_mem hr)
    rcases List.mem_map.mp hmem with ⟨⟨id, item⟩, hpair, heq⟩
    have hid : id = r.id := congrArg Prod.fst heq
    have houtcome : item.outcome = answer r.call := congrArg Prod.snd heq
    unfold resultFor
    rw [← hid, Results.lookup_of_mem hnodup (List.mem_reverse.mpr hpair)]
    exact houtcome
  calc readBatch start calls.length d
      = ((List.range calls.length).map fun k => start + UInt64.ofNat k).mapM
          (resultFor pairs.reverse) := by
        unfold readBatch
        rw [hitems]
        change settle items start calls.length = _
        unfold settle
        rw [hpairs, List.mapM_map]
        rfl
    _ = (requestsFrom start calls).mapM fun r => resultFor pairs.reverse r.id := by
        rw [← ids_of_requestsFrom, List.mapM_map]
        rfl
    _ = (requestsFrom start calls).mapM fun r => answer r.call :=
        Results.mapM_congr hresult
    _ = calls.mapM answer := by
        conv_rhs => rw [← calls_of_requestsFrom start calls, List.mapM_map]
        rfl

namespace Access

variable {π : Type} (a : Access π) {kind : Call → Prop} {answer : Call → Except CoreError Json}

def reply (body : String) (p : π) : Delivery :=
  (a.peer ⟨a.credentials, body⟩ p).1

def AnswersAlone (kind : Call → Prop) (answer : Call → Except CoreError Json) : Prop :=
  ∀ call, kind call → ∀ id p, readSingle (a.reply (Request.body ⟨id, call⟩) p) = answer call

def AnswersTogether (kind : Call → Prop) (answer : Call → Except CoreError Json) : Prop :=
  ∀ calls, calls ≠ [] → (∀ call ∈ calls, kind call) →
    ∀ start p, CarriesItems answer start calls (a.reply (batchBody (requestsFrom start calls)) p)

/-- Every batch of calls of the kind is answered unless it fails as a whole. -/
def AnswersOrFails (kind : Call → Prop) (answer : Call → Except CoreError Json) : Prop :=
  ∀ calls, calls ≠ [] → (∀ call ∈ calls, kind call) → ∀ start p,
    CarriesItems answer start calls (a.reply (batchBody (requestsFrom start calls)) p) ∨
      ∃ e, readBatch start calls.length (a.reply (batchBody (requestsFrom start calls)) p) =
        .error e

end Access

/-!
# Exchanges

No exchange looks at the cache or changes it.
-/

def Client.Caches {π : Type} (P : AddressCache → Prop) (c : Client π) : Prop :=
  P c.cache

namespace Access

variable {π : Type} (a : Access π) {kind : Call → Prop} {answer : Call → Except CoreError Json}
  {P : AddressCache → Prop}

theorem single_keeps (call : Call) : (a.single call).Keeps (Client.Caches P) :=
  fun _ hc => hc

theorem batch_keeps (calls : List Call) : (a.batch calls).Keeps (Client.Caches P) :=
  fun _ hc => hc

theorem batches_keeps (calls : List Call) : (a.batches calls).Keeps (Client.Caches P) :=
  Act.Keeps.bind (Act.Keeps.allTogether fun chunk _ => a.batch_keeps chunk)
    fun parts => Act.Keeps.pure parts.flatten

theorem ask_keeps {α : Type} (codec : Json.Codec α) (call : Call) :
    (a.ask codec call).Keeps (Client.Caches P) :=
  Act.Keeps.bind (a.single_keeps call) fun _ => Act.Keeps.ofExcept _

variable {a}

theorem single_yields (halone : a.AnswersAlone kind answer) {call : Call} (h : kind call) :
    (a.single call).Yields (Client.Caches P) (answer call) :=
  fun c hc => ⟨halone call h c.nextId c.peer, hc⟩

theorem ask_yields {α : Type} (halone : a.AnswersAlone kind answer) {call : Call} (h : kind call)
    (codec : Json.Codec α) :
    (a.ask codec call).Yields (Client.Caches P)
      (answer call >>= decodeResult codec call.method) :=
  Act.Yields.bind (single_yields halone h) fun _ _ => Act.Yields.ofExcept _

theorem batch_yields (htogether : a.AnswersTogether kind answer) {calls : List Call}
    (hne : calls ≠ []) (hlength : calls.length ≤ 2 ^ 64) (h : ∀ call ∈ calls, kind call) :
    (a.batch calls).Yields (Client.Caches P) (calls.mapM answer) :=
  fun c hc =>
    ⟨readBatch_of_carriesItems hlength (htogether calls hne h c.nextId c.peer), hc⟩

theorem batches_yields (htogether : a.AnswersTogether kind answer) (hsize : a.chunkSize < 2 ^ 64)
    {calls : List Call} (h : ∀ call ∈ calls, kind call) :
    (a.batches calls).Yields (Client.Caches P) (calls.mapM answer) := by
  have hall : (Act.allTogether true a.batch (chunksOf a.chunkSize calls)).Yields
      (Client.Caches P) ((chunksOf a.chunkSize calls).mapM (·.mapM answer)) := by
    apply Act.Yields.allTogether
    intro chunk hchunk
    have hle := length_le_of_mem_chunksOf a.chunkSize_pos hchunk
    apply batch_yields htogether (ne_nil_of_mem_chunksOf hchunk) (by omega)
    intro call hcall
    exact h call (mem_of_mem_chunksOf hchunk hcall)
  rw [← @flatten_chunksOf _ a.chunkSize calls, ← mapM_flatten,
    @flatten_chunksOf _ a.chunkSize calls]
  exact Act.Yields.bind hall fun parts _ => Act.Yields.pure parts.flatten

theorem batches_of_ok (hfails : a.AnswersOrFails kind answer) (hsize : a.chunkSize < 2 ^ 64)
    {calls : List Call} (h : ∀ call ∈ calls, kind call) {c : Client π} {raws : List Json}
    (hok : (a.batches calls c).answer = .ok raws) : calls.mapM answer = .ok raws := by
  have hchunk : ∀ chunk ∈ chunksOf a.chunkSize calls, ∀ c parts,
      (a.batch chunk c).answer = .ok parts → chunk.mapM answer = .ok parts := by
    intro chunk hchunk c parts hparts
    have hle := length_le_of_mem_chunksOf a.chunkSize_pos hchunk
    have hkind : ∀ call ∈ chunk, kind call := fun call hcall =>
      h call (mem_of_mem_chunksOf hchunk hcall)
    have hreply := hfails chunk (ne_nil_of_mem_chunksOf hchunk) hkind c.nextId c.peer
    change readBatch c.nextId chunk.length _ = .ok parts at hparts
    rcases hreply with hcarries | ⟨e, herror⟩
    · rw [← readBatch_of_carriesItems (by omega) hcarries]
      exact hparts
    · exact absurd (herror.symm.trans hparts) nofun
  rcases Act.bind_succeeds_iff.mp ⟨hok, rfl⟩ with ⟨parts, t, ⟨hparts, _⟩, hflat, _⟩
  cases hflat
  have hall := Act.allTogether_of_ok hchunk hparts
  rw [← @flatten_chunksOf _ a.chunkSize calls, ← mapM_flatten]
  exact Results.bind_eq_ok_iff.mpr ⟨parts, hall, rfl⟩

end Access
end Rpc
end WalletLedger
