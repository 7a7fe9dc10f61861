import WalletLedger.Proofs.Json.Provenance
import WalletLedger.Proofs.Rpc.Alignment

/-!
# Outcomes of a batch

Several things may be wrong with a reply to a batch at once.  What comes of it depends on
what the items say about each id that was sent, and not on their order or on items for
other ids.  Only an item whose id cannot be read counts before all that.
-/

namespace WalletLedger
namespace Rpc

/-!
# What items say
-/

def Delivery.Lists (d : Delivery) (items : List Response) : Prop :=
  decodeReply (.list Response.codec) "JSON-RPC batch response" d = .ok items

/-- The id does not belong to both of two items. -/
def Apart (id : UInt64) (r s : Response) : Prop :=
  ¬ (r.CarriesId id ∧ s.CarriesId id)

theorem Apart.symm {id : UInt64} {r s : Response} (h : Apart id r s) : Apart id s r :=
  fun hboth => h hboth.symm

instance {id : UInt64} : Std.Symm (Apart id) :=
  ⟨fun _ _ => Apart.symm⟩

/-- Every item has an id, and no two of them have the same of those that were sent. -/
structure Clear (ids : List UInt64) (items : List Response) : Prop where
  numbered : ∀ item ∈ items, ∃ id, item.CarriesId id
  single : ∀ id ∈ ids, items.Pairwise (Apart id)

def Stray (ids : List UInt64) (item : Response) : Prop :=
  ∃ id, item.CarriesId id ∧ id ∉ ids

theorem Stray.not_carriesId {ids : List UInt64} {item : Response} (h : Stray ids item)
    {id : UInt64} (hid : id ∈ ids) : ¬ item.CarriesId id := by
  intro hcarries
  rcases h with ⟨own, hown, hstray⟩
  exact hstray (hown.unique hcarries ▸ hid)

/-- What some item says about an id, or that no item has it. -/
inductive Says (items : List Response) (id : UInt64) : Except CoreError Json → Prop where
  | result {item : Response} : item ∈ items → item.CarriesId id → item.error = none →
      Says items id (.ok (item.result.getD .null))
  | failure {item : Response} {error : Json} : item ∈ items → item.CarriesId id →
      item.error = some error → Says items id (.error (errorOf error))
  | missing : (∀ item ∈ items, ¬ item.CarriesId id) →
      Says items id (.error (.engine (.missingItem id)))

theorem Says.of_item {items : List Response} {id : UInt64} {item : Response}
    (hmem : item ∈ items) (hid : item.CarriesId id) : Says items id item.outcome := by
  unfold Response.outcome
  cases herror : item.error with
  | none => exact .result hmem hid herror
  | some error => exact .failure hmem hid herror

theorem Says.outcome_or_missing {items : List Response} {id : UInt64} {r : Except CoreError Json}
    (h : Says items id r) :
    (∃ item ∈ items, item.CarriesId id ∧ r = item.outcome) ∨
      (∀ item ∈ items, ¬ item.CarriesId id) ∧ r = .error (.engine (.missingItem id)) := by
  cases h with
  | result hmem hid herror =>
      exact .inl ⟨_, hmem, hid, by rw [Response.outcome, herror]⟩
  | failure hmem hid herror =>
      exact .inl ⟨_, hmem, hid, by rw [Response.outcome, herror]⟩
  | missing hnone => exact .inr ⟨hnone, rfl⟩

theorem says_ok_iff {items : List Response} {id : UInt64} :
    (∃ v, Says items id (.ok v)) ↔ ∃ item ∈ items, item.CarriesId id ∧ item.error = none := by
  constructor
  · intro h
    rcases h with ⟨v, h⟩
    cases h with
    | result hmem hid herror => exact ⟨_, hmem, hid, herror⟩
  · intro h
    rcases h with ⟨item, hmem, hid, herror⟩
    exact ⟨_, .result hmem hid herror⟩

/-- Two lists of items say the same about an id that the same items of both have. -/
theorem Says.congr {items items' : List Response} {id : UInt64} {r : Except CoreError Json}
    (hsame : ∀ item, item.CarriesId id → (item ∈ items ↔ item ∈ items')) (h : Says items id r) :
    Says items' id r := by
  cases h with
  | result hmem hid herror => exact .result ((hsame _ hid).mp hmem) hid herror
  | failure hmem hid herror => exact .failure ((hsame _ hid).mp hmem) hid herror
  | missing hnone =>
      exact .missing fun item hmem hid => hnone item ((hsame item hid).mpr hmem) hid

namespace Clear

variable {ids : List UInt64} {items items' : List Response} {id : UInt64}

theorem of_nodup {pairs : List (UInt64 × Response)} (hpairs : identified items = .ok pairs)
    (hnodup : (pairs.map Prod.fst).Nodup) : Clear ids items := by
  rcases identified_eq_ok hpairs with ⟨rfl, hcarries⟩
  constructor
  · intro item hitem
    rcases List.mem_map.mp hitem with ⟨p, hp, rfl⟩
    exact ⟨p.1, hcarries p hp⟩
  · intro id _
    refine List.pairwise_map.mpr ((List.pairwise_map.mp hnodup).imp_of_mem ?_)
    intro p q hp hq hne hboth
    exact hne (((hcarries p hp).unique hboth.1).trans ((hcarries q hq).unique hboth.2).symm)

theorem eq_of_carriesId (h : Clear ids items) (hid : id ∈ ids) {r s : Response} (hr : r ∈ items)
    (hs : s ∈ items) (hrid : r.CarriesId id) (hsid : s.CarriesId id) : r = s := by
  by_contra hne
  exact (h.single id hid).forall hr hs hne ⟨hrid, hsid⟩

theorem says_unique (h : Clear ids items) (hid : id ∈ ids) {r s : Except CoreError Json}
    (hr : Says items id r) (hs : Says items id s) : r = s := by
  rcases hr.outcome_or_missing with ⟨x, hx, hxid, rfl⟩ | ⟨hnone, rfl⟩
  · rcases hs.outcome_or_missing with ⟨y, hy, hyid, rfl⟩ | ⟨hnone, _⟩
    · rw [h.eq_of_carriesId hid hx hy hxid hyid]
    · exact absurd hxid (hnone x hx)
  · rcases hs.outcome_or_missing with ⟨y, hy, hyid, rfl⟩ | ⟨_, rfl⟩
    · exact absurd hyid (hnone y hy)
    · rfl

section Strays

variable {added removed : List Response}

/-- With strays taken away and others put in, in any order, the items are still clear. -/
theorem of_perm (h : Clear ids items) (hadded : ∀ item ∈ added, Stray ids item)
    (hperm : (items' ++ removed).Perm (items ++ added)) : Clear ids items' where
  numbered item hitem := by
    have hmem : item ∈ items ++ added := hperm.mem_iff.mp (List.mem_append_left removed hitem)
    rcases List.mem_append.mp hmem with hmem | hmem
    · exact h.numbered item hmem
    · rcases hadded item hmem with ⟨id, hid, _⟩
      exact ⟨id, hid⟩
  single id hid := by
    have hall : (items ++ added).Pairwise (Apart id) := by
      have hstray : ∀ item ∈ added, ¬ item.CarriesId id := fun item hitem =>
        (hadded item hitem).not_carriesId hid
      rw [List.pairwise_append]
      refine ⟨h.single id hid, ?_, ?_⟩
      · exact List.pairwise_of_forall_mem_list fun r hr _ _ hboth => hstray r hr hboth.1
      · exact fun _ _ s hs hboth => hstray s hs hboth.2
    exact (List.pairwise_append.mp ((hperm.pairwise_iff Apart.symm).mpr hall)).1

theorem mem_iff_of_perm (hadded : ∀ item ∈ added, Stray ids item)
    (hremoved : ∀ item ∈ removed, Stray ids item)
    (hperm : (items' ++ removed).Perm (items ++ added)) (hid : id ∈ ids) {item : Response}
    (hcarries : item.CarriesId id) : item ∈ items ↔ item ∈ items' := by
  have hmem := hperm.mem_iff (a := item)
  rw [List.mem_append, List.mem_append] at hmem
  constructor
  · intro hitem
    rcases hmem.mpr (.inl hitem) with hitem | hitem
    · exact hitem
    · exact absurd hcarries ((hremoved item hitem).not_carriesId hid)
  · intro hitem
    rcases hmem.mp (.inl hitem) with hitem | hitem
    · exact hitem
    · exact absurd hcarries ((hadded item hitem).not_carriesId hid)

end Strays

end Clear

/-!
# Settling
-/

section Settling

variable {start : UInt64} {count : Nat} {items items' : List Response}

def idsFrom (start : UInt64) (count : Nat) : List UInt64 :=
  (List.range count).map fun k => start + UInt64.ofNat k

theorem says_resultFor {pairs : List (UInt64 × Response)} (hpairs : identified items = .ok pairs)
    (id : UInt64) : Says items id (resultFor pairs.reverse id) := by
  unfold resultFor
  cases hlookup : pairs.reverse.lookup id with
  | some item =>
      rcases lastFor_of_lookup hpairs hlookup with ⟨before, after, hsplit, hid, _⟩
      exact .of_item (hsplit ▸ List.mem_append_right before List.mem_cons_self) hid
  | none =>
      refine .missing ?_
      intro item hitem hid
      rw [List.lookup_eq_none_iff] at hlookup
      rw [(identified_eq_ok hpairs).1] at hitem
      rcases List.mem_map.mp hitem with ⟨p, hp, rfl⟩
      have hown := (identified_eq_ok hpairs).2 p hp
      have hne := hlookup p (List.mem_reverse.mpr hp)
      exact absurd (hid.unique hown) (bne_iff_ne.mp hne)

theorem Clear.identified_ok {ids : List UInt64} (h : Clear ids items) :
    ∃ pairs, identified items = .ok pairs := by
  apply Results.exists_mapM_of_exists_ok
  intro item hitem
  rcases h.numbered item hitem with ⟨id, hid⟩
  exact ⟨(id, item), Results.bind_eq_ok_iff.mpr ⟨id, itemId_eq_ok_iff.mpr hid, rfl⟩⟩

/-- What is said about each id is what counts for it. -/
theorem Clear.settle_eq (h : Clear (idsFrom start count) items) :
    ∃ said : UInt64 → Except CoreError Json,
      settle items start count = (idsFrom start count).mapM said ∧
        ∀ id ∈ idsFrom start count, ∀ r, said id = r ↔ Says items id r := by
  rcases h.identified_ok with ⟨pairs, hpairs⟩
  refine ⟨resultFor pairs.reverse, ?_, ?_⟩
  · unfold settle idsFrom
    rw [hpairs, List.mapM_map]
    rfl
  · intro id hid r
    constructor
    · intro hr
      exact hr ▸ says_resultFor hpairs id
    · intro hr
      exact h.says_unique hid (says_resultFor hpairs id) hr

theorem Clear.settle_ok_iff (h : Clear (idsFrom start count) items) {results : List Json} :
    settle items start count = .ok results ↔
      List.Forall₂ (fun id v => Says items id (.ok v)) (idsFrom start count) results := by
  rcases h.settle_eq with ⟨said, hsettle, hsaid⟩
  rw [hsettle, Results.mapM_eq_ok_iff]
  constructor
  · intro hall
    exact ((List.forall₂_and_left _ _).mpr ⟨fun _ hid => hid, hall⟩).imp
      fun id v hv => (hsaid id hv.1 _).mp hv.2
  · intro hall
    exact ((List.forall₂_and_left _ _).mpr ⟨fun _ hid => hid, hall⟩).imp
      fun id v hv => (hsaid id hv.1 _).mpr hv.2

theorem Clear.settle_succeeds_iff (h : Clear (idsFrom start count) items) :
    (∃ results, settle items start count = .ok results) ↔
      ∀ id ∈ idsFrom start count, ∃ item ∈ items, item.CarriesId id ∧ item.error = none := by
  rcases h.settle_eq with ⟨said, hsettle, hsaid⟩
  rw [hsettle]
  constructor
  · intro hok id hid
    rcases hok with ⟨results, hok⟩
    rcases Results.exists_ok_of_mapM hok id hid with ⟨v, hv⟩
    exact says_ok_iff.mp ⟨v, (hsaid id hid _).mp hv⟩
  · intro hall
    apply Results.exists_mapM_of_exists_ok
    intro id hid
    rcases says_ok_iff.mpr (hall id hid) with ⟨v, hv⟩
    exact ⟨v, (hsaid id hid _).mpr hv⟩

theorem Clear.settle_error_iff (h : Clear (idsFrom start count) items) {e : CoreError} :
    settle items start count = .error e ↔
      ∃ before id after, idsFrom start count = before ++ id :: after ∧
        (∀ earlier ∈ before, ∃ v, Says items earlier (.ok v)) ∧ Says items id (.error e) := by
  rcases h.settle_eq with ⟨said, hsettle, hsaid⟩
  rw [hsettle, Results.mapM_eq_error_iff]
  refine exists_congr fun before => exists_congr fun id => exists_congr fun after => ?_
  refine and_congr_right fun hsplit => and_congr ?_ ?_
  · refine forall_congr' fun earlier => imp_congr_right fun hearlier => exists_congr fun v => ?_
    exact hsaid earlier (hsplit ▸ List.mem_append_left _ hearlier) _
  · exact hsaid id (hsplit ▸ List.mem_append_right before List.mem_cons_self) _

theorem Clear.settle_congr (h : Clear (idsFrom start count) items)
    (h' : Clear (idsFrom start count) items')
    (hsame : ∀ id ∈ idsFrom start count, ∀ item, item.CarriesId id →
      (item ∈ items ↔ item ∈ items')) :
    settle items start count = settle items' start count := by
  rcases h.settle_eq with ⟨said, hsettle, hsaid⟩
  rcases h'.settle_eq with ⟨said', hsettle', hsaid'⟩
  rw [hsettle, hsettle']
  apply Results.mapM_congr
  intro id hid
  exact (hsaid' id hid _).mpr (((hsaid id hid _).mp rfl).congr (hsame id hid)) |>.symm

theorem itemId_unreadable {r : Response} (h : ∀ id, ¬ r.CarriesId id) :
    ∃ why, itemId r.id = .error (.engine (.invalidResponse why)) := by
  cases hid : itemId r.id with
  | ok id => exact absurd (itemId_eq_ok_iff.mp hid) (h id)
  | error e =>
      unfold itemId at hid
      split at hid
      · cases hid
      · split at hid
        · cases hid
        · cases hid
          exact ⟨_, rfl⟩
      · cases hid
        exact ⟨_, rfl⟩

/-- Nothing else about the items matters once one of the ids cannot be read. -/
theorem settle_of_unreadable {before after : List Response} {bad : Response} {e : CoreError}
    (hbefore : ∀ item ∈ before, ∃ id, item.CarriesId id) (hbad : itemId bad.id = .error e) :
    settle (before ++ bad :: after) start count = .error e := by
  have hidentified : identified (before ++ bad :: after) = .error e := by
    refine Results.mapM_eq_error_iff.mpr ⟨before, bad, after, rfl, ?_, ?_⟩
    · intro item hitem
      rcases hbefore item hitem with ⟨id, hid⟩
      exact ⟨(id, item), Results.bind_eq_ok_iff.mpr ⟨id, itemId_eq_ok_iff.mpr hid, rfl⟩⟩
    · rw [hbad]
      rfl
  unfold settle
  rw [hidentified]
  rfl

end Settling

/-!
# Batches
-/

theorem Delivery.Lists.error_ne_null {d : Delivery} {items : List Response} (h : d.Lists items)
    {item : Response} (hitem : item ∈ items) : item.error ≠ some .null := by
  have hread : (Json.Codec.list Response.codec).CanRead items := by
    cases d with
    | failed reason => cases h
    | replied status body =>
        unfold Lists decodeReply at h
        cases hdecode : (Json.Codec.list Response.codec).decode body with
        | ok read =>
            simp only [hdecode] at h
            cases h
            exact Json.Codec.canRead_decode hdecode
        | error why =>
            simp only [hdecode] at h
            split at h <;> cases h
  rcases Json.Codec.canRead_record (Json.Codec.canRead_list hread item hitem) with
    ⟨⟨id, result, error, _⟩, ⟨_, _, herror, _⟩, rfl⟩
  intro hnull
  change error = some .null at hnull
  subst hnull
  rcases herror with herror | herror | herror
  · exact Json.Codec.not_canRead_some_null herror
  · cases herror
  · cases herror

namespace Access

variable {π : Type}

theorem batch_of_lists {a : Access π} {calls : List Call} {c : Client π} {items : List Response}
    (h : (a.reply (batchBody (requestsFrom c.nextId calls)) c.peer).Lists items) :
    (a.batch calls c).answer = settle items c.nextId calls.length := by
  change readBatch c.nextId calls.length
    (a.reply (batchBody (requestsFrom c.nextId calls)) c.peer) = _
  unfold readBatch
  rw [h]
  rfl

end Access

/-- When the ids of all items can be read and no two items share one that was sent, a batch
succeeds if there is an item without an error for each of its ids, and otherwise fails with
what is wrong about the first id that fails.  The order of the items and items with other ids
make no difference.  When the id of an item cannot be read, the first such item decides. -/
theorem batch_outcome {π : Type} (a : Access π) (calls : List Call) (c : Client π)
    (items : List Response) (hcounter : c.nextId.toNat + calls.length < 2 ^ 64)
    (hitems : (a.reply (batchBody (requestsFrom c.nextId calls)) c.peer).Lists items) :
    let sent := requestsFrom c.nextId calls
    let ids := sent.map Request.id
    let answer := (a.batch calls c).answer
    sent.map Request.call = calls ∧
      ids.map UInt64.toNat = List.range' c.nextId.toNat calls.length ∧
      (∀ item ∈ items, item.error ≠ some .null) ∧
      (Clear ids items →
        ((∃ results, answer = .ok results) ↔
          ∀ id ∈ ids, ∃ item ∈ items, item.CarriesId id ∧ item.error = none) ∧
        (∀ results, answer = .ok results ↔
          List.Forall₂ (fun id v => Says items id (.ok v)) ids results) ∧
        (∀ e, answer = .error e ↔ ∃ before id after, ids = before ++ id :: after ∧
          (∀ earlier ∈ before, ∃ v, Says items earlier (.ok v)) ∧ Says items id (.error e)) ∧
        ∀ {ρ : Type} (b : Access ρ) (d : Client ρ) (items' added removed : List Response),
          d.nextId = c.nextId → (b.reply (batchBody sent) d.peer).Lists items' →
            (∀ item ∈ added ++ removed, Stray ids item) →
              (items' ++ removed).Perm (items ++ added) → (b.batch calls d).answer = answer) ∧
      ∀ before bad after, items = before ++ bad :: after →
        (∀ item ∈ before, ∃ id, item.CarriesId id) → (∀ id, ¬ bad.CarriesId id) →
          ∃ why, itemId bad.id = .error (.engine (.invalidResponse why)) ∧
            answer = .error (.engine (.invalidResponse why)) := by
  intro sent ids answer
  have hids : ids = idsFrom c.nextId calls.length := ids_of_requestsFrom c.nextId calls
  have hanswer : answer = settle items c.nextId calls.length := Access.batch_of_lists hitems
  refine ⟨calls_of_requestsFrom c.nextId calls, ?_, fun _ => hitems.error_ne_null, ?_, ?_⟩
  · rw [hids]
    exact toNat_of_counted hcounter.le
  · intro hclear
    rw [hids] at hclear ⊢
    rw [hanswer]
    refine ⟨hclear.settle_succeeds_iff, fun _ => hclear.settle_ok_iff,
      fun _ => hclear.settle_error_iff, ?_⟩
    intro ρ b d items' added removed hnext hitems' hstray hperm
    have hadded : ∀ item ∈ added, Stray (idsFrom c.nextId calls.length) item :=
      fun item hitem => hstray item (List.mem_append_left _ hitem)
    have hremoved : ∀ item ∈ removed, Stray (idsFrom c.nextId calls.length) item :=
      fun item hitem => hstray item (List.mem_append_right _ hitem)
    have hsent : sent = requestsFrom d.nextId calls := by rw [hnext]
    rw [hsent] at hitems'
    rw [Access.batch_of_lists hitems', hnext]
    exact ((hclear.settle_congr (hclear.of_perm hadded hperm)) fun id hid item hcarries =>
      Clear.mem_iff_of_perm hadded hremoved hperm hid hcarries).symm
  · intro before bad after hsplit hbefore hbad
    rcases itemId_unreadable hbad with ⟨why, hwhy⟩
    refine ⟨why, hwhy, ?_⟩
    rw [hanswer, hsplit]
    exact settle_of_unreadable hbefore hwhy

/-- A reply with the items out of order, one of them with an error and one a stray. -/
def mixed : Delivery :=
  .replied .ok "[\x7b\"id\":\"2\",\"error\":\x7b\"code\":-1,\"message\":\"locked\"\x7d\x7d,\x7b\"id\":9\x7d,\x7b\"id\":1,\"result\":10,\"error\":null\x7d]"

def tidied : Delivery :=
  .replied .ok "[\x7b\"id\":1,\"result\":10\x7d,\x7b\"id\":\"2\",\"error\":\x7b\"code\":-1,\"message\":\"locked\"\x7d\x7d]"

def firstItem : Response := ⟨.unsigned 1, some (.unsigned 10), none⟩

def secondItem : Response :=
  ⟨.string "2", none, some (.object [("code", .negative (-1)), ("message", .string "locked")])⟩

def strayItem : Response := ⟨.unsigned 9, none, none⟩

def replying (d : Delivery) : Access Unit where
  peer _ p := (d, p)
  credentials := none
  chunkSize := 2
  chunkSize_pos := Nat.two_pos

theorem batch_outcome_mixed :
    let items := [secondItem, strayItem, firstItem]
    mixed.Lists items ∧ Clear [1, 2] items ∧
      ((replying mixed).batch [.height, .network] (.start () 1)).answer =
        .error (.engine (.server (-1) "locked")) ∧
      ((replying tidied).batch [.height, .network] (.start () 1)).answer =
        ((replying mixed).batch [.height, .network] (.start () 1)).answer := by
  intro items
  have hitems : mixed.Lists items := by
    unfold Delivery.Lists
    cbv
  have htidied : tidied.Lists [firstItem, secondItem] := by
    unfold Delivery.Lists
    cbv
  have hidentified : identified items = .ok ([2, 9, 1].zip items) := by cbv
  have hclear : Clear [1, 2] items := .of_nodup hidentified (by decide)
  have hclearly := (batch_outcome (replying mixed) [.height, .network] (.start () 1) items
    (by decide) hitems).2.2.2.1 hclear
  refine ⟨hitems, hclear, ?_, ?_⟩
  · have hmem : firstItem ∈ items :=
      List.mem_cons_of_mem _ (List.mem_cons_of_mem _ List.mem_cons_self)
    have hfirst : Says items 1 (.ok (firstItem.result.getD .null)) :=
      .result hmem (.inl rfl) rfl
    have hlocked : errorOf (.object [("code", .negative (-1)), ("message", .string "locked")]) =
        .engine (.server (-1) "locked") := by cbv
    have hsecond : Says items 2 (.error (.engine (.server (-1) "locked"))) := by
      rw [← hlocked]
      exact .failure List.mem_cons_self (.inr ⟨"2", 2, rfl, by cbv, rfl⟩) rfl
    refine (hclearly.2.2.1 _).mpr ⟨[1], 2, [], rfl, ?_, hsecond⟩
    intro id hid
    rw [List.mem_singleton.mp hid]
    exact ⟨_, hfirst⟩
  · refine hclearly.2.2.2 (replying tidied) (.start () 1) _ [] [strayItem] rfl htidied ?_ ?_
    · intro item hitem
      rw [List.mem_singleton.mp hitem]
      exact ⟨9, .inl rfl, by decide⟩
    · exact @List.perm_append_comm _ [firstItem] [secondItem, strayItem]

end Rpc
end WalletLedger
