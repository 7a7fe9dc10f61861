import WalletLedger.Proofs.Json.Fields
import WalletLedger.Proofs.Json.Sorting

/-!
# Values that are read as what they were written for

A codec restores `x` if it reads the value that it writes for `x` as `x` again, both from the
text of the value and when all its members have been put in order.  Every codec in use is put
together from a few, and what they restore follows from what their parts restore.
-/

namespace WalletLedger
namespace Json
namespace Codec

variable {α β : Type}

/-- The codec writes `x` as a plain value and restores it. -/
structure RoundTrips (c : Codec α) (d : Nat) (x : α) : Prop where
  plain : Plain d (c.toJson x)
  restores : ∀ holder, c.ofJson holder (c.toJson x).sorted = .ok x
  reads : ∀ {depth : Nat}, d < depth → ∀ {rest : List Char}, EndsValue rest →
    c.ofOutline depth (shapeOf (c.toJson x) rest) = .ok x

theorem RoundTrips.decodeValue {c : Codec α} {d : Nat} {x : α} (h : c.RoundTrips d x) :
    c.decodeValue (c.encodeValue x) = .ok x :=
  h.restores .value

theorem decode_render (c : Codec α) (v : Json) :
    c.decode v.render = c.ofOutline Outline.depthLimit (shapeOf v []) := by
  unfold decode
  rw [outline_render]
  change (do
    let x ← c.ofOutline Outline.depthLimit (shapeOf v [])
    orFault (endOfText (some []))
    Except.ok x) = _
  cases c.ofOutline Outline.depthLimit (shapeOf v []) <;> rfl

/-- What was written is read again, unless arrays and objects go too deep in it. -/
theorem RoundTrips.decode_encode {c : Codec α} {d : Nat} {x : α} (h : c.RoundTrips d x)
    (hdepth : d < Outline.depthLimit) : c.decode (c.encode x) = .ok x :=
  (decode_render c _).trans (h.reads hdepth trivial)

/-!
# Leaves
-/

theorem leaf_number (wanted : String) (look : Json → Except Mismatch α) (toJson : α → Json)
    (depth : Nat) {v : Json} (h : v.IsNumber) {rest : List Char} (hrest : EndsValue rest) :
    (leaf wanted look toJson).ofOutline depth (shapeOf v rest) = look v.reread := by
  rcases read_number h hrest with ⟨text, hshape, hread⟩
  rw [hshape]
  change (orFault (readNumber text) >>= fun r => look r.1) = _
  rw [hread]
  rfl

theorem leaf_string (wanted : String) (look : Json → Except Mismatch α) (toJson : α → Json)
    (depth : Nat) (s : String) (rest : List Char) :
    (leaf wanted look toJson).ofOutline depth (shapeOf (.string s) rest) = look (.string s) := by
  change (orFault (readString (escapeAppend s.toList ('"' :: rest))) >>= fun r =>
    look (.string (String.ofList r.1))) = _
  rw [readString_escapeAppend]
  change look (.string (String.ofList s.toList)) = _
  rw [String.ofList_toList]

theorem look_word (wanted : String) (n : UInt64) :
    (lookNat (2 ^ 64 - 1) wanted (.unsigned n)).map UInt64.ofNat = .ok n := by
  have hlt := n.toNat_lt
  change (if n.toNat ≤ 2 ^ 64 - 1 then Except.ok n.toNat else _).map UInt64.ofNat = _
  rw [if_pos (by omega)]
  change Except.ok (UInt64.ofNat n.toNat) = _
  rw [UInt64.ofNat_toNat]

theorem look_uint32 (n : UInt32) :
    (lookNat (2 ^ 32 - 1) "u32" (.unsigned n.toUInt64)).map UInt32.ofNat = .ok n := by
  have hlt := n.toNat_lt
  have hnat : n.toUInt64.toNat = n.toNat := UInt32.toNat_toUInt64 n
  change (if n.toUInt64.toNat ≤ 2 ^ 32 - 1 then Except.ok n.toUInt64.toNat else _).map
    UInt32.ofNat = _
  rw [hnat, if_pos (by omega)]
  change Except.ok (UInt32.ofNat n.toNat) = _
  rw [UInt32.ofNat_toNat]

theorem word_roundTrips (wanted : String) (d : Nat) (n : UInt64) :
    (word wanted).RoundTrips d n where
  plain := .unsigned d n
  restores _ := look_word wanted n
  reads _ _ hrest := (leaf_number wanted _ _ _ (v := .unsigned n) trivial hrest).trans (look_word wanted n)

theorem uint64_roundTrips (d : Nat) (n : UInt64) : uint64.RoundTrips d n :=
  word_roundTrips "u64" d n

theorem uint32_roundTrips (d : Nat) (n : UInt32) : uint32.RoundTrips d n where
  plain := .unsigned d n.toUInt64
  restores _ := look_uint32 n
  reads _ _ hrest := (leaf_number "u32" _ _ _ (v := .unsigned n.toUInt64) trivial hrest).trans (look_uint32 n)

theorem bool_roundTrips (d : Nat) (b : Bool) : bool.RoundTrips d b where
  plain := .bool d b
  restores _ := rfl
  reads _ _ _ := rfl

theorem string_roundTrips (d : Nat) (s : String) : string.RoundTrips d s where
  plain := .string d s
  restores _ := rfl
  reads _ _ _ := leaf_string _ _ _ _ s _

theorem variants_roundTrips {names : List (String × α)} {name : α → String} {x : α}
    (h : lookVariant names (name x) = .ok x) (d : Nat) : (variants names name).RoundTrips d x where
  plain := .string d (name x)
  restores _ := h
  reads {_} _ {rest} _ := by
    change (orFault (readString (escapeAppend (name x).toList ('"' :: rest))) >>= fun r =>
      lookVariant names (String.ofList r.1)) = _
    rw [readString_escapeAppend]
    change lookVariant names (String.ofList (name x).toList) = _
    rw [String.ofList_toList]
    exact h

/-!
# Changing the type
-/

theorem iso_roundTrips {c : Codec α} {pack : α → β} {unpack : β → α} {d : Nat} {x : β}
    (h : c.RoundTrips d (unpack x)) (hpack : pack (unpack x) = x) :
    (c.iso pack unpack).RoundTrips d x where
  plain := h.plain
  restores holder := by
    change (c.ofJson holder (c.toJson (unpack x)).sorted).map pack = _
    rw [h.restores holder]
    exact congrArg Except.ok hpack
  reads {depth} hdepth {rest} hrest := by
    change (c.ofOutline depth (shapeOf (c.toJson (unpack x)) rest)).map pack = _
    rw [h.reads hdepth hrest]
    exact congrArg Except.ok hpack

theorem refine_roundTrips {c : Codec α} {check : α → Except String β} {unpack : β → α} {d : Nat}
    {x : β} (h : c.RoundTrips d (unpack x)) (hcheck : check (unpack x) = .ok x) :
    (c.refine check unpack).RoundTrips d x where
  plain := h.plain
  restores holder := by
    change (do
      let y ← c.ofJson holder (c.toJson (unpack x)).sorted
      (check y).mapError Mismatch.refused) = _
    rw [h.restores holder]
    change (check (unpack x)).mapError Mismatch.refused = _
    rw [hcheck]
    rfl
  reads {depth} hdepth {rest} hrest := by
    change (do
      let y ← c.ofOutline depth (shapeOf (c.toJson (unpack x)) rest)
      (check y).mapError Mismatch.refused) = _
    rw [h.reads hdepth hrest]
    change (check (unpack x)).mapError Mismatch.refused = _
    rw [hcheck]
    rfl

theorem optional_none_roundTrips (c : Codec α) (d : Nat) : c.optional.RoundTrips d none where
  plain := .null d
  restores _ := rfl
  reads _ _ _ := rfl

theorem shapeOf_ne_null {v : Json} (h : v ≠ .null) (rest : List Char) :
    shapeOf v rest ≠ .null := by
  cases v with
  | null => exact absurd rfl h
  | _ => exact Outline.noConfusion

theorem optional_ofJson {c : Codec α} {holder : Holder} {v : Json} (h : v ≠ .null) :
    c.optional.ofJson holder v = (c.ofJson holder v).map some := by
  cases v with
  | null => exact absurd rfl h
  | _ => rfl

theorem optional_ofOutline {c : Codec α} {depth : Nat} {shape : Outline} (h : shape ≠ .null) :
    c.optional.ofOutline depth shape = (c.ofOutline depth shape).map some := by
  cases shape with
  | null => exact absurd rfl h
  | _ => rfl

theorem optional_some_roundTrips {c : Codec α} {d : Nat} {x : α} (h : c.RoundTrips d x)
    (hnull : (c.toJson x).sorted ≠ .null) : c.optional.RoundTrips d (some x) where
  plain := h.plain
  restores holder := by
    change c.optional.ofJson holder (c.toJson x).sorted = _
    rw [optional_ofJson hnull, h.restores holder]
    rfl
  reads {depth} hdepth {rest} hrest := by
    have hjson : c.toJson x ≠ .null := fun heq => hnull (congrArg sorted heq)
    change c.optional.ofOutline depth (shapeOf (c.toJson x) rest) = _
    rw [optional_ofOutline (shapeOf_ne_null hjson rest), h.reads hdepth hrest]
    rfl

/-!
# Lists and pairs
-/

theorem mapM_shapesOf {c : Codec α} {depth : Nat} {write : β → Json} {read : β → α} {xs : List β}
    (h : ∀ x ∈ xs, ∀ rest, EndsValue rest →
      c.ofOutline depth (shapeOf (write x) rest) = .ok (read x))
    {rest : List Char} (hrest : EndsValue rest) :
    (shapesOf (xs.map write) rest).mapM (c.ofOutline depth) = .ok (xs.map read) := by
  induction xs with
  | nil => rfl
  | cons x xs ih =>
      rcases shapesOf_cons (write x) (xs.map write) hrest with ⟨next, hnext, hshapes⟩
      rw [List.map_cons, hshapes, List.mapM_cons, h x List.mem_cons_self next hnext,
        ih fun y hy => h y (List.mem_cons_of_mem x hy)]
      rfl

theorem ofOutline_closed_list {c : Codec α} {depth : Nat} (hdepth : 1 < depth)
    (items : List Outline) :
    c.list.ofOutline depth (.array items .closed) = items.mapM (c.ofOutline (depth - 1)) := by
  change (do
    let depth ← orFault (Outline.enter depth)
    let xs ← items.mapM (c.ofOutline depth)
    orFault (raise? ArrayEnd.closed.nextFault?)
    Except.ok xs) = _
  rw [enter_of_lt (d := 0) hdepth]
  change items.mapM (c.ofOutline (depth - 1)) >>= pure = _
  rw [bind_pure]

/-- A list is read from the text of an array if its items are read from theirs. -/
theorem ofOutline_list {c : Codec α} {depth : Nat} (hdepth : 1 < depth) {write : β → Json}
    {read : β → α} {xs : List β}
    (h : ∀ x ∈ xs, ∀ rest, EndsValue rest →
      c.ofOutline (depth - 1) (shapeOf (write x) rest) = .ok (read x)) (rest : List Char) :
    c.list.ofOutline depth (shapeOf (.array (xs.map write)) rest) = .ok (xs.map read) :=
  (ofOutline_closed_list hdepth _).trans (mapM_shapesOf h (endsValue_bracket rest))

theorem list_roundTrips {c : Codec α} {d : Nat} {xs : List α} (h : ∀ x ∈ xs, c.RoundTrips d x) :
    c.list.RoundTrips (d + 1) xs where
  plain := by
    refine .array fun v hv => ?_
    rcases List.mem_map.mp hv with ⟨x, hx, heq⟩
    exact heq ▸ (h x hx).plain
  restores holder := by
    change (sortedItems (xs.map c.toJson)).mapM (c.ofJson holder) = _
    rw [sortedItems_eq_map, List.mapM_map, List.mapM_map, Results.mapM_eq_ok_iff,
      List.forall₂_same]
    exact fun x hx => (h x hx).restores holder
  reads {depth} hdepth {rest} _ := by
    have hitems := ofOutline_list (by omega) (fun x hx rest hrest =>
      (h x hx).reads (Nat.lt_sub_of_add_lt hdepth) hrest) rest
    rw [List.map_id' xs] at hitems
    exact hitems

theorem rowOfArray_closed {ts : List Type} (fields : Fields ts) (wanted : String) {depth : Nat}
    (hdepth : 1 < depth) (items : List Outline) :
    fields.rowOfArray wanted depth items .closed = (do
      let (row, left) ← fields.ofOutlineItems wanted (depth - 1) .closed 0 items
      if left.isEmpty then .ok row else .error (.fault .trailingCharacters)) := by
  rw [Fields.rowOfArray, enter_of_lt (d := 0) hdepth]
  rfl

theorem pair_roundTrips {a : Codec α} {b : Codec β} {d : Nat} {x : α} {y : β}
    (ha : a.RoundTrips d x) (hb : b.RoundTrips d y) : (pair a b).RoundTrips (d + 1) (x, y) where
  plain := by
    refine .array fun v hv => ?_
    rcases List.mem_cons.mp hv with rfl | hv
    · exact ha.plain
    · rw [List.mem_singleton.mp hv]
      exact hb.plain
  restores holder := by
    have hx := ha.restores holder
    have hy := hb.restores holder
    change ((Fields.cons (.required "0" a) (.cons (.required "1" b) .nil)).rowOfItems _ holder
      [(a.toJson x).sorted, (b.toJson y).sorted]).map _ = _
    simp only [Fields.rowOfItems, Fields.ofItems, Field.required, hx, hy]
    rfl
  reads {depth} hdepth {rest} _ := by
    have hinside := Nat.lt_sub_of_add_lt hdepth
    have hx := ha.reads hinside (endsValue_comma (renderItems [b.toJson y] (']' :: rest)))
    have hy := hb.reads hinside (endsValue_bracket rest)
    have hrow : (Fields.cons (.required "0" a) (.cons (.required "1" b) .nil)).rowOfArray
        "a tuple of size 2" depth
        [shapeOf (a.toJson x) (',' :: renderItems [b.toJson y] (']' :: rest)),
          shapeOf (b.toJson y) (']' :: rest)] .closed = .ok (x, y, ()) := by
      rw [rowOfArray_closed _ _ (by omega)]
      simp only [Fields.ofOutlineItems, Field.required, hx, hy]
      rfl
    exact congrArg (Except.map fun r => (r.1, r.2.1)) hrow

/-!
# Records
-/

/-- Every entry of the row is restored, or is left out where it stands for its absence. -/
def FieldsRoundTrip (d : Nat) : Fields ts → Row ts → Prop
  | .nil, _ => True
  | .cons f rest, (x, row) =>
      f.codec.RoundTrips d x ∧ (f.omitted x = true → f.absence = .anywhere x) ∧
        FieldsRoundTrip d rest row

variable {ts us : List Type}

theorem fieldsRoundTrip_cons {d : Nat} {f : Field α} {rest : Fields ts} {x : α} {row : Row ts}
    (h : f.codec.RoundTrips d x) (hwritten : f.omitted x = false)
    (hrest : FieldsRoundTrip d rest row) : FieldsRoundTrip d (.cons f rest) (x, row) :=
  ⟨h, fun homitted => absurd (hwritten.symm.trans homitted) Bool.false_ne_true, hrest⟩

theorem plain_toMembers {d : Nat} {fields : Fields ts} {row : Row ts}
    (h : FieldsRoundTrip d fields row) : ∀ m ∈ fields.toMembers row, Plain d m.2 := by
  induction fields with
  | nil => exact fun m hm => absurd hm List.not_mem_nil
  | cons f rest ih =>
      rcases row with ⟨x, row⟩
      rcases h with ⟨hx, _, hrest⟩
      intro m hm
      rw [Fields.toMembers] at hm
      split at hm
      · exact ih hrest m hm
      · rcases List.mem_cons.mp hm with rfl | hm
        · exact hx.plain
        · exact ih hrest m hm

theorem accepts_toMembers {d : Nat} {fields : Fields ts} {row : Row ts}
    (hnodup : fields.names.Nodup) (h : FieldsRoundTrip d fields row) {key : String} {v : Json}
    (hmem : (key, v) ∈ fields.toMembers row)
    {reader : {α : Type} → Codec α → Except Mismatch α}
    (hreader : ∀ {α : Type} {c : Codec α} {x : α}, c.RoundTrips d x → c.toJson x = v →
      reader c = .ok x) : fields.Accepts key reader row := by
  induction fields with
  | nil => trivial
  | cons f rest ih =>
      rcases row with ⟨x, row⟩
      rcases h with ⟨hx, _, hrest⟩
      rw [Fields.names, List.nodup_cons] at hnodup
      rw [Fields.toMembers] at hmem
      have hlater : (key, v) ∈ rest.toMembers row →
          (Fields.cons f rest).Accepts key reader (x, row) := by
        intro hmem
        have hkey := (Fields.keys_toMembers rest row).subset (List.mem_map_of_mem hmem)
        exact ⟨fun hname => absurd (hname ▸ hkey) hnodup.1, ih hnodup.2 hrest hmem⟩
      split at hmem
      · exact hlater hmem
      · rcases List.mem_cons.mp hmem with heq | hmem
        · cases heq
          exact ⟨fun _ => hreader hx rfl, Fields.accepts_of_not_mem hnodup.1 _ row⟩
        · exact hlater hmem

theorem complete_toMembers {d : Nat} {fields : Fields ts} {row : Row ts}
    (h : FieldsRoundTrip d fields row) {keys : List String}
    (hkeys : ∀ key ∈ (fields.toMembers row).map Prod.fst, key ∈ keys) :
    fields.Complete keys row := by
  induction fields with
  | nil => trivial
  | cons f rest ih =>
      rcases row with ⟨x, row⟩
      rcases h with ⟨_, homitted, hrest⟩
      rw [Fields.toMembers] at hkeys
      split at hkeys
      · next hx => exact ⟨.inr (.inl (homitted hx)), ih hrest hkeys⟩
      · rw [List.map_cons] at hkeys
        exact ⟨.inl (hkeys _ List.mem_cons_self),
          ih hrest fun key hkey => hkeys key (List.mem_cons_of_mem _ hkey)⟩

/-- Members that were written for a row, and strangers among them. -/
structure Holds (fields : Fields ts) (row : Row ts) (members : List (String × Json)) : Prop where
  nodup : (members.map Prod.fst).Nodup
  written : ∀ m ∈ fields.toMembers row, m ∈ members
  strange : ∀ m ∈ members, m ∈ fields.toMembers row ∨ m.1 ∉ fields.names

theorem holds_toMembers {fields : Fields ts} (hnodup : fields.names.Nodup) (row : Row ts) :
    Holds fields row (fields.toMembers row) where
  nodup := (Fields.keys_toMembers fields row).nodup hnodup
  written _ hm := hm
  strange _ hm := .inl hm

/-- The members of two records hold both, each having the others for strangers. -/
theorem holds_append {inner : Fields ts} {outer : Fields us}
    (hnodup : (inner.names ++ outer.names).Nodup) (innerRow : Row ts) (outerRow : Row us) :
    Holds inner innerRow (inner.toMembers innerRow ++ outer.toMembers outerRow) ∧
      Holds outer outerRow (inner.toMembers innerRow ++ outer.toMembers outerRow) := by
  have hdisjoint := (List.nodup_append.mp hnodup).2.2
  have hinnerKeys := Fields.keys_toMembers inner innerRow
  have houterKeys := Fields.keys_toMembers outer outerRow
  have hkeys : ((inner.toMembers innerRow ++ outer.toMembers outerRow).map Prod.fst).Nodup := by
    rw [List.map_append]
    exact (hinnerKeys.append houterKeys).nodup hnodup
  constructor
  · refine ⟨hkeys, fun m hm => List.mem_append_left _ hm, fun m hm => ?_⟩
    rcases List.mem_append.mp hm with hm | hm
    · exact .inl hm
    · exact .inr fun hname =>
        hdisjoint _ hname _ (houterKeys.subset (List.mem_map_of_mem hm)) rfl
  · refine ⟨hkeys, fun m hm => List.mem_append_right _ hm, fun m hm => ?_⟩
    rcases List.mem_append.mp hm with hm | hm
    · exact .inr fun hname =>
        hdisjoint _ (hinnerKeys.subset (List.mem_map_of_mem hm)) _ hname rfl
    · exact .inl hm

def arranged (members : List (String × Json)) : List (String × Json) :=
  sortMembers (sortedMembers members)

namespace Holds

variable {d : Nat} {fields : Fields ts} {row : Row ts} {members : List (String × Json)}

theorem complete (hheld : Holds fields row members) (h : FieldsRoundTrip d fields row) :
    fields.Complete (members.map Prod.fst) row := by
  apply complete_toMembers h
  intro key hkey
  rcases List.mem_map.mp hkey with ⟨m, hm, heq⟩
  exact List.mem_map.mpr ⟨m, hheld.written m hm, heq⟩

theorem carries_arranged (hheld : Holds fields row members) (hnodup : fields.names.Nodup)
    (h : FieldsRoundTrip d fields row) (holder : Holder) :
    fields.Carries row holder (arranged members) where
  nodup := nodup_of_ascending (ascending_sortMembers (sortedMembers members))
  accepts m hm := by
    rcases (mem_sorted_members hheld.nodup).mp hm with ⟨v, hv, heq⟩
    rw [heq]
    rcases hheld.strange _ hv with hwritten | hname
    · exact accepts_toMembers hnodup h hwritten fun hx hjson => hjson ▸ hx.restores holder
    · exact Fields.accepts_of_not_mem hname _ row
  complete := by
    apply (hheld.complete h).mono
    intro key _ hkey
    rcases List.mem_map.mp hkey with ⟨m, hm, heq⟩
    exact List.mem_map.mpr
      ⟨(m.1, m.2.sorted), (mem_sorted_members hheld.nodup).mpr ⟨m.2, hm, rfl⟩, heq⟩

/-- Members that are in order inside need not be put in order among themselves. -/
theorem carries (hheld : Holds fields row members) (hnodup : fields.names.Nodup)
    (h : FieldsRoundTrip d fields row) (hsorted : ∀ m ∈ fields.toMembers row, m.2.sorted = m.2)
    (holder : Holder) : fields.Carries row holder members where
  nodup := hheld.nodup
  accepts m hm := by
    rcases hheld.strange m hm with hwritten | hname
    · refine accepts_toMembers hnodup h hwritten fun hx hjson => ?_
      have hread := hx.restores holder
      rw [hjson, hsorted m hwritten] at hread
      exact hread
    · exact Fields.accepts_of_not_mem hname _ row
  complete := hheld.complete h

theorem carriesText (hheld : Holds fields row members) (hnodup : fields.names.Nodup)
    (h : FieldsRoundTrip d fields row) {depth : Nat} (hdepth : d < depth) :
    fields.CarriesText row depth members where
  nodup := hheld.nodup
  accepts m hm rest hrest := by
    rcases hheld.strange m hm with hwritten | hname
    · exact accepts_toMembers hnodup h hwritten fun hx hjson => hjson ▸ hx.reads hdepth hrest
    · exact Fields.accepts_of_not_mem hname _ row
  complete := hheld.complete h

end Holds

theorem ofOutline_closed_record {name : String} {fields : Fields ts} {pack : Row ts → α}
    {unpack : α → Row ts} {depth : Nat} (hdepth : 1 < depth)
    (members : List (List Char × Outline)) :
    (record name fields pack unpack).ofOutline depth (.object members .closed) = (do
      let slots ← fields.ofOutlines (depth - 1) fields.blank members
      let row ← fields.settle slots
      .ok (pack row)) := by
  change (do
    let depth ← orFault (Outline.enter depth)
    let slots ← fields.ofOutlines depth fields.blank members
    orFault (raise? ObjectEnd.closed.nextFault?)
    let row ← fields.settle slots
    Except.ok (pack row)) = _
  rw [enter_of_lt (d := 0) hdepth]
  rfl

theorem ofOutline_record {name : String} {fields : Fields ts} {pack : Row ts → α}
    {unpack : α → Row ts} {depth : Nat} (hdepth : 1 < depth) {members : List (String × Json)}
    {rest : List Char} {slots : Slots ts} {row : Row ts}
    (hread : fields.ofOutlines (depth - 1) fields.blank
      (memberShapes members ('\x7d' :: rest)) = .ok slots)
    (hrow : fields.settle slots = .ok row) :
    (record name fields pack unpack).ofOutline depth (shapeOf (.object members) rest) =
      .ok (pack row) := by
  refine (ofOutline_closed_record hdepth _).trans ?_
  rw [hread]
  change (do
    let row ← fields.settle slots
    Except.ok (pack row)) = _
  rw [hrow]
  rfl

theorem record_roundTrips {name : String} {fields : Fields ts} {pack : Row ts → α}
    {unpack : α → Row ts} {d : Nat} {x : α} (hnodup : fields.names.Nodup)
    (h : FieldsRoundTrip d fields (unpack x)) (hpack : pack (unpack x) = x) :
    (record name fields pack unpack).RoundTrips (d + 1) x where
  plain := .object (plain_toMembers h)
  restores holder := by
    have hcarries := (holds_toMembers hnodup (unpack x)).carries_arranged hnodup h holder
    rcases hcarries.read hnodup with ⟨slots, hread, hrow⟩
    change (do
      let slots ← fields.ofMembers holder fields.blank (arranged (fields.toMembers (unpack x)))
      let row ← fields.settle slots
      Except.ok (pack row)) = _
    rw [hread]
    change (do
      let row ← fields.settle slots
      Except.ok (pack row)) = _
    rw [hrow]
    exact congrArg Except.ok hpack
  reads {depth} hdepth {rest} _ := by
    have hcarries := (holds_toMembers hnodup (unpack x)).carriesText hnodup h
      (Nat.lt_sub_of_add_lt hdepth)
    rcases hcarries.read hnodup (endsValue_brace rest) with ⟨slots, hread, hrow⟩
    exact (ofOutline_record (by omega) hread hrow).trans (congrArg Except.ok hpack)

theorem oneField_roundTrips {name : String} {f : Field α} {d : Nat} {x : α}
    (h : f.codec.RoundTrips d x) (hwritten : f.omitted x = false) :
    (record name (.cons f .nil) (fun (x, _) => x) fun x => (x, ())).RoundTrips (d + 1) x :=
  record_roundTrips (List.nodup_singleton _) (fieldsRoundTrip_cons h hwritten trivial) rfl

/-!
# Records within records
-/

section Flattened

variable {name : String} {inner : Fields ts} {outer : Fields us}
  {pack : Row ts → Row us → α} {unpack : α → Row ts × Row us}

theorem carries_held (hnodup : (inner.names ++ outer.names).Nodup) {row : Row ts}
    {members : List (String × Json)} (h : inner.Carries row .held members) :
    inner.Carries row .held (members.filter fun m => m.1 ∉ outer.names) := by
  have hdisjoint := (List.nodup_append.mp hnodup).2.2
  exact h.filter fun m _ hname =>
    decide_eq_true fun hmem => hdisjoint _ hname _ hmem rfl

theorem finish_flattened (hnodup : inner.names.Nodup) {outerSlots : Slots us} {innerRow : Row ts}
    {outerRow : Row us} {held : List (String × Json)}
    (houter : outer.settle outerSlots = .ok outerRow)
    (hinner : inner.Carries innerRow .held held) :
    (do
      let outerRow ← outer.settle outerSlots
      let slots ← inner.ofMembers .held inner.blank held
      let innerRow ← inner.settle slots
      Except.ok (pack innerRow outerRow)) = .ok (pack innerRow outerRow) := by
  rcases hinner.read hnodup with ⟨innerSlots, hread, hrow⟩
  rw [houter, hread]
  change (do
    let innerRow ← inner.settle innerSlots
    Except.ok (pack innerRow outerRow)) = _
  rw [hrow]
  rfl

theorem ofOutline_closed_flattened {depth : Nat} (hdepth : 1 < depth)
    (members : List (List Char × Outline)) :
    (flattened name inner outer pack unpack).ofOutline depth (.object members .closed) = (do
      let r ← holdOutlines outer (depth - 1) outer.blank members
      let outerRow ← outer.settle r.1
      let slots ← inner.ofMembers .held inner.blank r.2
      let innerRow ← inner.settle slots
      .ok (pack innerRow outerRow)) := by
  change (do
    let depth ← orFault (Outline.enter depth)
    let r ← holdOutlines outer depth outer.blank members
    orFault (raise? ObjectEnd.closed.nextFault?)
    let outerRow ← outer.settle r.1
    let slots ← inner.ofMembers .held inner.blank r.2
    let innerRow ← inner.settle slots
    Except.ok (pack innerRow outerRow)) = _
  rw [enter_of_lt (d := 0) hdepth]
  rfl

theorem flattened_roundTrips {d : Nat} {x : α}
    (hnodup : (inner.names ++ outer.names).Nodup)
    (hinner : FieldsRoundTrip d inner (unpack x).1)
    (houter : FieldsRoundTrip d outer (unpack x).2)
    (hsorted : ∀ m ∈ inner.toMembers (unpack x).1, m.2.sorted = m.2)
    (hpack : pack (unpack x).1 (unpack x).2 = x) :
    (flattened name inner outer pack unpack).RoundTrips (d + 1) x := by
  rcases List.nodup_append.mp hnodup with ⟨hinnerNodup, houterNodup, _⟩
  rcases holds_append hnodup (unpack x).1 (unpack x).2 with ⟨hinnerHeld, houterHeld⟩
  have hplain : ∀ m ∈ inner.toMembers (unpack x).1 ++ outer.toMembers (unpack x).2,
      Plain d m.2 := by
    intro m hm
    rcases List.mem_append.mp hm with hm | hm
    · exact plain_toMembers hinner m hm
    · exact plain_toMembers houter m hm
  refine ⟨.object hplain, fun holder => ?_, fun {depth} hdepth {rest} _ => ?_⟩
  · have hcarries := houterHeld.carries_arranged houterNodup houter holder
    rcases hcarries.hold houterNodup with ⟨outerSlots, hhold, houterRow⟩
    have hback := carries_held hnodup (hinnerHeld.carries_arranged hinnerNodup hinner .held)
    change (do
      let r ← holdMembers outer holder outer.blank
        (arranged (inner.toMembers (unpack x).1 ++ outer.toMembers (unpack x).2))
      let outerRow ← outer.settle r.1
      let slots ← inner.ofMembers .held inner.blank r.2
      let innerRow ← inner.settle slots
      Except.ok (pack innerRow outerRow)) = _
    rw [hhold]
    exact (finish_flattened hinnerNodup houterRow hback).trans (congrArg Except.ok hpack)
  · -- In a text the values that are held back keep the order in which they were written.
    have hinside := Nat.lt_sub_of_add_lt hdepth
    have hcarries := houterHeld.carriesText houterNodup houter hinside
    rcases hcarries.hold houterNodup (fun m hm => (hplain m hm).reads hinside)
      (endsValue_brace rest) with ⟨outerSlots, hhold, houterRow⟩
    have hback := carries_held hnodup (hinnerHeld.carries hinnerNodup hinner hsorted .held)
    refine (ofOutline_closed_flattened (by omega) _).trans ?_
    rw [hhold]
    exact (finish_flattened hinnerNodup houterRow hback).trans (congrArg Except.ok hpack)

end Flattened

end Codec
end Json
end WalletLedger
