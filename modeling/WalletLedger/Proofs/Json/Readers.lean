import WalletLedger.Proofs.Json.Provenance
import WalletLedger.Proofs.Json.RoundTrip

/-!
# The two readers of a codec

A codec reads a type from a text and from a value.  On the compact text of a value its two
readers come to the same, however the value looks: both fail, or both read the same.  They
may fail for different reasons, as they do not look at a document in the same order.
-/

namespace WalletLedger
namespace Json

open Results (Agree)

variable {α β : Type}

/-- The two readers of the codec come to the same. -/
structure Codec.ReadsAlike (c : Codec α) : Prop where
  /-- It does not matter what fractions there are in a value. -/
  reread : ∀ holder v, Agree (· = ·) (c.ofJson holder v.reread) (c.ofJson holder v)
  text : ∀ {d depth : Nat} {v : Json} {rest : List Char}, Legible d v → d < depth →
    EndsValue rest → Agree (· = ·) (c.ofOutline depth (shapeOf v rest)) (c.ofJson .value v)

theorem agree_refuse (shape : Outline) (wanted : String) (e : Mismatch) :
    Agree (α := α) (· = ·) (shape.refuse wanted) (.error e) := by
  refine .of_errors ?_ ⟨e, rfl⟩
  cases hrefuse : shape.refuse (α := α) wanted with
  | ok x => exact absurd hrefuse (refuse_ne_ok shape wanted x)
  | error e' => exact ⟨e', rfl⟩

namespace Codec

/-!
# Leaves
-/

structure LooksAtLeaves (look : Json → Except Mismatch α) : Prop where
  binary : ∀ x, ∃ e, look (.binary x) = .error e
  array : ∀ items, ∃ e, look (.array items) = .error e
  object : ∀ members, ∃ e, look (.object members) = .error e

theorem leaf_readsAlike {wanted : String} {look : Json → Except Mismatch α} {toJson : α → Json}
    (h : LooksAtLeaves look) : (leaf wanted look toJson).ReadsAlike where
  reread holder v := by
    change Agree (· = ·) (look v.reread) (look v)
    cases v with
    | binary x => exact .of_errors (h.binary x.reread) (h.binary x)
    | array items => exact .of_errors (h.array (rereadItems items)) (h.array items)
    | object members => exact .of_errors (h.object (rereadMembers members)) (h.object members)
    | _ => exact .refl _
  text {d depth v rest} hv _ hrest := by
    change Agree _ _ (look v)
    cases hv with
    | null => exact .refl _
    | bool _ b => exact .refl _
    | string _ s =>
        rw [leaf_string]
        exact .refl _
    | array _ => exact .of_errors ⟨_, rfl⟩ (h.array _)
    | object _ => exact .of_errors ⟨_, rfl⟩ (h.object _)
    | number _ hnumber =>
        rw [leaf_number _ _ _ _ hnumber hrest]
        cases v with
        | binary x => exact .of_errors (h.binary x.reread) (h.binary x)
        | unsigned n => exact .refl _
        | negative n => exact .refl _
        | _ => exact absurd hnumber id

theorem word_readsAlike (wanted : String) : (word wanted).ReadsAlike :=
  leaf_readsAlike ⟨fun _ => ⟨_, rfl⟩, fun _ => ⟨_, rfl⟩, fun _ => ⟨_, rfl⟩⟩

theorem uint64_readsAlike : uint64.ReadsAlike :=
  word_readsAlike "u64"

theorem uint32_readsAlike : uint32.ReadsAlike :=
  leaf_readsAlike ⟨fun _ => ⟨_, rfl⟩, fun _ => ⟨_, rfl⟩, fun _ => ⟨_, rfl⟩⟩

theorem bool_readsAlike : bool.ReadsAlike :=
  leaf_readsAlike ⟨fun _ => ⟨_, rfl⟩, fun _ => ⟨_, rfl⟩, fun _ => ⟨_, rfl⟩⟩

theorem string_readsAlike : string.ReadsAlike :=
  leaf_readsAlike ⟨fun _ => ⟨_, rfl⟩, fun _ => ⟨_, rfl⟩, fun _ => ⟨_, rfl⟩⟩

/-!
# Names
-/

theorem unitContent_reread (holder : Holder) (content : Json) :
    Agree (· = ·) (unitContent holder content.reread) (unitContent holder content) := by
  cases content with
  | null => exact .ok rfl
  | object members =>
      cases members with
      | nil => exact .refl _
      | cons m ms => exact .error _ _
  | _ => exact .error _ _

theorem unitContent_text (content : Json) (rest : List Char) :
    Agree (· = ·) (unitContentOutline (shapeOf content rest)) (unitContent .value content) := by
  cases content with
  | null => exact .ok rfl
  | bool b => exact .error _ _
  | array items => exact .error _ _
  | object members => cases members <;> exact .error _ _
  | _ => exact agree_refuse _ "unit" _

theorem variants_readsAlike (names : List (String × α)) (name : α → String) :
    (variants names name).ReadsAlike where
  reread holder v := by
    cases v with
    | object members =>
        match members with
        | [] => exact .error _ _
        | [(key, content)] =>
            refine (Agree.refl (lookVariant names key)).bind fun x _ heq => ?_
            refine (unitContent_reread holder content).bind fun _ _ _ => ?_
            exact heq ▸ .ok rfl
        | _ :: _ :: _ => exact .error _ _
    | array items => exact .error _ _
    | binary x => exact .error _ _
    | _ => exact .refl _
  text {d depth v rest} hv hdepth _ := by
    cases v with
    | string s =>
        change Agree _ (orFault (readString (escapeAppend s.toList ('"' :: rest))) >>= fun r =>
          lookVariant names (String.ofList r.1)) (lookVariant names s)
        rw [readString_escapeAppend]
        change Agree _ (lookVariant names (String.ofList s.toList)) _
        rw [String.ofList_toList]
        exact .refl _
    | object members =>
        rcases hv.of_object with ⟨d, rfl, hmembers⟩
        match members with
        | [] => exact .bind_error fun _ => .error _ _
        | [(key, content)] =>
            change Agree _ (do
              let _ ← orFault (Outline.enter depth)
              let r ← orFault (readString (escapeAppend key.toList
                ('"' :: ':' :: renderAppend content ('\x7d' :: rest))))
              let x ← lookVariant names (String.ofList r.1)
              unitContentOutline (shapeOf content ('\x7d' :: rest))
              Except.ok x) (do
              let x ← lookVariant names key
              unitContent .value content
              Except.ok x)
            rw [enter_of_lt hdepth, readString_escapeAppend]
            change Agree _ (do
              let x ← lookVariant names (String.ofList key.toList)
              unitContentOutline (shapeOf content ('\x7d' :: rest))
              Except.ok x) _
            rw [String.ofList_toList]
            refine (Agree.refl (lookVariant names key)).bind fun x _ heq => ?_
            refine (unitContent_text content _).bind fun _ _ _ => ?_
            exact heq ▸ .ok rfl
        | (key, content) :: (key', content') :: ms =>
            -- The name or the content may fail; if neither does, what is behind them fails.
            refine .bind_error fun _ => .bind_error fun _ => .bind_error fun _ =>
              .bind_error fun _ => ?_
            cases ms <;> exact .error _ _
    | _ => exact .error _ _

/-!
# Changing the type
-/

theorem iso_readsAlike {c : Codec α} (h : c.ReadsAlike) (pack : α → β) (unpack : β → α) :
    (c.iso pack unpack).ReadsAlike where
  reread holder v := (h.reread holder v).map fun _ _ heq => congrArg pack heq
  text hv hdepth hrest := (h.text hv hdepth hrest).map fun _ _ heq => congrArg pack heq

theorem refine_readsAlike {c : Codec α} (h : c.ReadsAlike) (check : α → Except String β)
    (unpack : β → α) : (c.refine check unpack).ReadsAlike where
  reread holder v := (h.reread holder v).bind fun _ _ heq => heq ▸ Agree.refl _
  text hv hdepth hrest := (h.text hv hdepth hrest).bind fun _ _ heq => heq ▸ Agree.refl _

theorem optional_readsAlike {c : Codec α} (h : c.ReadsAlike) : c.optional.ReadsAlike where
  reread holder v := by
    by_cases hnull : v = .null
    · rw [hnull]
      exact .refl _
    · have hreread : v.reread ≠ .null := by
        cases v with
        | null => exact absurd rfl hnull
        | _ => exact Json.noConfusion
      rw [optional_ofJson hnull, optional_ofJson hreread]
      exact (h.reread holder v).map fun _ _ heq => congrArg some heq
  text {d depth v rest} hv hdepth hrest := by
    by_cases hnull : v = .null
    · rw [hnull]
      exact .refl _
    · rw [optional_ofJson hnull, optional_ofOutline (shapeOf_ne_null hnull rest)]
      exact (h.text hv hdepth hrest).map fun _ _ heq => congrArg some heq

/-!
# Lists
-/

theorem forall₂_shapesOf {c : Codec α} (h : c.ReadsAlike) {d depth : Nat} (hdepth : d < depth)
    {items : List Json} (hitems : ∀ v ∈ items, Legible d v) {rest : List Char}
    (hrest : EndsValue rest) :
    List.Forall₂ (fun shape v => Agree (· = ·) (c.ofOutline depth shape) (c.ofJson .value v))
      (shapesOf items rest) items := by
  induction items with
  | nil => exact .nil
  | cons v vs ih =>
      rcases List.forall_mem_cons.mp hitems with ⟨hv, hvs⟩
      rcases shapesOf_cons v vs hrest with ⟨next, hnext, hshapes⟩
      rw [hshapes]
      exact .cons (h.text hv hdepth hnext) (ih hvs)

theorem list_readsAlike {c : Codec α} (h : c.ReadsAlike) : c.list.ReadsAlike where
  reread holder v := by
    cases v with
    | array items =>
        have hitems : List.Forall₂
            (fun v w => Agree (· = ·) (c.ofJson holder v) (c.ofJson holder w))
            (rereadItems items) items := by
          rw [rereadItems_eq_map, List.forall₂_map_left_iff, List.forall₂_same]
          exact fun v _ => h.reread holder v
        exact .mapM hitems
    | _ => exact .error _ _
  text {d depth v rest} hv hdepth _ := by
    cases v with
    | array items =>
        rcases hv.of_array with ⟨d, rfl, hitems⟩
        have hinside := Nat.lt_sub_of_add_lt hdepth
        rw [shapeOf, ofOutline_closed_list (by omega)]
        exact .mapM (forall₂_shapesOf h hinside hitems (endsValue_bracket rest))
    | null => exact .error _ _
    | bool b => exact .error _ _
    | object members => exact .error _ _
    | _ => exact agree_refuse _ "a sequence" _

end Codec

/-!
# Fields
-/

namespace Fields

def ReadAlike : Fields ts → Prop
  | .nil => True
  | .cons f rest => f.codec.ReadsAlike ∧ rest.ReadAlike

variable {ts : List Type} {fields : Fields ts}

theorem fill_agree (h : fields.ReadAlike) (key : String)
    {first second : {α : Type} → Codec α → Except Mismatch α}
    (hread : ∀ {α : Type} {c : Codec α}, c.ReadsAlike → Agree (· = ·) (first c) (second c))
    (slots : Slots ts) :
    (fields.fill key first slots = none ∧ fields.fill key second slots = none) ∨
      ∃ r s, fields.fill key first slots = some r ∧ fields.fill key second slots = some s ∧
        Agree (· = ·) r s := by
  induction fields with
  | nil => exact .inl ⟨rfl, rfl⟩
  | cons f rest ih =>
      rcases slots with ⟨slot, slots⟩
      rw [fill_cons, fill_cons]
      split
      · refine .inr ?_
        cases slot with
        | some x => exact ⟨_, _, rfl, rfl, .error _ _⟩
        | none =>
            refine ⟨_, _, rfl, rfl, (hread h.1).map fun x _ heq => ?_⟩
            rw [heq]
      · rcases ih h.2 slots with ⟨hfirst, hsecond⟩ | ⟨r, s, hfirst, hsecond, hagree⟩
        · rw [hfirst, hsecond]
          exact .inl ⟨rfl, rfl⟩
        · rw [hfirst, hsecond]
          refine .inr ⟨_, _, rfl, rfl, hagree.map fun filled _ heq => ?_⟩
          rw [heq]

/-!
# Arrays of fields
-/

theorem ofItems_reread (h : fields.ReadAlike) (wanted : String) (holder : Holder) (place : Nat)
    (items : List Json) :
    Agree (fun r s => r.1 = s.1 ∧ r.2 = rereadItems s.2)
      (fields.ofItems wanted holder place (rereadItems items))
      (fields.ofItems wanted holder place items) := by
  induction fields generalizing place items with
  | nil => exact .ok ⟨rfl, rfl⟩
  | cons f rest ih =>
      cases items with
      | cons v vs =>
          refine (h.1.reread holder v).bind fun x _ hx => ?_
          refine (ih h.2 (place + 1) vs).bind fun r s hrow => ?_
          exact .ok ⟨by rw [hx, hrow.1], hrow.2⟩
      | nil =>
          rw [rereadItems, ofItems]
          split
          · refine (ih h.2 (place + 1) []).bind fun r s hrow => ?_
            exact .ok ⟨by rw [hrow.1], hrow.2⟩
          · exact .error _ _

theorem rowOfItems_reread (h : fields.ReadAlike) (wanted : String) (holder : Holder)
    (items : List Json) :
    Agree (· = ·) (fields.rowOfItems wanted holder (rereadItems items))
      (fields.rowOfItems wanted holder items) := by
  refine (ofItems_reread h wanted holder 0 items).bind fun r s hrow => ?_
  rcases r with ⟨row, left⟩
  rcases s with ⟨row', left'⟩
  rcases hrow with ⟨hsame, hleft⟩
  cases hsame
  cases hleft
  cases left' with
  | nil => exact .ok rfl
  | cons v vs => exact .error _ _

theorem isEmpty_shapesOf (items : List Json) (rest : List Char) :
    (shapesOf items rest).isEmpty = items.isEmpty := by
  cases items with
  | nil => rfl
  | cons v vs => cases vs <;> rfl

theorem ofOutlineItems_text (h : fields.ReadAlike) {d depth : Nat} (hdepth : d < depth)
    {items : List Json} (hitems : ∀ v ∈ items, Legible d v) {rest : List Char}
    (hrest : EndsValue rest) (wanted : String) (place : Nat) :
    Agree (fun r s => r.1 = s.1 ∧ r.2.isEmpty = s.2.isEmpty)
      (fields.ofOutlineItems wanted depth .closed place (shapesOf items rest))
      (fields.ofItems wanted .value place items) := by
  induction fields generalizing place items with
  | nil => exact .ok ⟨rfl, isEmpty_shapesOf items rest⟩
  | cons f fields ih =>
      cases items with
      | cons v vs =>
          rcases List.forall_mem_cons.mp hitems with ⟨hv, hvs⟩
          rcases shapesOf_cons v vs hrest with ⟨next, hnext, hshapes⟩
          rw [hshapes]
          refine (h.1.text hv hdepth hnext).bind fun x _ hx => ?_
          refine (ih h.2 hvs (place + 1)).bind fun r s hrow => ?_
          exact .ok ⟨by rw [hx, hrow.1], hrow.2⟩
      | nil =>
          have hrow := ih h.2 hitems (place + 1)
          simp only [shapesOf, ofOutlineItems, ofItems]
          cases f.absence with
          | anywhere x =>
              refine hrow.bind fun r s hrow => ?_
              exact .ok ⟨by rw [hrow.1], hrow.2⟩
          | refused => exact .error _ _
          | inObject x => exact .error _ _

theorem rowOfArray_text (h : fields.ReadAlike) {d depth : Nat} (hdepth : d + 1 < depth)
    {items : List Json} (hitems : ∀ v ∈ items, Legible d v) (wanted : String)
    (rest : List Char) :
    Agree (· = ·) (fields.rowOfArray wanted depth (shapesOf items (']' :: rest)) .closed)
      (fields.rowOfItems wanted .value items) := by
  have hinside := Nat.lt_sub_of_add_lt hdepth
  rw [Codec.rowOfArray_closed _ _ (by omega)]
  refine (ofOutlineItems_text h hinside hitems (endsValue_bracket rest) wanted 0).bind
    fun r s hrow => ?_
  rcases r with ⟨row, left⟩
  rcases s with ⟨row', left'⟩
  rcases hrow with ⟨hsame, hempty⟩
  cases hsame
  simp only at hempty ⊢
  rw [hempty]
  split
  · exact .ok rfl
  · exact .error _ _

/-!
# Objects of fields
-/

theorem ofMembers_reread (h : fields.ReadAlike) (holder : Holder) (slots : Slots ts)
    (members : List (String × Json)) :
    Agree (· = ·) (fields.ofMembers holder slots (rereadMembers members))
      (fields.ofMembers holder slots members) := by
  induction members generalizing slots with
  | nil => exact .refl _
  | cons m ms ih =>
      rcases m with ⟨key, v⟩
      rw [rereadMembers, ofMembers, ofMembers]
      rcases fill_agree h key (fun hc => hc.reread holder v) slots with
        ⟨hfirst, hsecond⟩ | ⟨r, s, hfirst, hsecond, hagree⟩
      · rw [hfirst, hsecond]
        exact ih slots
      · rw [hfirst, hsecond]
        exact hagree.bind fun next _ hnext => hnext ▸ ih next

theorem ofOutlines_text (h : fields.ReadAlike) {d depth : Nat} (hdepth : d < depth)
    {members : List (String × Json)} (hmembers : ∀ m ∈ members, Legible d m.2)
    {rest : List Char} (hrest : EndsValue rest) (slots : Slots ts) :
    Agree (· = ·) (fields.ofOutlines depth slots (memberShapes members rest))
      (fields.ofMembers .value slots members) := by
  induction members generalizing slots with
  | nil => exact .refl _
  | cons m ms ih =>
      rcases m with ⟨key, v⟩
      rcases List.forall_mem_cons.mp hmembers with ⟨hv, hms⟩
      rcases memberShapes_cons key v ms hrest with ⟨text, next, hnext, hshapes⟩
      rw [hshapes, ofOutlines_cons, skip_shapeOf v hnext, ofMembers]
      rcases fill_agree h key (fun hc => hc.text hv hdepth hnext) slots with
        ⟨hfirst, hsecond⟩ | ⟨r, s, hfirst, hsecond, hagree⟩
      · rw [hfirst, hsecond]
        exact ih hms slots
      · rw [hfirst, hsecond]
        exact hagree.bind fun later _ hlater => hlater ▸ ih hms later

/-- The same slots are filled, and the same is held back but for fractions. -/
def HeldAlike (r s : Slots ts × List (String × Json)) : Prop :=
  r.1 = s.1 ∧ r.2 = rereadMembers s.2

theorem holdMembers_reread (h : fields.ReadAlike) (holder : Holder) (slots : Slots ts)
    (members : List (String × Json)) :
    Agree HeldAlike (Codec.holdMembers fields holder slots (rereadMembers members))
      (Codec.holdMembers fields holder slots members) := by
  induction members generalizing slots with
  | nil => exact .ok ⟨rfl, rfl⟩
  | cons m ms ih =>
      rcases m with ⟨key, v⟩
      rw [rereadMembers, Codec.holdMembers, Codec.holdMembers]
      rcases fill_agree h key (fun hc => hc.reread holder v) slots with
        ⟨hfirst, hsecond⟩ | ⟨r, s, hfirst, hsecond, hagree⟩
      · rw [hfirst, hsecond]
        refine (ih slots).bind fun r s hheld => ?_
        exact .ok ⟨hheld.1, congrArg _ hheld.2⟩
      · rw [hfirst, hsecond]
        exact hagree.bind fun next _ hnext => hnext ▸ ih next

theorem holdOutlines_text (h : fields.ReadAlike) {d depth : Nat} (hdepth : d < depth)
    {members : List (String × Json)} (hmembers : ∀ m ∈ members, Legible d m.2)
    {rest : List Char} (hrest : EndsValue rest) (slots : Slots ts) :
    Agree HeldAlike (Codec.holdOutlines fields depth slots (memberShapes members rest))
      (Codec.holdMembers fields .value slots members) := by
  induction members generalizing slots with
  | nil => exact .ok ⟨rfl, rfl⟩
  | cons m ms ih =>
      rcases m with ⟨key, v⟩
      rcases List.forall_mem_cons.mp hmembers with ⟨hv, hms⟩
      rcases memberShapes_cons key v ms hrest with ⟨text, next, hnext, hshapes⟩
      have hread : (shapeOf v next).read depth = .ok v.reread := read_shapeOf hv hdepth hnext
      rw [hshapes, holdOutlines_cons, hread, Codec.holdMembers]
      rcases fill_agree h key (fun hc => hc.text hv hdepth hnext) slots with
        ⟨hfirst, hsecond⟩ | ⟨r, s, hfirst, hsecond, hagree⟩
      · rw [hfirst, hsecond]
        refine (ih hms slots).bind fun r s hheld => ?_
        exact .ok ⟨hheld.1, congrArg _ hheld.2⟩
      · rw [hfirst, hsecond]
        exact hagree.bind fun later _ hlater => hlater ▸ ih hms later

end Fields

namespace Codec

/-!
# Codecs made of fields
-/

variable {ts us : List Type}

theorem pair_readsAlike {a : Codec α} {b : Codec β} (ha : a.ReadsAlike) (hb : b.ReadsAlike) :
    (pair a b).ReadsAlike where
  reread holder v := by
    cases v with
    | array items =>
        refine (Fields.rowOfItems_reread ?_ _ holder items).map fun _ _ heq => ?_
        · exact ⟨ha, hb, trivial⟩
        · rw [heq]
    | _ => exact .error _ _
  text {d depth v rest} hv hdepth _ := by
    cases v with
    | array items =>
        rcases hv.of_array with ⟨d, rfl, hitems⟩
        refine (Fields.rowOfArray_text ?_ hdepth hitems _ rest).map fun _ _ heq => ?_
        · exact ⟨ha, hb, trivial⟩
        · rw [heq]
    | null => exact .error _ _
    | bool b => exact .error _ _
    | object members => exact .error _ _
    | _ => exact agree_refuse _ "a tuple of size 2" _

theorem record_readsAlike {fields : Fields ts} (h : fields.ReadAlike) (name : String)
    (pack : Row ts → α) (unpack : α → Row ts) : (record name fields pack unpack).ReadsAlike where
  reread holder v := by
    cases v with
    | array items =>
        exact (Fields.rowOfItems_reread h _ holder items).map fun _ _ heq => congrArg pack heq
    | object members =>
        refine (Fields.ofMembers_reread h holder fields.blank members).bind fun _ _ heq => ?_
        exact heq ▸ Agree.refl _
    | _ => exact .error _ _
  text {d depth v rest} hv hdepth _ := by
    cases v with
    | array items =>
        rcases hv.of_array with ⟨d, rfl, hitems⟩
        exact (Fields.rowOfArray_text h hdepth hitems _ rest).map fun _ _ heq => congrArg pack heq
    | object members =>
        rcases hv.of_object with ⟨d, rfl, hmembers⟩
        have hinside := Nat.lt_sub_of_add_lt hdepth
        have hslots := Fields.ofOutlines_text h hinside hmembers (endsValue_brace rest) fields.blank
        rw [shapeOf, ofOutline_closed_record (by omega)]
        exact hslots.bind fun _ _ heq => heq ▸ Agree.refl _
    | null => exact .error _ _
    | bool b => exact .error _ _
    | _ => exact agree_refuse _ ("struct " ++ name) _

theorem finish_reread {inner : Fields ts} (h : inner.ReadAlike) {outer : Fields us}
    {pack : Row ts → Row us → α} {r s : Slots us × List (String × Json)}
    (hheld : Fields.HeldAlike r s) :
    Agree (· = ·)
      (do
        let outerRow ← outer.settle r.1
        let slots ← inner.ofMembers .held inner.blank r.2
        let innerRow ← inner.settle slots
        Except.ok (pack innerRow outerRow))
      (do
        let outerRow ← outer.settle s.1
        let slots ← inner.ofMembers .held inner.blank s.2
        let innerRow ← inner.settle slots
        Except.ok (pack innerRow outerRow)) := by
  rw [hheld.1, hheld.2]
  refine (Agree.refl (outer.settle s.1)).bind fun outerRow _ houter => ?_
  refine (Fields.ofMembers_reread h .held inner.blank s.2).bind fun _ _ heq => ?_
  rw [houter, heq]
  exact .refl _

theorem flattened_readsAlike {inner : Fields ts} {outer : Fields us} (hinner : inner.ReadAlike)
    (houter : outer.ReadAlike) (name : String) (pack : Row ts → Row us → α)
    (unpack : α → Row ts × Row us) : (flattened name inner outer pack unpack).ReadsAlike where
  reread holder v := by
    cases v with
    | object members =>
        refine (Fields.holdMembers_reread houter holder outer.blank members).bind
          fun _ _ hheld => ?_
        exact finish_reread hinner hheld
    | _ => exact .error _ _
  text {d depth v rest} hv hdepth _ := by
    cases v with
    | object members =>
        rcases hv.of_object with ⟨d, rfl, hmembers⟩
        have hinside := Nat.lt_sub_of_add_lt hdepth
        have hheld := Fields.holdOutlines_text houter hinside hmembers (endsValue_brace rest)
          outer.blank
        rw [shapeOf, ofOutline_closed_flattened (by omega)]
        exact hheld.bind fun _ _ hheld => finish_reread hinner hheld
    | null => exact .error _ _
    | bool b => exact .error _ _
    | array items => exact .error _ _
    | _ => exact agree_refuse _ ("struct " ++ name) _

end Codec
end Json
end WalletLedger
