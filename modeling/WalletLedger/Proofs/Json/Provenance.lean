import WalletLedger.Proofs.Json.Fields
import WalletLedger.Proofs.Json.Sorting

/-!
# Where values that were read come from

Whatever a compound codec reads from a text is made of what its parts read there, and of
the values that stand for absent fields.  So a property of everything that a part reads is
one of all that was read through it.
-/

namespace WalletLedger
namespace Json

variable {α β : Type}

def Codec.CanRead (c : Codec α) (x : α) : Prop :=
  ∃ depth shape, c.ofOutline depth shape = .ok x

/-- The entry was read by the codec of the field or stands for its absence. -/
def Field.Allows (f : Field α) (x : α) : Prop :=
  f.codec.CanRead x ∨ f.absence = .anywhere x ∨ f.absence = .inObject x

namespace Fields

def Allow : Fields ts → Row ts → Prop
  | .nil, _ => True
  | .cons f rest, (x, row) => f.Allows x ∧ rest.Allow row

def HaveRead : Fields ts → Slots ts → Prop
  | .nil, _ => True
  | .cons f rest, (slot, slots) => (∀ x, slot = some x → f.codec.CanRead x) ∧ rest.HaveRead slots

variable {ts : List Type}

theorem haveRead_blank (fields : Fields ts) : fields.HaveRead fields.blank := by
  induction fields with
  | nil => trivial
  | cons f rest ih =>
      refine ⟨?_, ih⟩
      intro x h
      cases h

theorem haveRead_fill {fields : Fields ts} {key : String} {depth : Nat} {shape : Outline}
    {slots filled : Slots ts} (h : fields.HaveRead slots)
    (hfill : fields.fill key (fun c => c.ofOutline depth shape) slots = some (.ok filled)) :
    fields.HaveRead filled := by
  induction fields with
  | nil => cases hfill
  | cons f rest ih =>
      rcases slots with ⟨slot, slots⟩
      rcases h with ⟨hslot, hslots⟩
      rw [fill_cons] at hfill
      split at hfill
      · cases slot with
        | some x => cases hfill
        | none =>
            rcases Results.map_eq_ok_iff.mp (Option.some.inj hfill) with ⟨x, hx, heq⟩
            rw [← heq]
            refine ⟨?_, hslots⟩
            intro y hy
            cases hy
            exact ⟨depth, shape, hx⟩
      · rcases Option.map_eq_some_iff.mp hfill with ⟨r, hr, hmap⟩
        rcases Results.map_eq_ok_iff.mp hmap with ⟨rest', hrest', heq⟩
        rw [hrest'] at hr
        rw [← heq]
        exact ⟨hslot, ih hslots hr⟩

theorem haveRead_ofOutlines {fields : Fields ts} {depth : Nat}
    {members : List (List Char × Outline)} {slots filled : Slots ts}
    (h : fields.HaveRead slots) (hread : fields.ofOutlines depth slots members = .ok filled) :
    fields.HaveRead filled := by
  induction members generalizing slots with
  | nil =>
      cases hread
      exact h
  | cons m rest ih =>
      rcases m with ⟨key, shape⟩
      rw [ofOutlines] at hread
      rcases Results.bind_eq_ok_iff.mp hread with ⟨⟨cs, _⟩, _, hread⟩
      simp only at hread
      split at hread
      · next r hfill =>
          rcases Results.bind_eq_ok_iff.mp hread with ⟨next, hr, hread⟩
          rw [hr] at hfill
          exact ih (haveRead_fill h hfill) hread
      · rcases Results.bind_eq_ok_iff.mp hread with ⟨_, _, hread⟩
        exact ih h hread

theorem allow_settle {fields : Fields ts} {slots : Slots ts} {row : Row ts}
    (h : fields.HaveRead slots) (hsettle : fields.settle slots = .ok row) :
    fields.Allow row := by
  induction fields with
  | nil => trivial
  | cons f rest ih =>
      rcases slots with ⟨slot, slots⟩
      rcases h with ⟨hslot, hslots⟩
      rw [settle_cons] at hsettle
      rcases Results.bind_eq_ok_iff.mp hsettle with ⟨x, hx, hsettle⟩
      rcases Results.bind_eq_ok_iff.mp hsettle with ⟨row', hrow, heq⟩
      cases heq
      refine ⟨?_, ih hslots hrow⟩
      cases slot with
      | some y =>
          cases hx
          exact .inl (hslot _ rfl)
      | none =>
          rw [entryOf] at hx
          split at hx
          · next habsence =>
              cases hx
              exact .inr (.inr habsence)
          · next habsence =>
              cases hx
              exact .inr (.inl habsence)
          · cases hx

theorem allow_ofOutlineItems {fields : Fields ts} {wanted : String} {depth place : Nat}
    {ending : ArrayEnd} {items rest : List Outline} {row : Row ts}
    (h : fields.ofOutlineItems wanted depth ending place items = .ok (row, rest)) :
    fields.Allow row := by
  induction fields generalizing place items with
  | nil => trivial
  | cons f fields ih =>
      cases items with
      | cons item items =>
          rcases Results.bind_eq_ok_iff.mp h with ⟨x, hx, h⟩
          rcases Results.bind_eq_ok_iff.mp h with ⟨⟨row', _⟩, hrow, heq⟩
          cases heq
          exact ⟨.inl ⟨depth, item, hx⟩, ih hrow⟩
      | nil =>
          rcases Results.bind_eq_ok_iff.mp h with ⟨_, _, h⟩
          cases habsence : f.absence with
          | anywhere x =>
              rw [habsence] at h
              rcases Results.bind_eq_ok_iff.mp h with ⟨⟨row', _⟩, hrow, heq⟩
              cases heq
              exact ⟨.inr (.inl habsence), ih hrow⟩
          | refused =>
              rw [habsence] at h
              cases h
          | inObject x =>
              rw [habsence] at h
              cases h

theorem allow_rowOfArray {fields : Fields ts} {wanted : String} {depth : Nat}
    {items : List Outline} {ending : ArrayEnd} {row : Row ts}
    (h : fields.rowOfArray wanted depth items ending = .ok row) : fields.Allow row := by
  unfold rowOfArray at h
  rcases Results.bind_eq_ok_iff.mp h with ⟨_, _, h⟩
  rcases Results.bind_eq_ok_iff.mp h with ⟨⟨row', rest⟩, hrow, h⟩
  simp only at h
  split at h
  · rcases Results.bind_eq_ok_iff.mp h with ⟨_, _, heq⟩
    cases heq
    exact allow_ofOutlineItems hrow
  · cases h

end Fields

theorem refuse_ne_ok (shape : Outline) (wanted : String) (x : α) :
    shape.refuse wanted ≠ .ok x := by
  unfold Outline.refuse
  cases shape.found <;> exact nofun

namespace Codec

variable {ts : List Type}

theorem canRead_decode {c : Codec α} {text : String} {x : α} (h : c.decode text = .ok x) :
    c.CanRead x := by
  unfold decode at h
  rcases Results.bind_eq_ok_iff.mp h with ⟨y, hy, h⟩
  rcases Results.bind_eq_ok_iff.mp h with ⟨_, _, heq⟩
  cases heq
  exact ⟨_, _, hy⟩

theorem canRead_iso {c : Codec α} {pack : α → β} {unpack : β → α} {y : β}
    (h : (c.iso pack unpack).CanRead y) : ∃ x, pack x = y := by
  rcases h with ⟨depth, shape, h⟩
  rcases Results.map_eq_ok_iff.mp h with ⟨x, _, heq⟩
  exact ⟨x, heq⟩

theorem canRead_list {c : Codec α} {xs : List α} (h : c.list.CanRead xs) :
    ∀ x ∈ xs, c.CanRead x := by
  rcases h with ⟨depth, shape, h⟩
  cases shape with
  | array items ending =>
      rcases Results.bind_eq_ok_iff.mp h with ⟨inside, _, h⟩
      rcases Results.bind_eq_ok_iff.mp h with ⟨ys, hys, h⟩
      rcases Results.bind_eq_ok_iff.mp h with ⟨_, _, heq⟩
      cases heq
      intro x hx
      rcases Results.exists_of_mem_mapM hys hx with ⟨item, _, hitem⟩
      exact ⟨inside, item, hitem⟩
  | number text => exact absurd h (refuse_ne_ok (.number text) _ _)
  | string text => exact absurd h (refuse_ne_ok (.string text) _ _)
  | _ => cases h

theorem canRead_pair {a : Codec α} {b : Codec β} {x : α × β} (h : (pair a b).CanRead x) :
    a.CanRead x.1 ∧ b.CanRead x.2 := by
  rcases h with ⟨depth, shape, h⟩
  cases shape with
  | array items ending =>
      rcases Results.map_eq_ok_iff.mp h with ⟨⟨y, z, _⟩, hrow, heq⟩
      rcases Fields.allow_rowOfArray hrow with ⟨hy, hz, _⟩
      cases heq
      rcases hy with hy | hy | hy
      · rcases hz with hz | hz | hz
        · exact ⟨hy, hz⟩
        · cases hz
        · cases hz
      · cases hy
      · cases hy
  | number text => exact absurd h (refuse_ne_ok (.number text) _ _)
  | string text => exact absurd h (refuse_ne_ok (.string text) _ _)
  | _ => cases h

theorem canRead_record {name : String} {fields : Fields ts} {pack : Row ts → α}
    {unpack : α → Row ts} {x : α} (h : (record name fields pack unpack).CanRead x) :
    ∃ row, fields.Allow row ∧ pack row = x := by
  rcases h with ⟨depth, shape, h⟩
  cases shape with
  | array items ending =>
      rcases Results.map_eq_ok_iff.mp h with ⟨row, hrow, heq⟩
      exact ⟨row, Fields.allow_rowOfArray hrow, heq⟩
  | object members ending =>
      rcases Results.bind_eq_ok_iff.mp h with ⟨_, _, h⟩
      rcases Results.bind_eq_ok_iff.mp h with ⟨slots, hslots, h⟩
      rcases Results.bind_eq_ok_iff.mp h with ⟨_, _, h⟩
      rcases Results.bind_eq_ok_iff.mp h with ⟨row, hrow, heq⟩
      cases heq
      exact ⟨row, Fields.allow_settle
        (Fields.haveRead_ofOutlines (Fields.haveRead_blank fields) hslots) hrow, rfl⟩
  | number text => exact absurd h (refuse_ne_ok (.number text) _ _)
  | string text => exact absurd h (refuse_ne_ok (.string text) _ _)
  | _ => cases h

end Codec

/-!
# Numbers
-/

/-- What comes back, if anything does, is a number that a text can have. -/
def GivesNumber (r : Except Fault (Json × List Char)) : Prop :=
  ∀ p, r = .ok p → p.1.IsNumber

theorem givesNumber_error (f : Fault) : GivesNumber (.error f) :=
  nofun

theorem givesNumber_bind {r : Except Fault Json} (h : ∀ v, r = .ok v → v.IsNumber)
    (rest : List Char) : GivesNumber (r >>= fun value => .ok (value, rest)) := by
  intro p hp
  rcases Results.bind_eq_ok_iff.mp hp with ⟨value, hvalue, heq⟩
  cases heq
  exact h value hvalue

theorem isNumber_of_fraction {isNegative : Bool} {digits : Nat} {exponent : Int} {v : Json}
    (h : fraction isNegative digits exponent = .ok v) : v.IsNumber := by
  -- Opened as a function, so that nobody tries to compute the rounding.
  have hopen : ∀ f, f = fraction → f isNegative digits exponent = .ok v → v.IsNumber := by
    delta fraction
    intro f hf h
    rw [hf] at h
    beta_reduce at h
    split at h
    · next hmagnitude =>
        cases h
        exact Number.Magnitude.canonical_ofDecimal? hmagnitude
    · cases h
  exact hopen fraction rfl h

theorem isNumber_of_wholeNumber {isNegative : Bool} {digits : Nat} {v : Json}
    (h : wholeNumber isNegative digits = .ok v) : v.IsNumber := by
  unfold wholeNumber at h
  split at h
  · split at h
    · next hdigits =>
        cases h
        constructor
        · exact Int.neg_neg_of_pos (Int.natCast_pos.mpr hdigits.1)
        · rw [Int.natAbs_neg]
          exact hdigits.2
    · exact isNumber_of_fraction h
  · cases h
    trivial

theorem givesNumber_fraction (isNegative : Bool) (digits : Nat) (exponent : Int)
    (rest : List Char) :
    GivesNumber (fraction isNegative digits exponent >>= fun value => .ok (value, rest)) :=
  givesNumber_bind (fun _ h => isNumber_of_fraction h) rest

theorem readExponent_givesNumber (isNegative : Bool) (digits : Nat) (exponent : Int)
    (cs : List Char) : GivesNumber (readExponent isNegative digits exponent cs) := by
  unfold readExponent
  split
  simp only
  split
  · exact givesNumber_error _
  · split
    · exact givesNumber_fraction _ _ _ _
    · exact givesNumber_error _

theorem readPlaces_givesNumber (isNegative : Bool) (digits : Nat) (exponent : Int)
    (cs : List Char) : GivesNumber (readPlaces isNegative digits exponent cs) := by
  unfold readPlaces
  simp only
  split
  · split
    · exact readExponent_givesNumber _ _ _ _
    · exact givesNumber_fraction _ _ _ _
  · split
    · exact givesNumber_error _
    · exact givesNumber_error _

theorem behindWhole_givesNumber (isNegative : Bool) (digits excess : Nat) (cs : List Char) :
    GivesNumber (readUnsignedNumber.behindWhole isNegative digits cs excess) := by
  unfold readUnsignedNumber.behindWhole
  split
  · exact readPlaces_givesNumber _ _ _ _
  · split
    · exact readExponent_givesNumber _ _ _ _
    · split
      · exact givesNumber_fraction _ _ _ _
      · exact givesNumber_bind (fun _ h => isNumber_of_wholeNumber h) _

theorem readUnsignedNumber_givesNumber (isNegative : Bool) (cs : List Char) :
    GivesNumber (readUnsignedNumber isNegative cs) := by
  unfold readUnsignedNumber
  split
  · exact givesNumber_error _
  · split
    · exact givesNumber_error _
    · exact behindWhole_givesNumber _ _ _ _
  · split
    · simp only
      split
      · exact behindWhole_givesNumber _ _ _ _
      · exact behindWhole_givesNumber _ _ _ _
    · exact givesNumber_error _

theorem readNumber_givesNumber (cs : List Char) : GivesNumber (readNumber cs) := by
  unfold readNumber
  split
  · exact readUnsignedNumber_givesNumber _ _
  · exact readUnsignedNumber_givesNumber _ _

/-!
# Any value
-/

theorem exists_of_enter {depth inside : Nat} (h : Outline.enter depth = .ok inside) :
    1 < depth ∧ inside = depth - 1 := by
  unfold Outline.enter at h
  split at h
  · cases h
  · next hle =>
      cases h
      exact ⟨Nat.not_le.mp hle, rfl⟩

mutual

/-- What was read is no deeper than the reader may go. -/
theorem legible_of_read (shape : Outline) {depth : Nat} {v : Json}
    (h : shape.read depth = .ok v) : Legible (depth - 1) v := by
  cases shape with
  | null =>
      cases h
      exact .null _
  | bool b =>
      cases h
      exact .bool _ b
  | number text =>
      rcases Results.map_eq_ok_iff.mp h with ⟨p, hp, rfl⟩
      exact .number _ (readNumber_givesNumber text p hp)
  | string text =>
      rcases Results.map_eq_ok_iff.mp h with ⟨⟨cs, _⟩, _, heq⟩
      cases heq
      exact .string _ _
  | array items ending =>
      rw [Outline.read] at h
      rcases Results.bind_eq_ok_iff.mp h with ⟨inside, henter, h⟩
      rcases Results.bind_eq_ok_iff.mp h with ⟨values, hvalues, h⟩
      rcases Results.bind_eq_ok_iff.mp h with ⟨_, _, heq⟩
      cases heq
      rcases exists_of_enter henter with ⟨hdepth, rfl⟩
      have hinside := Legible.array (legible_of_readItems items hvalues)
      rw [Nat.sub_add_cancel (Nat.le_sub_one_of_lt hdepth)] at hinside
      exact hinside
  | object members ending =>
      rw [Outline.read] at h
      rcases Results.bind_eq_ok_iff.mp h with ⟨inside, henter, h⟩
      rcases Results.bind_eq_ok_iff.mp h with ⟨values, hvalues, h⟩
      rcases Results.bind_eq_ok_iff.mp h with ⟨_, _, heq⟩
      cases heq
      rcases exists_of_enter henter with ⟨hdepth, rfl⟩
      have hinside := Legible.object (legible_of_readMembers members hvalues)
      rw [Nat.sub_add_cancel (Nat.le_sub_one_of_lt hdepth)] at hinside
      exact hinside
  | broken why => cases h

theorem legible_of_readItems (items : List Outline) {depth : Nat} {values : List Json}
    (h : Outline.readItems depth items = .ok values) : ∀ v ∈ values, Legible (depth - 1) v := by
  cases items with
  | nil =>
      cases h
      exact fun v hv => absurd hv List.not_mem_nil
  | cons item rest =>
      rw [Outline.readItems] at h
      rcases Results.bind_eq_ok_iff.mp h with ⟨value, hvalue, h⟩
      rcases Results.bind_eq_ok_iff.mp h with ⟨others, hothers, heq⟩
      cases heq
      exact List.forall_mem_cons.mpr ⟨legible_of_read item hvalue, legible_of_readItems rest hothers⟩

theorem legible_of_readMembers (members : List (List Char × Outline)) {depth : Nat}
    {values : List (String × Json)} (h : Outline.readMembers depth members = .ok values) :
    ∀ m ∈ values, Legible (depth - 1) m.2 := by
  match members with
  | [] =>
      cases h
      exact fun m hm => absurd hm List.not_mem_nil
  | (key, item) :: rest =>
      rw [Outline.readMembers] at h
      rcases Results.bind_eq_ok_iff.mp h with ⟨_, _, h⟩
      rcases Results.bind_eq_ok_iff.mp h with ⟨value, hvalue, h⟩
      rcases Results.bind_eq_ok_iff.mp h with ⟨others, hothers, heq⟩
      cases heq
      exact List.forall_mem_cons.mpr
        ⟨legible_of_read item hvalue, legible_of_readMembers rest hothers⟩

end

theorem legible_of_parse {text : String} {v : Json} (h : parse text = .ok v) :
    Legible (Outline.depthLimit - 1) v := by
  unfold parse at h
  rcases Results.bind_eq_ok_iff.mp h with ⟨w, hw, h⟩
  rcases Results.bind_eq_ok_iff.mp h with ⟨_, _, heq⟩
  cases heq
  exact legible_sorted (legible_of_read _ hw)

/-!
# Null

Nothing but null is read as null, so a member that may be missing never comes as a null.
-/

theorem Outline.eq_null_of_read {shape : Outline} {depth : Nat}
    (h : shape.read depth = .ok .null) : shape = .null := by
  cases shape with
  | null => rfl
  | bool b => cases h
  | number text =>
      rcases Results.map_eq_ok_iff.mp h with ⟨⟨value, rest⟩, hread, heq⟩
      rw [show value = .null from heq] at hread
      exact absurd (readNumber_givesNumber text _ hread) id
  | string text =>
      rcases Results.map_eq_ok_iff.mp h with ⟨_, _, heq⟩
      cases heq
  | array items ending =>
      rw [read] at h
      rcases Results.bind_eq_ok_iff.mp h with ⟨_, _, h⟩
      rcases Results.bind_eq_ok_iff.mp h with ⟨_, _, h⟩
      rcases Results.bind_eq_ok_iff.mp h with ⟨_, _, heq⟩
      cases heq
  | object members ending =>
      rw [read] at h
      rcases Results.bind_eq_ok_iff.mp h with ⟨_, _, h⟩
      rcases Results.bind_eq_ok_iff.mp h with ⟨_, _, h⟩
      rcases Results.bind_eq_ok_iff.mp h with ⟨_, _, heq⟩
      cases heq
  | broken why => cases h

theorem eq_null_of_sorted {v : Json} (h : v.sorted = .null) : v = .null := by
  cases v <;> first | rfl | cases h

theorem ok_of_orFault {α : Type} {r : Except Fault α} {x : α} (h : orFault r = .ok x) :
    r = .ok x := by
  cases r with
  | ok y =>
      cases h
      rfl
  | error f => cases h

theorem Codec.not_canRead_some_null : ¬ Codec.json.optional.CanRead (some .null) := by
  intro hread
  rcases hread with ⟨depth, shape, h⟩
  by_cases hshape : shape = .null
  · subst hshape
    cases h
  · have h : (Codec.json.ofOutline depth shape).map some = .ok (some .null) := by
      cases shape <;> first | exact h | exact absurd rfl hshape
    rcases Results.map_eq_ok_iff.mp h with ⟨v, hv, heq⟩
    cases heq
    rcases Results.map_eq_ok_iff.mp hv with ⟨w, hw, hsorted⟩
    rw [eq_null_of_sorted hsorted] at hw
    exact hshape (Outline.eq_null_of_read (ok_of_orFault hw))

end Json
end WalletLedger
