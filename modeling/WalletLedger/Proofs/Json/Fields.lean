import WalletLedger.Json.Fields
import WalletLedger.Proofs.Json.Reread
import WalletLedger.Proofs.Results

/-!
# Reading fields in any order

While an object is read, the slots that are filled are those of the keys seen so far.  If
every member of the object holds what its field should get, the row comes out whatever
the order of the members.
-/

namespace WalletLedger
namespace Json
namespace Fields

/-!
# One member
-/

def seen : Fields ts → List String → Row ts → Slots ts
  | .nil, _, _ => ()
  | .cons f rest, keys, (x, row) => (if f.name ∈ keys then some x else none, rest.seen keys row)

/-- The field with the key, if there is one, gets its entry of the row from the reader. -/
def Accepts (key : String) (reader : {α : Type} → Codec α → Except Mismatch α) :
    Fields ts → Row ts → Prop
  | .nil, _ => True
  | .cons f rest, (x, row) => (f.name = key → reader f.codec = .ok x) ∧ rest.Accepts key reader row

/-- Every field has been seen or has a value for its absence. -/
def Complete (keys : List String) : Fields ts → Row ts → Prop
  | .nil, _ => True
  | .cons f rest, (x, row) =>
      (f.name ∈ keys ∨ f.absence = .anywhere x ∨ f.absence = .inObject x) ∧
        rest.Complete keys row

variable {ts : List Type}

theorem seen_nil (fields : Fields ts) (row : Row ts) : fields.seen [] row = fields.blank := by
  induction fields with
  | nil => rfl
  | cons f rest ih =>
      rcases row with ⟨x, row⟩
      rw [seen, blank, ih, if_neg List.not_mem_nil]

theorem seen_cons_of_not_mem {fields : Fields ts} {key : String} (h : key ∉ fields.names)
    (keys : List String) (row : Row ts) :
    fields.seen (key :: keys) row = fields.seen keys row := by
  induction fields with
  | nil => rfl
  | cons f rest ih =>
      rcases row with ⟨x, row⟩
      rw [names, List.mem_cons, not_or] at h
      have hmem : f.name ∈ key :: keys ↔ f.name ∈ keys := by
        rw [List.mem_cons]
        exact or_iff_right (Ne.symm h.1)
      rw [seen, seen, ih h.2, if_congr hmem rfl rfl]

theorem fill_cons {α : Type} (f : Field α) (rest : Fields ts) (key : String)
    (reader : {α : Type} → Codec α → Except Mismatch α) (slot : Option α) (slots : Slots ts) :
    (Fields.cons f rest).fill key reader (slot, slots) =
      if f.name = key then
        match slot with
        | some _ => some (.error (.duplicate f.name))
        | none => some ((reader f.codec).map fun x => (some x, slots))
      else
        (rest.fill key reader slots).map fun r => r.map fun slots => (slot, slots) := rfl

theorem fill_of_not_mem {fields : Fields ts} {key : String} (h : key ∉ fields.names)
    (reader : {α : Type} → Codec α → Except Mismatch α) (slots : Slots ts) :
    fields.fill key reader slots = none := by
  induction fields with
  | nil => rfl
  | cons f rest ih =>
      rcases slots with ⟨slot, slots⟩
      rw [names, List.mem_cons, not_or] at h
      rw [fill_cons, if_neg (Ne.symm h.1), ih h.2]
      rfl

theorem fill_of_accepts {fields : Fields ts} {key : String} {keys : List String}
    {row : Row ts} {reader : {α : Type} → Codec α → Except Mismatch α}
    (hnodup : fields.names.Nodup) (hmem : key ∈ fields.names) (hkey : key ∉ keys)
    (h : fields.Accepts key reader row) :
    fields.fill key reader (fields.seen keys row) =
      some (.ok (fields.seen (key :: keys) row)) := by
  induction fields with
  | nil => cases hmem
  | cons f rest ih =>
      rcases row with ⟨x, row⟩
      rcases h with ⟨hx, hrest⟩
      rw [names, List.nodup_cons] at hnodup
      by_cases hname : f.name = key
      · subst hname
        have hread : reader f.codec = .ok x := hx rfl
        rw [seen, seen, fill_cons, if_pos rfl, if_neg hkey, if_pos List.mem_cons_self, hread,
          seen_cons_of_not_mem hnodup.1]
        rfl
      · have hmem : key ∈ rest.names := (List.mem_cons.mp hmem).resolve_left (Ne.symm hname)
        have hsame : f.name ∈ key :: keys ↔ f.name ∈ keys := by
          rw [List.mem_cons]
          exact or_iff_right hname
        rw [seen, seen, fill_cons, if_neg hname, ih hnodup.2 hmem hrest,
          if_congr hsame rfl rfl]
        rfl

def entryOf {α : Type} (f : Field α) : Option α → Except Mismatch α
  | some x => .ok x
  | none =>
      match f.absence with
      | .inObject x | .anywhere x => .ok x
      | .refused => .error (.missing f.name)

theorem settle_cons {α : Type} (f : Field α) (rest : Fields ts) (slot : Option α)
    (slots : Slots ts) :
    (Fields.cons f rest).settle (slot, slots) = (do
      let x ← entryOf f slot
      let row ← rest.settle slots
      .ok (x, row)) := by
  rcases f with ⟨name, codec, absence, omitted⟩
  cases slot with
  | some x => rfl
  | none => cases absence <;> rfl

theorem settle_seen {fields : Fields ts} {keys : List String} {row : Row ts}
    (h : fields.Complete keys row) : fields.settle (fields.seen keys row) = .ok row := by
  induction fields with
  | nil => rfl
  | cons f rest ih =>
      rcases row with ⟨x, row⟩
      rcases h with ⟨hx, hrest⟩
      have hentry : entryOf f (if f.name ∈ keys then some x else none) = .ok x := by
        by_cases hkey : f.name ∈ keys
        · rw [if_pos hkey]
          rfl
        · rw [if_neg hkey]
          unfold entryOf
          rcases hx.resolve_left hkey with habsence | habsence <;> rw [habsence]
      rw [seen, settle_cons, ih hrest, hentry]
      rfl

/-!
# All members
-/

theorem ofMembers_seen {fields : Fields ts} {holder : Holder} {row : Row ts}
    (hnodup : fields.names.Nodup) {members : List (String × Json)} {keys : List String}
    (hkeys : (members.map Prod.fst ++ keys).Nodup)
    (h : ∀ m ∈ members, fields.Accepts m.1 (fun c => c.ofJson holder m.2) row) :
    fields.ofMembers holder (fields.seen keys row) members =
      .ok (fields.seen ((members.map Prod.fst).reverse ++ keys) row) := by
  induction members generalizing keys with
  | nil => rfl
  | cons m rest ih =>
      rcases m with ⟨key, v⟩
      rw [List.map_cons, List.cons_append] at hkeys
      have hfirst := h (key, v) List.mem_cons_self
      have hrest := ih (List.perm_middle.nodup_iff.mpr hkeys)
        fun m hm => h m (List.mem_cons_of_mem _ hm)
      have hfresh : key ∉ keys := fun hmem =>
        (List.nodup_cons.mp hkeys).1 (List.mem_append_right _ hmem)
      rw [List.map_cons, List.reverse_cons, List.append_assoc, List.singleton_append, ← hrest,
        ofMembers]
      by_cases hmem : key ∈ fields.names
      · rw [fill_of_accepts hnodup hmem hfresh hfirst]
        rfl
      · rw [fill_of_not_mem hmem, seen_cons_of_not_mem hmem]

theorem holdMembers_seen {fields : Fields ts} {holder : Holder} {row : Row ts}
    (hnodup : fields.names.Nodup) {members : List (String × Json)} {keys : List String}
    (hkeys : (members.map Prod.fst ++ keys).Nodup)
    (h : ∀ m ∈ members, fields.Accepts m.1 (fun c => c.ofJson holder m.2) row) :
    Codec.holdMembers fields holder (fields.seen keys row) members =
      .ok (fields.seen ((members.map Prod.fst).reverse ++ keys) row,
        members.filter fun m => m.1 ∉ fields.names) := by
  induction members generalizing keys with
  | nil => rfl
  | cons m rest ih =>
      rcases m with ⟨key, v⟩
      rw [List.map_cons, List.cons_append] at hkeys
      have hfirst := h (key, v) List.mem_cons_self
      have hrest := ih (List.perm_middle.nodup_iff.mpr hkeys)
        fun m hm => h m (List.mem_cons_of_mem _ hm)
      have hfresh : key ∉ keys := fun hmem =>
        (List.nodup_cons.mp hkeys).1 (List.mem_append_right _ hmem)
      rw [List.map_cons, List.reverse_cons, List.append_assoc, List.singleton_append,
        Codec.holdMembers]
      by_cases hmem : key ∈ fields.names
      · rw [fill_of_accepts hnodup hmem hfresh hfirst, List.filter_cons_of_neg (by simpa)]
        exact hrest
      · rw [fill_of_not_mem hmem, List.filter_cons_of_pos (by simpa),
          ← seen_cons_of_not_mem hmem, hrest]
        rfl

theorem ofOutlines_cons (fields : Fields ts) (depth : Nat) (slots : Slots ts) (key : String)
    (text : List Char) (shape : Outline) (rest : List (List Char × Outline)) :
    fields.ofOutlines depth slots ((escapeAppend key.toList ('"' :: text), shape) :: rest) =
      (match fields.fill key (fun c => c.ofOutline depth shape) slots with
      | some slots => slots >>= fun slots => fields.ofOutlines depth slots rest
      | none => orFault shape.skip >>= fun _ => fields.ofOutlines depth slots rest) := by
  rw [ofOutlines, readString_escapeAppend]
  change (match fields.fill (String.ofList key.toList) _ slots with
    | some slots => _
    | none => _) = _
  rw [String.ofList_toList]

/-- The members of an object that was written; those of other names are passed over. -/
theorem ofOutlines_seen {fields : Fields ts} {depth : Nat} {row : Row ts}
    (hnodup : fields.names.Nodup) {members : List (String × Json)} {keys : List String}
    (hkeys : (members.map Prod.fst ++ keys).Nodup)
    (h : ∀ m ∈ members, ∀ rest, EndsValue rest →
      fields.Accepts m.1 (fun c => c.ofOutline depth (shapeOf m.2 rest)) row)
    {rest : List Char} (hrest : EndsValue rest) :
    fields.ofOutlines depth (fields.seen keys row) (memberShapes members rest) =
      .ok (fields.seen ((members.map Prod.fst).reverse ++ keys) row) := by
  induction members generalizing keys with
  | nil => rfl
  | cons m ms ih =>
      rcases m with ⟨key, v⟩
      rw [List.map_cons, List.cons_append] at hkeys
      have hlater := ih (List.perm_middle.nodup_iff.mpr hkeys)
        fun m hm => h m (List.mem_cons_of_mem _ hm)
      have hfresh : key ∉ keys := fun hmem =>
        (List.nodup_cons.mp hkeys).1 (List.mem_append_right _ hmem)
      rcases memberShapes_cons key v ms hrest with ⟨text, next, hnext, hshapes⟩
      rw [hshapes, ofOutlines_cons, List.map_cons, List.reverse_cons, List.append_assoc,
        List.singleton_append, ← hlater]
      by_cases hmem : key ∈ fields.names
      · rw [fill_of_accepts hnodup hmem hfresh (h (key, v) List.mem_cons_self next hnext)]
        rfl
      · rw [fill_of_not_mem hmem, seen_cons_of_not_mem hmem, skip_shapeOf v hnext]
        rfl

theorem holdOutlines_cons (fields : Fields ts) (depth : Nat) (slots : Slots ts) (key : String)
    (text : List Char) (shape : Outline) (rest : List (List Char × Outline)) :
    Codec.holdOutlines fields depth slots ((escapeAppend key.toList ('"' :: text), shape) :: rest) =
      (match fields.fill key (fun c => c.ofOutline depth shape) slots with
      | some slots => slots >>= fun slots => Codec.holdOutlines fields depth slots rest
      | none => do
          let v ← orFault (shape.read depth)
          let (slots, held) ← Codec.holdOutlines fields depth slots rest
          Except.ok (slots, (key, v) :: held)) := by
  rw [Codec.holdOutlines, readString_escapeAppend]
  change (match fields.fill (String.ofList key.toList) _ slots with
    | some slots => _
    | none => _) = _
  rw [String.ofList_toList]

theorem holdOutlines_seen {fields : Fields ts} {depth : Nat} {row : Row ts}
    (hnodup : fields.names.Nodup) {members : List (String × Json)} {keys : List String}
    (hkeys : (members.map Prod.fst ++ keys).Nodup)
    (h : ∀ m ∈ members, ∀ rest, EndsValue rest →
      fields.Accepts m.1 (fun c => c.ofOutline depth (shapeOf m.2 rest)) row)
    (hread : ∀ m ∈ members, Reads depth m.2) {rest : List Char} (hrest : EndsValue rest) :
    Codec.holdOutlines fields depth (fields.seen keys row) (memberShapes members rest) =
      .ok (fields.seen ((members.map Prod.fst).reverse ++ keys) row,
        members.filter fun m => m.1 ∉ fields.names) := by
  induction members generalizing keys with
  | nil => rfl
  | cons m ms ih =>
      rcases m with ⟨key, v⟩
      rw [List.map_cons, List.cons_append] at hkeys
      have hlater := ih (List.perm_middle.nodup_iff.mpr hkeys)
        (fun m hm => h m (List.mem_cons_of_mem _ hm))
        (fun m hm => hread m (List.mem_cons_of_mem _ hm))
      have hfresh : key ∉ keys := fun hmem =>
        (List.nodup_cons.mp hkeys).1 (List.mem_append_right _ hmem)
      rcases memberShapes_cons key v ms hrest with ⟨text, next, hnext, hshapes⟩
      rw [hshapes, holdOutlines_cons, List.map_cons, List.reverse_cons, List.append_assoc,
        List.singleton_append]
      by_cases hmem : key ∈ fields.names
      · rw [fill_of_accepts hnodup hmem hfresh (h (key, v) List.mem_cons_self next hnext),
          List.filter_cons_of_neg (by simpa)]
        exact hlater
      · have hv : (shapeOf v next).read depth = .ok v :=
          hread (key, v) List.mem_cons_self next hnext
        rw [fill_of_not_mem hmem, List.filter_cons_of_pos (by simpa),
          ← seen_cons_of_not_mem hmem, hv]
        change (do
          let (slots, held) ← Codec.holdOutlines fields depth _ _
          Except.ok (slots, (key, v) :: held)) = _
        rw [hlater]
        rfl

/-!
# Objects that carry a row
-/

/-- The members of an object, each under a key of its own, hold the entries of a row. -/
structure Carries (fields : Fields ts) (row : Row ts) (holder : Holder)
    (members : List (String × Json)) : Prop where
  nodup : (members.map Prod.fst).Nodup
  accepts : ∀ m ∈ members, fields.Accepts m.1 (fun c => c.ofJson holder m.2) row
  complete : fields.Complete (members.map Prod.fst) row

theorem accepts_of_not_mem {fields : Fields ts} {key : String} (h : key ∉ fields.names)
    (reader : {α : Type} → Codec α → Except Mismatch α) (row : Row ts) :
    fields.Accepts key reader row := by
  induction fields with
  | nil => trivial
  | cons f rest ih =>
      rcases row with ⟨x, row⟩
      rw [names, List.mem_cons, not_or] at h
      exact ⟨fun hname => absurd hname.symm h.1, ih h.2 row⟩

theorem Complete.mono {fields : Fields ts} {keys others : List String} {row : Row ts}
    (h : fields.Complete keys row) (hkeys : ∀ key ∈ fields.names, key ∈ keys → key ∈ others) :
    fields.Complete others row := by
  induction fields with
  | nil => trivial
  | cons f rest ih =>
      rcases row with ⟨x, row⟩
      rcases h with ⟨hx, hrest⟩
      refine ⟨?_, ih hrest fun key hkey => hkeys key (List.mem_cons_of_mem _ hkey)⟩
      rcases hx with hx | hx
      · exact .inl (hkeys _ List.mem_cons_self hx)
      · exact .inr hx

namespace Carries

variable {fields : Fields ts} {row : Row ts} {holder : Holder} {members : List (String × Json)}

theorem settle (h : fields.Carries row holder members) :
    fields.settle (fields.seen ((members.map Prod.fst).reverse ++ []) row) = .ok row :=
  settle_seen (h.complete.mono fun _ _ hkey =>
    List.mem_append_left [] (List.mem_reverse.mpr hkey))

theorem read (hnodup : fields.names.Nodup) (h : fields.Carries row holder members) :
    ∃ slots, fields.ofMembers holder fields.blank members = .ok slots ∧
      fields.settle slots = .ok row := by
  refine ⟨_, ?_, h.settle⟩
  rw [← seen_nil fields row]
  exact ofMembers_seen hnodup (by rw [List.append_nil]; exact h.nodup) h.accepts

/-- Such an object is read as the row even if it holds other members, which come back. -/
theorem hold (hnodup : fields.names.Nodup) (h : fields.Carries row holder members) :
    ∃ slots, Codec.holdMembers fields holder fields.blank members =
        .ok (slots, members.filter fun m => m.1 ∉ fields.names) ∧
      fields.settle slots = .ok row := by
  refine ⟨_, ?_, h.settle⟩
  rw [← seen_nil fields row]
  exact holdMembers_seen hnodup (by rw [List.append_nil]; exact h.nodup) h.accepts

theorem filter (h : fields.Carries row holder members) {p : String × Json → Bool}
    (hp : ∀ m ∈ members, m.1 ∈ fields.names → p m = true) :
    fields.Carries row holder (members.filter p) where
  nodup := (List.filter_sublist.map Prod.fst).nodup h.nodup
  accepts m hm := h.accepts m (List.mem_of_mem_filter hm)
  complete := h.complete.mono fun key hname hkey => by
    rcases List.mem_map.mp hkey with ⟨m, hm, heq⟩
    exact List.mem_map.mpr ⟨m, List.mem_filter.mpr ⟨hm, hp m hm (heq ▸ hname)⟩, heq⟩

end Carries

structure CarriesText (fields : Fields ts) (row : Row ts) (depth : Nat)
    (members : List (String × Json)) : Prop where
  nodup : (members.map Prod.fst).Nodup
  accepts : ∀ m ∈ members, ∀ rest, EndsValue rest →
    fields.Accepts m.1 (fun c => c.ofOutline depth (shapeOf m.2 rest)) row
  complete : fields.Complete (members.map Prod.fst) row

namespace CarriesText

variable {fields : Fields ts} {row : Row ts} {depth : Nat} {members : List (String × Json)}

theorem settle (h : fields.CarriesText row depth members) :
    fields.settle (fields.seen ((members.map Prod.fst).reverse ++ []) row) = .ok row :=
  settle_seen (h.complete.mono fun _ _ hkey =>
    List.mem_append_left [] (List.mem_reverse.mpr hkey))

theorem read (hnodup : fields.names.Nodup) (h : fields.CarriesText row depth members)
    {rest : List Char} (hrest : EndsValue rest) :
    ∃ slots, fields.ofOutlines depth fields.blank (memberShapes members rest) = .ok slots ∧
      fields.settle slots = .ok row := by
  refine ⟨_, ?_, h.settle⟩
  rw [← seen_nil fields row]
  exact ofOutlines_seen hnodup (by rw [List.append_nil]; exact h.nodup) h.accepts hrest

theorem hold (hnodup : fields.names.Nodup) (h : fields.CarriesText row depth members)
    (hread : ∀ m ∈ members, Reads depth m.2) {rest : List Char} (hrest : EndsValue rest) :
    ∃ slots, Codec.holdOutlines fields depth fields.blank (memberShapes members rest) =
        .ok (slots, members.filter fun m => m.1 ∉ fields.names) ∧
      fields.settle slots = .ok row := by
  refine ⟨_, ?_, h.settle⟩
  rw [← seen_nil fields row]
  exact holdOutlines_seen hnodup (by rw [List.append_nil]; exact h.nodup) h.accepts hread hrest

end CarriesText

theorem keys_toMembers (fields : Fields ts) (row : Row ts) :
    ((fields.toMembers row).map Prod.fst).Sublist fields.names := by
  induction fields with
  | nil => exact .slnil
  | cons f rest ih =>
      rcases row with ⟨x, row⟩
      rw [toMembers, names]
      split
      · exact (ih row).cons _
      · exact (ih row).cons_cons _

end Fields
end Json
end WalletLedger
