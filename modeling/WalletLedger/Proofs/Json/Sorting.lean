import WalletLedger.Proofs.Json.Reread

/-!
# Members in order

A value that was read has the members of its objects in order.  Sorting loses no member as
long as no key stands twice, and a value in order stays as it is.
-/

namespace WalletLedger
namespace Json

/-!
# Putting members into their places
-/

def Ascending (members : List (String × Json)) : Prop :=
  members.Pairwise fun m n => m.1 < n.1

theorem mem_insertMember {key : String} {value : Json} {members : List (String × Json)}
    {m : String × Json} (h : m ∈ insertMember key value members) :
    m = (key, value) ∨ m ∈ members := by
  induction members with
  | nil => exact .inl (List.mem_singleton.mp h)
  | cons n rest ih =>
      rcases n with ⟨k, v⟩
      unfold insertMember at h
      split at h
      · exact List.mem_cons.mp h
      · split at h
        · rcases List.mem_cons.mp h with h | h
          · exact .inl h
          · exact .inr (List.mem_cons_of_mem _ h)
        · rcases List.mem_cons.mp h with h | h
          · exact .inr (h ▸ List.mem_cons_self)
          · rcases ih h with h | h
            · exact .inl h
            · exact .inr (List.mem_cons_of_mem _ h)

theorem ascending_insertMember {key : String} {value : Json} {members : List (String × Json)}
    (h : Ascending members) : Ascending (insertMember key value members) := by
  induction members with
  | nil => exact List.pairwise_singleton _ _
  | cons n rest ih =>
      rcases n with ⟨k, v⟩
      rcases List.pairwise_cons.mp h with ⟨hfirst, hrest⟩
      unfold insertMember
      split
      · next hlt =>
          refine List.pairwise_cons.mpr ⟨?_, h⟩
          intro m hm
          rcases List.mem_cons.mp hm with rfl | hm
          · exact hlt
          · exact lt_trans hlt (hfirst m hm)
      · next hge =>
          split
          · next heq =>
              refine List.pairwise_cons.mpr ⟨?_, hrest⟩
              intro m hm
              rw [heq]
              exact hfirst m hm
          · next hne =>
              refine List.pairwise_cons.mpr ⟨?_, ih hrest⟩
              intro m hm
              rcases mem_insertMember hm with rfl | hm
              · exact lt_of_le_of_ne (not_lt.mp hge) (Ne.symm hne)
              · exact hfirst m hm

theorem perm_insertMember {key : String} {value : Json} {members : List (String × Json)}
    (h : key ∉ members.map Prod.fst) :
    (insertMember key value members).Perm ((key, value) :: members) := by
  induction members with
  | nil => exact .refl _
  | cons n rest ih =>
      rcases n with ⟨k, v⟩
      rw [List.map_cons, List.mem_cons, not_or] at h
      unfold insertMember
      split
      · exact .refl _
      · rw [if_neg h.1]
        exact ((ih h.2).cons _).trans (.swap _ _ _)

/-!
# Sorting members
-/

theorem mem_sortMembers {members : List (String × Json)} {m : String × Json}
    (h : m ∈ sortMembers members) : m ∈ members := by
  have hfold : ∀ sorted : List (String × Json),
      m ∈ members.foldl (fun sorted m => insertMember m.1 m.2 sorted) sorted →
        m ∈ sorted ∨ m ∈ members := by
    clear h
    induction members with
    | nil => exact fun _ h => .inl h
    | cons n rest ih =>
        intro sorted h
        rcases ih _ h with h | h
        · rcases mem_insertMember h with h | h
          · exact .inr (h ▸ List.mem_cons_self)
          · exact .inl h
        · exact .inr (List.mem_cons_of_mem _ h)
  exact (hfold [] h).resolve_left List.not_mem_nil

theorem ascending_sortMembers (members : List (String × Json)) :
    Ascending (sortMembers members) := by
  have hfold : ∀ sorted : List (String × Json), Ascending sorted →
      Ascending (members.foldl (fun sorted m => insertMember m.1 m.2 sorted)
        sorted) := by
    induction members with
    | nil => exact fun _ h => h
    | cons n rest ih => exact fun sorted h => ih _ (ascending_insertMember h)
  exact hfold [] .nil

/-- Sorting keeps all members if every key stands once. -/
theorem perm_sortMembers {members : List (String × Json)}
    (h : (members.map Prod.fst).Nodup) : (sortMembers members).Perm members := by
  have hfold : ∀ sorted : List (String × Json), ((sorted ++ members).map Prod.fst).Nodup →
      (members.foldl (fun sorted m => insertMember m.1 m.2 sorted) sorted).Perm
        (sorted ++ members) := by
    clear h
    induction members with
    | nil =>
        intro sorted _
        rw [List.append_nil]
        exact .refl _
    | cons n rest ih =>
        intro sorted h
        rcases n with ⟨key, value⟩
        have hmiddle : (sorted ++ (key, value) :: rest).Perm ((key, value) :: (sorted ++ rest)) :=
          List.perm_middle
        have hnodup := (hmiddle.map Prod.fst).nodup_iff.mp h
        rw [List.map_cons, List.nodup_cons, List.map_append, List.mem_append, not_or] at hnodup
        have hinsert := @perm_insertMember key value sorted hnodup.1.1
        have happend : (insertMember key value sorted ++ rest).Perm
            (sorted ++ (key, value) :: rest) :=
          (hinsert.append_right rest).trans hmiddle.symm
        have hkeys := (happend.map Prod.fst).nodup_iff.mpr h
        exact (ih _ hkeys).trans happend
  exact hfold [] h

theorem nodup_of_ascending {members : List (String × Json)} (h : Ascending members) :
    (members.map Prod.fst).Nodup :=
  List.pairwise_map.mpr (h.imp fun hlt => ne_of_lt hlt)

theorem sortMembers_of_ascending {members : List (String × Json)} (h : Ascending members) :
    sortMembers members = members := by
  refine (perm_sortMembers (nodup_of_ascending h)).eq_of_pairwise ?_ (ascending_sortMembers _) h
  intro m n _ _ hlt hgt
  exact absurd hgt (lt_asymm hlt)

/-!
# Sorting values
-/

theorem sortedItems_eq_map (items : List Json) : sortedItems items = items.map sorted := by
  induction items with
  | nil => rfl
  | cons v rest ih => rw [sortedItems, ih, List.map_cons]

theorem sortedMembers_eq_map (members : List (String × Json)) :
    sortedMembers members = members.map fun (key, v) => (key, v.sorted) := by
  induction members with
  | nil => rfl
  | cons m rest ih => rw [sortedMembers, ih, List.map_cons]

theorem keys_sortedMembers (members : List (String × Json)) :
    (sortedMembers members).map Prod.fst = members.map Prod.fst := by
  rw [sortedMembers_eq_map, List.map_map]
  rfl

theorem mem_sorted_members {members : List (String × Json)}
    (h : (members.map Prod.fst).Nodup) {key : String} {w : Json} :
    (key, w) ∈ sortMembers (sortedMembers members) ↔ ∃ v, (key, v) ∈ members ∧ w = v.sorted := by
  have hnodup : ((sortedMembers members).map Prod.fst).Nodup := by
    rw [keys_sortedMembers]
    exact h
  rw [(perm_sortMembers hnodup).mem_iff, sortedMembers_eq_map, List.mem_map]
  constructor
  · intro hmem
    rcases hmem with ⟨⟨k, v⟩, hv, heq⟩
    cases heq
    exact ⟨v, hv, rfl⟩
  · intro hmem
    rcases hmem with ⟨v, hv, heq⟩
    exact ⟨(key, v), hv, by rw [heq]⟩

theorem exists_of_mem_sorted {members : List (String × Json)} {m : String × Json}
    (h : m ∈ sortMembers (sortedMembers members)) : ∃ n ∈ members, (n.1, n.2.sorted) = m := by
  have hm := mem_sortMembers h
  rw [sortedMembers_eq_map] at hm
  exact List.mem_map.mp hm

theorem sorted_sorted {d : Nat} {v : Json} (h : Plain d v) : v.sorted.sorted = v.sorted := by
  induction h with
  | null => rfl
  | bool => rfl
  | unsigned => rfl
  | string => rfl
  | array _ ih =>
      rw [sorted, sorted, sortedItems_eq_map, sortedItems_eq_map, List.map_map]
      exact congrArg array (List.map_congr_left ih)
  | @object _ members _ ih =>
      have hsame : sortedMembers (sortMembers (sortedMembers members)) =
          sortMembers (sortedMembers members) := by
        rw [sortedMembers_eq_map]
        refine Eq.trans (List.map_congr_left ?_) (List.map_id _)
        intro m hm
        rcases exists_of_mem_sorted hm with ⟨n, hn, heq⟩
        rw [← heq]
        exact congrArg (Prod.mk n.1) (ih n hn)
      rw [sorted, sorted, hsame, sortMembers_of_ascending (ascending_sortMembers _)]

theorem plain_sorted {d : Nat} {v : Json} (h : Plain d v) : Plain d v.sorted := by
  induction h with
  | null d => exact .null d
  | bool d b => exact .bool d b
  | unsigned d n => exact .unsigned d n
  | string d s => exact .string d s
  | array _ ih =>
      rw [sorted, sortedItems_eq_map]
      refine .array fun w hw => ?_
      rcases List.mem_map.mp hw with ⟨v, hv, heq⟩
      exact heq ▸ ih v hv
  | object _ ih =>
      rw [sorted]
      refine .object fun m hm => ?_
      rcases exists_of_mem_sorted hm with ⟨n, hn, heq⟩
      exact heq ▸ ih n hn

theorem legible_sorted {d : Nat} {v : Json} (h : Legible d v) : Legible d v.sorted := by
  induction h with
  | null d => exact .null d
  | bool d b => exact .bool d b
  | @number d v hv =>
      have hsame : v.sorted = v := by
        cases v with
        | array items => exact absurd hv id
        | object members => exact absurd hv id
        | _ => rfl
      rw [hsame]
      exact .number d hv
  | string d s => exact .string d s
  | array _ ih =>
      rw [sorted, sortedItems_eq_map]
      refine .array fun w hw => ?_
      rcases List.mem_map.mp hw with ⟨v, hv, heq⟩
      exact heq ▸ ih v hv
  | object _ ih =>
      rw [sorted]
      refine .object fun m hm => ?_
      rcases exists_of_mem_sorted hm with ⟨n, hn, heq⟩
      exact heq ▸ ih n hn

end Json
end WalletLedger
