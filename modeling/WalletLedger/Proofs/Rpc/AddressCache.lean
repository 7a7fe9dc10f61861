import WalletLedger.Proofs.Results
import WalletLedger.Rpc.AddressCache

/-!
# What the address cache keeps

A lookup moves an entry to the front and changes nothing else; putting an address in may
push an old entry out.  Neither makes an entry wrong, repeats a key or lets the cache
outgrow its capacity.
-/

namespace WalletLedger
namespace Rpc
namespace AddressCache

/-- The cache is a map of limited size, of which every entry is right. -/
structure Faithful (right : RenderKey → String → Prop) (c : AddressCache) : Prop where
  entries_right : ∀ e ∈ c.entries, right e.1 e.2
  nodup_keys : (c.entries.map Prod.fst).Nodup
  length_le : c.entries.length ≤ capacity

variable {right : RenderKey → String → Prop} {c : AddressCache}

theorem empty_faithful : empty.Faithful right where
  entries_right _ he := absurd he List.not_mem_nil
  nodup_keys := List.nodup_nil
  length_le := Nat.zero_le _

/-!
# Entries
-/

theorem mem_of_find? {key : RenderKey} {address : String} (h : c.find? key = some address) :
    (key, address) ∈ c.entries :=
  Results.mem_of_lookup h

theorem Faithful.find?_right (h : c.Faithful right) {key : RenderKey} {address : String}
    (hfind : c.find? key = some address) : right key address :=
  h.entries_right _ (mem_of_find? hfind)

theorem mem_without {key : RenderKey} {e : RenderKey × String} :
    e ∈ c.without key ↔ e ∈ c.entries ∧ e.1 ≠ key := by
  simp [without, List.mem_filter]

theorem key_not_mem_without (key : RenderKey) : key ∉ (c.without key).map Prod.fst := by
  intro hmem
  rcases List.mem_map.mp hmem with ⟨e, he, hkey⟩
  exact (mem_without.mp he).2 hkey

theorem nodup_without (h : (c.entries.map Prod.fst).Nodup) (key : RenderKey) :
    ((c.without key).map Prod.fst).Nodup :=
  (List.filter_sublist.map Prod.fst).nodup h

theorem lookup_without {key k : RenderKey} (h : k ≠ key) :
    (c.without key).lookup k = c.find? k :=
  Results.lookup_filter_bne c.entries h

theorem length_without_lt {key : RenderKey} {address : String}
    (h : c.find? key = some address) : (c.without key).length < c.entries.length := by
  unfold without
  rw [List.length_filter_lt_length_iff_exists]
  exact ⟨(key, address), mem_of_find? h, by simp⟩

/-!
# Looking up
-/

theorem get_fst (key : RenderKey) : (c.get key).1 = c.find? key := by
  unfold get
  cases hfind : c.find? key <;> rfl

theorem find?_get (key k : RenderKey) : (c.get key).2.find? k = c.find? k := by
  unfold get
  cases hfind : c.find? key with
  | none => rfl
  | some address =>
      change List.lookup k ((key, address) :: c.without key) = _
      rw [List.lookup_cons]
      by_cases hk : k = key
      · subst hk
        rw [beq_self_eq_true, hfind]
      · rw [beq_false_of_ne hk]
        exact lookup_without hk

theorem get_faithful (h : c.Faithful right) (key : RenderKey) :
    (c.get key).2.Faithful right := by
  unfold get
  cases hfind : c.find? key with
  | none => exact h
  | some address =>
      constructor
      · intro e he
        rcases List.mem_cons.mp he with rfl | he
        · exact h.find?_right hfind
        · exact h.entries_right e (mem_without.mp he).1
      · exact List.nodup_cons.mpr ⟨key_not_mem_without key, nodup_without h.nodup_keys key⟩
      · have hlt := length_without_lt hfind
        have hle := h.length_le
        change (c.without key).length + 1 ≤ capacity
        omega

theorem getAll_fst (keys : List RenderKey) : (c.getAll keys).1 = keys.map c.find? := by
  induction keys generalizing c with
  | nil => rfl
  | cons key rest ih =>
      change (c.get key).1 :: ((c.get key).2.getAll rest).1 = _
      rw [get_fst, ih, List.map_cons]
      have hsame : (c.get key).2.find? = c.find? := funext (find?_get key)
      rw [hsame]

theorem getAll_faithful (h : c.Faithful right) (keys : List RenderKey) :
    (c.getAll keys).2.Faithful right := by
  induction keys generalizing c with
  | nil => exact h
  | cons key rest ih => exact ih (get_faithful h key)

/-!
# Putting in
-/

theorem put_faithful (h : c.Faithful right) {key : RenderKey} {address : String}
    (hright : right key address) : (c.put key address).Faithful right := by
  constructor
  · intro e he
    rcases List.mem_cons.mp (List.mem_of_mem_take he) with rfl | he
    · exact hright
    · exact h.entries_right e (mem_without.mp he).1
  · have hnodup : (((key, address) :: c.without key).map Prod.fst).Nodup :=
      List.nodup_cons.mpr ⟨key_not_mem_without key, nodup_without h.nodup_keys key⟩
    exact ((List.take_sublist _ _).map Prod.fst).nodup hnodup
  · exact List.length_take_le _ _

end AddressCache
end Rpc
end WalletLedger
