import WalletLedger.Json.Codec

/-!
# Sets of subaddress indices

A finite set of words of 32 bits, kept as its members in ascending order.
-/

namespace WalletLedger

structure IndexSet where
  toList : List UInt32
  ordered : toList.Pairwise (· < ·)
  deriving DecidableEq

namespace IndexSet

def empty : IndexSet := ⟨[], List.Pairwise.nil⟩

def singleton (n : UInt32) : IndexSet := ⟨[n], List.pairwise_singleton _ _⟩

def insertSorted (n : UInt32) : List UInt32 → List UInt32
  | [] => [n]
  | m :: rest =>
      if n < m then n :: m :: rest
      else if n = m then m :: rest
      else m :: insertSorted n rest

theorem mem_insertSorted {n k : UInt32} {xs : List UInt32} :
    k ∈ insertSorted n xs ↔ k = n ∨ k ∈ xs := by
  induction xs with
  | nil => simp [insertSorted]
  | cons m rest ih =>
      simp only [insertSorted]
      split
      · simp
      · split
        · next h => subst h; simp
        · simp only [List.mem_cons, ih]
          constructor
          · intro h
            rcases h with h | h | h <;> simp [h]
          · intro h
            rcases h with h | h | h <;> simp [h]

theorem pairwise_insertSorted {n : UInt32} {xs : List UInt32} (h : xs.Pairwise (· < ·)) :
    (insertSorted n xs).Pairwise (· < ·) := by
  induction xs with
  | nil => exact List.pairwise_singleton _ _
  | cons m rest ih =>
      rw [List.pairwise_cons] at h
      simp only [insertSorted]
      split
      · next hlt =>
          rw [List.pairwise_cons, List.pairwise_cons]
          refine ⟨?_, h⟩
          intro k hk
          rw [List.mem_cons] at hk
          cases hk with
          | inl hk => rw [hk]; exact hlt
          | inr hk => exact UInt32.lt_trans hlt (h.1 k hk)
      · next hlt =>
          split
          · exact List.pairwise_cons.mpr h
          · next hne =>
              rw [List.pairwise_cons]
              refine ⟨?_, ih h.2⟩
              intro k hk
              rw [mem_insertSorted] at hk
              cases hk with
              | inl hk =>
                  rw [hk]
                  rw [UInt32.lt_iff_toNat_lt] at hlt ⊢
                  have hne' : n.toNat ≠ m.toNat := fun h => hne (UInt32.toNat_inj.mp h)
                  omega
              | inr hk => exact h.1 k hk

def insert (s : IndexSet) (n : UInt32) : IndexSet :=
  ⟨insertSorted n s.toList, pairwise_insertSorted s.ordered⟩

def ofList (xs : List UInt32) : IndexSet :=
  xs.foldl insert empty

def only? (s : IndexSet) : Option UInt32 :=
  match s.toList with
  | [n] => some n
  | _ => none

/-- Written in ascending order, read in any order. -/
def codec : Json.Codec IndexSet :=
  (Json.Codec.list Json.Codec.uint32).iso ofList toList

end IndexSet
end WalletLedger
