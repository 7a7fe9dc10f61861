import Mathlib
import WalletLedger.Text.Blank

/-!
# Trimming

A trimmed text is what is left of a text between blanks, and it neither begins nor ends with
one.  That leaves no choice.
-/

namespace WalletLedger
namespace Text

/-- The text without the blanks around it. -/
structure Trims (cs core : List Char) : Prop where
  around : ∃ before after, cs = before ++ (core ++ after) ∧
    (∀ c ∈ before, isBlank c = true) ∧ ∀ c ∈ after, isBlank c = true
  head : ∀ c, core.head? = some c → isBlank c = false
  last : ∀ c, core.getLast? = some c → isBlank c = false

/-!
# Blanks in front
-/

theorem head_dropWhile_isBlank {cs : List Char} {c : Char}
    (h : (cs.dropWhile isBlank).head? = some c) : isBlank c = false := by
  have hhead := List.head?_dropWhile_not isBlank cs
  rwa [h] at hhead

theorem dropWhile_isBlank {before core : List Char} (hbefore : ∀ c ∈ before, isBlank c = true)
    (hcore : ∀ c, core.head? = some c → isBlank c = false) :
    (before ++ core).dropWhile isBlank = core := by
  rw [List.dropWhile_append_of_pos hbefore]
  cases core with
  | nil => rfl
  | cons c core =>
      apply List.dropWhile_cons_of_neg
      rw [hcore c rfl]
      exact Bool.false_ne_true

theorem exists_blanks_before (cs : List Char) :
    ∃ before, cs = before ++ cs.dropWhile isBlank ∧ ∀ c ∈ before, isBlank c = true :=
  ⟨cs.takeWhile isBlank, List.takeWhile_append_dropWhile.symm, fun _ => List.mem_takeWhile_imp⟩

/-!
# Blanks at both ends
-/

theorem trims_trimBlank (cs : List Char) : Trims cs (trimBlank cs) := by
  rcases exists_blanks_before cs with ⟨before, hcs, hbefore⟩
  rcases exists_blanks_before (cs.dropWhile isBlank).reverse with ⟨after, hrest, hafter⟩
  have hparts : cs.dropWhile isBlank = trimBlank cs ++ after.reverse := by
    have hreversed := congrArg List.reverse hrest
    rwa [List.reverse_reverse, List.reverse_append] at hreversed
  refine ⟨⟨before, after.reverse, ?_, hbefore, ?_⟩, ?_, ?_⟩
  · rw [← hparts]
    exact hcs
  · intro c hc
    exact hafter c (List.mem_reverse.mp hc)
  · intro c hc
    refine @head_dropWhile_isBlank cs c ?_
    rw [hparts, List.head?_append, hc]
    rfl
  · intro c hc
    unfold trimBlank at hc
    rw [List.getLast?_reverse] at hc
    exact head_dropWhile_isBlank hc

theorem trimBlank_of_trims {cs core : List Char} (h : Trims cs core) : trimBlank cs = core := by
  rcases h.around with ⟨before, after, rfl, hbefore, hafter⟩
  have hbehind : ∀ c ∈ after.reverse, isBlank c = true := fun c hc =>
    hafter c (List.mem_reverse.mp hc)
  unfold trimBlank
  cases core with
  | nil =>
      have hnone : (before ++ ([] ++ after)).dropWhile isBlank = [] := by
        rw [List.dropWhile_eq_nil_iff, List.forall_mem_append]
        exact ⟨hbefore, hafter⟩
      rw [hnone]
      rfl
  | cons c core =>
      have hlast : ∀ d, (c :: core).reverse.head? = some d → isBlank d = false := by
        intro d hd
        rw [List.head?_reverse] at hd
        exact h.last d hd
      have hhead : ∀ d, ((c :: core) ++ after).head? = some d → isBlank d = false := h.head
      rw [dropWhile_isBlank hbefore hhead, List.reverse_append,
        dropWhile_isBlank hbehind hlast, List.reverse_reverse]

theorem trimBlank_eq_iff {cs core : List Char} : trimBlank cs = core ↔ Trims cs core := by
  constructor
  · intro h
    exact h ▸ trims_trimBlank cs
  · exact trimBlank_of_trims

end Text
end WalletLedger
