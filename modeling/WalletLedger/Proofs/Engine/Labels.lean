import Mathlib
import WalletLedger.Engine.Snapshot
import WalletLedger.Proofs.Results

/-!
# Labels of a snapshot

Entering labels over one another leaves, for each subaddress, the label that was entered
last.
-/

namespace WalletLedger
namespace LabelTable

theorem get?_insert (t : LabelTable) (e : LabelEntry) (index : SubaddressIndex) :
    (t.insert e).get? index = if e.index = index then some e.label else t.get? index := by
  change List.lookup index ((e.index, e.label) :: _) = _
  rw [List.lookup_cons]
  by_cases h : e.index = index
  · subst h
    rw [if_pos rfl, beq_self_eq_true]
  · have hne : index ≠ e.index := fun heq => h heq.symm
    rw [if_neg h, beq_false_of_ne hne]
    exact Results.lookup_filter_bne t.entries hne

/-- What was entered last counts, and what was there before only where nothing was entered. -/
theorem get?_insertAll (t : LabelTable) (entries : List LabelEntry) (index : SubaddressIndex) :
    (t.insertAll entries).1.get? index =
      (((entries.filter fun e => e.index = index).getLast?).map LabelEntry.label).or
        (t.get? index) := by
  induction entries generalizing t with
  | nil => rfl
  | cons e rest ih =>
      change ((t.insert e).insertAll rest).1.get? index = _
      rw [ih, get?_insert]
      by_cases h : e.index = index
      · rw [if_pos h, List.filter_cons_of_pos (by simp [h]), List.getLast?_cons]
        cases (rest.filter fun e => e.index = index).getLast? <;> rfl
      · rw [if_neg h, List.filter_cons_of_neg (by simp [h])]

end LabelTable

theorem Snapshot.get?_labelTable (s : Snapshot) (index : SubaddressIndex) :
    s.labelTable.get? index =
      ((s.labels.filter fun e => e.index = index).getLast?).map LabelEntry.label := by
  unfold labelTable
  rw [LabelTable.get?_insertAll]
  exact Option.or_none

end WalletLedger
