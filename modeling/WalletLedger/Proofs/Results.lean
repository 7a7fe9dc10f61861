import Mathlib

/-!
# Lists of results

A list of computations that may fail succeeds when each of them does, and then with their
results in order.  Results that belong to keys are kept in tables.
-/

namespace WalletLedger
namespace Results

variable {ε α β : Type}

theorem bind_eq_ok_iff {x : Except ε α} {f : α → Except ε β} {b : β} :
    (x >>= f) = .ok b ↔ ∃ a, x = .ok a ∧ f a = .ok b := by
  cases x with
  | ok a =>
      constructor
      · intro h
        exact ⟨a, rfl, h⟩
      · intro hrun
        rcases hrun with ⟨_, ha, h⟩
        cases ha
        exact h
  | error e =>
      constructor
      · intro h
        cases h
      · intro hrun
        rcases hrun with ⟨_, ha, _⟩
        cases ha

theorem map_eq_ok_iff {x : Except ε α} {f : α → β} {b : β} :
    x.map f = .ok b ↔ ∃ a, x = .ok a ∧ f a = b := by
  cases x with
  | ok a => simp [Except.map]
  | error e => simp [Except.map]

theorem mapM_eq_ok_iff {f : α → Except ε β} {xs : List α} {ys : List β} :
    xs.mapM f = .ok ys ↔ List.Forall₂ (fun x y => f x = .ok y) xs ys := by
  induction xs generalizing ys with
  | nil =>
      rw [List.mapM_nil, List.forall₂_nil_left_iff]
      constructor
      · intro h
        cases h
        rfl
      · intro h
        rw [h]
        rfl
  | cons x xs ih =>
      rw [List.mapM_cons, bind_eq_ok_iff, List.forall₂_cons_left_iff]
      constructor
      · intro hrun
        rcases hrun with ⟨y, hx, h⟩
        rcases bind_eq_ok_iff.mp h with ⟨rest, hrest, hys⟩
        cases hys
        exact ⟨y, rest, hx, ih.mp hrest, rfl⟩
      · intro hrun
        rcases hrun with ⟨y, rest, hx, hrest, hys⟩
        rw [hys]
        exact ⟨y, hx, bind_eq_ok_iff.mpr ⟨rest, ih.mpr hrest, rfl⟩⟩

theorem mapM_eq_ok_map {f : α → Except ε β} {g : α → β} {xs : List α}
    (h : ∀ x ∈ xs, f x = .ok (g x)) : xs.mapM f = .ok (xs.map g) := by
  rw [mapM_eq_ok_iff, List.forall₂_map_right_iff]
  exact List.forall₂_same.mpr h

theorem mapM_congr {f g : α → Except ε β} {xs : List α} (h : ∀ x ∈ xs, f x = g x) :
    xs.mapM f = xs.mapM g := by
  induction xs with
  | nil => rfl
  | cons x xs ih =>
      rw [List.mapM_cons, List.mapM_cons, h x List.mem_cons_self,
        ih fun y hy => h y (List.mem_cons_of_mem x hy)]

theorem length_of_mapM {f : α → Except ε β} {xs : List α} {ys : List β}
    (h : xs.mapM f = .ok ys) : ys.length = xs.length :=
  (mapM_eq_ok_iff.mp h).length_eq.symm

theorem exists_ok_of_mapM {f : α → Except ε β} {xs : List α} {ys : List β}
    (h : xs.mapM f = .ok ys) : ∀ x ∈ xs, ∃ y, f x = .ok y := by
  have hall := mapM_eq_ok_iff.mp h
  clear h
  induction hall with
  | nil => exact fun x hx => absurd hx List.not_mem_nil
  | cons hx _ ih =>
      intro z hz
      rcases List.mem_cons.mp hz with rfl | hz
      · exact ⟨_, hx⟩
      · exact ih z hz

theorem exists_of_mem_mapM {f : α → Except ε β} {xs : List α} {ys : List β}
    (h : xs.mapM f = .ok ys) {y : β} (hy : y ∈ ys) : ∃ x ∈ xs, f x = .ok y := by
  have hall := mapM_eq_ok_iff.mp h
  clear h
  induction hall with
  | nil => cases hy
  | cons hx _ ih =>
      rcases List.mem_cons.mp hy with rfl | hy
      · exact ⟨_, List.mem_cons_self, hx⟩
      · rcases ih hy with ⟨x, hmem, hx⟩
        exact ⟨x, List.mem_cons_of_mem _ hmem, hx⟩

theorem exists_mapM_of_exists_ok {f : α → Except ε β} {xs : List α}
    (h : ∀ x ∈ xs, ∃ y, f x = .ok y) : ∃ ys, xs.mapM f = .ok ys := by
  induction xs with
  | nil => exact ⟨[], rfl⟩
  | cons x xs ih =>
      rcases h x List.mem_cons_self with ⟨y, hy⟩
      rcases ih fun z hz => h z (List.mem_cons_of_mem x hz) with ⟨ys, hys⟩
      refine ⟨y :: ys, ?_⟩
      rw [mapM_eq_ok_iff] at hys ⊢
      exact .cons hy hys

theorem split_of_mapM {f : α → Except ε β} {xs : List α} {e : ε} (h : xs.mapM f = .error e) :
    ∃ before x after, xs = before ++ x :: after ∧ (∀ y ∈ before, ∃ v, f y = .ok v) ∧
      f x = .error e := by
  induction xs with
  | nil => cases h
  | cons x xs ih =>
      rw [List.mapM_cons] at h
      cases hx : f x with
      | error e' =>
          rw [hx] at h
          cases h
          exact ⟨[], x, xs, rfl, fun y hy => absurd hy List.not_mem_nil, hx⟩
      | ok v =>
          have hrest : xs.mapM f = .error e := by
            rw [hx] at h
            cases hxs : xs.mapM f with
            | error e' =>
                rw [hxs] at h
                cases h
                rfl
            | ok vs =>
                rw [hxs] at h
                cases h
          rcases ih hrest with ⟨before, z, after, rfl, hbefore, hz⟩
          refine ⟨x :: before, z, after, rfl, ?_, hz⟩
          intro y hy
          rcases List.mem_cons.mp hy with rfl | hy
          · exact ⟨v, hx⟩
          · exact hbefore y hy

theorem mapM_eq_error_iff {f : α → Except ε β} {xs : List α} {e : ε} :
    xs.mapM f = .error e ↔ ∃ before x after, xs = before ++ x :: after ∧
      (∀ y ∈ before, ∃ v, f y = .ok v) ∧ f x = .error e := by
  constructor
  · exact split_of_mapM
  · intro hsplit
    rcases hsplit with ⟨before, x, after, rfl, hbefore, hx⟩
    rcases exists_mapM_of_exists_ok hbefore with ⟨vs, hvs⟩
    rw [List.mapM_append, hvs, List.mapM_cons, hx]
    rfl

theorem mapM_zip_ok_iff {γ : Type} {f : α → Except ε β} {g : β → Except ε γ} {xs : List α}
    {zs : List γ} :
    (∃ ys, xs.mapM f = .ok ys ∧ (xs.zip ys).mapM (fun (_, y) => g y) = .ok zs) ↔
      xs.mapM (fun x => f x >>= g) = .ok zs := by
  simp only [mapM_eq_ok_iff]
  constructor
  · intro hrun
    rcases hrun with ⟨ys, hfirst, hsecond⟩
    induction hfirst generalizing zs with
    | nil =>
        cases hsecond
        exact .nil
    | cons hx _ ih =>
        cases hsecond with
        | cons hy hrest => exact .cons (bind_eq_ok_iff.mpr ⟨_, hx, hy⟩) (ih hrest)
  · intro hboth
    induction hboth with
    | nil => exact ⟨[], .nil, .nil⟩
    | cons hx _ ih =>
        rcases bind_eq_ok_iff.mp hx with ⟨y, hf, hg⟩
        rcases ih with ⟨ys, hfirst, hsecond⟩
        exact ⟨y :: ys, .cons hf hfirst, .cons hg hsecond⟩

theorem lookup_zip_of_mapM [BEq α] [LawfulBEq α] {f : α → Except ε β} {keys : List α}
    {values : List β} (h : keys.mapM f = .ok values) {key : α} (hkey : key ∈ keys) :
    ∃ value, (keys.zip values).lookup key = some value ∧ f key = .ok value := by
  have hall := mapM_eq_ok_iff.mp h
  clear h
  induction hall with
  | nil => exact absurd hkey List.not_mem_nil
  | @cons k value _ _ hk _ ih =>
      by_cases heq : key = k
      · subst heq
        exact ⟨value, by simp, hk⟩
      · rcases ih ((List.mem_cons.mp hkey).resolve_left heq) with ⟨found, hfound, hf⟩
        refine ⟨found, ?_, hf⟩
        rw [List.zip_cons_cons, List.lookup_cons, beq_false_of_ne heq]
        exact hfound

/-!
# Tables

A table is a list of keys with values, of which the first value for a key counts.
-/

theorem lookup_filter_bne [BEq α] [LawfulBEq α] (table : List (α × β)) {key k : α}
    (h : k ≠ key) : (table.filter fun e => e.1 != key).lookup k = table.lookup k := by
  induction table with
  | nil => rfl
  | cons e rest ih =>
      rcases e with ⟨l, value⟩
      by_cases hl : l = key
      · subst hl
        rw [List.filter_cons_of_neg (by simp), ih, List.lookup_cons, beq_false_of_ne h]
      · rw [List.filter_cons_of_pos (by simp [hl]), List.lookup_cons, List.lookup_cons, ih]

theorem lookup_of_mem [BEq α] [LawfulBEq α] {table : List (α × β)}
    (hnodup : (table.map Prod.fst).Nodup) {key : α} {value : β} (h : (key, value) ∈ table) :
    table.lookup key = some value := by
  induction table with
  | nil => cases h
  | cons entry rest ih =>
      rw [List.map_cons, List.nodup_cons] at hnodup
      rcases List.mem_cons.mp h with rfl | h
      · simp
      · have hne : key ≠ entry.1 := by
          intro heq
          exact hnodup.1 (heq ▸ List.mem_map_of_mem h)
        rw [List.lookup_cons, beq_false_of_ne hne]
        exact ih hnodup.2 h

theorem mem_of_lookup [BEq α] [LawfulBEq α] {table : List (α × β)} {key : α} {value : β}
    (h : table.lookup key = some value) : (key, value) ∈ table := by
  rcases List.lookup_eq_some_iff.mp h with ⟨before, after, hsplit, _⟩
  rw [hsplit]
  exact List.mem_append_right before List.mem_cons_self

theorem lookup_zip_eq_some_iff [BEq α] [LawfulBEq α] {keys : List α} {values : List β}
    (hnodup : keys.Nodup) (hlength : keys.length ≤ values.length) {key : α} {value : β} :
    (keys.zip values).lookup key = some value ↔
      ∃ k : Nat, keys[k]? = some key ∧ values[k]? = some value := by
  constructor
  · intro h
    rcases List.mem_iff_getElem?.mp (mem_of_lookup h) with ⟨k, hk⟩
    exact ⟨k, List.getElem?_zip_eq_some.mp hk⟩
  · intro h
    rcases h with ⟨k, hk⟩
    have hmem : (key, value) ∈ keys.zip values :=
      List.mem_iff_getElem?.mpr ⟨k, List.getElem?_zip_eq_some.mpr hk⟩
    apply lookup_of_mem _ hmem
    rw [List.map_fst_zip hlength]
    exact hnodup

/-!
# Errors of a kind
-/

def FailsOnly (kind : ε → Prop) (r : Except ε α) : Prop :=
  ∀ e, r = .error e → kind e

namespace FailsOnly

variable {kind : ε → Prop}

theorem ok (a : α) : FailsOnly kind (.ok a) := by
  intro e h
  cases h

theorem error {e : ε} (h : kind e) : FailsOnly kind (.error e : Except ε α) := by
  intro e' heq
  cases heq
  exact h

theorem mono {wider : ε → Prop} (hkind : ∀ e, kind e → wider e) {r : Except ε α}
    (h : FailsOnly kind r) : FailsOnly wider r :=
  fun e he => hkind e (h e he)

theorem bind {x : Except ε α} {f : α → Except ε β} (hx : FailsOnly kind x)
    (hf : ∀ a, FailsOnly kind (f a)) : FailsOnly kind (x >>= f) := by
  cases x with
  | ok a => exact hf a
  | error e => exact error (hx e rfl)

theorem map {x : Except ε α} (hx : FailsOnly kind x) (f : α → β) :
    FailsOnly kind (x.map f) := by
  cases x with
  | ok a => exact ok (f a)
  | error e => exact error (hx e rfl)

theorem mapM {f : α → Except ε β} {xs : List α} (h : ∀ x ∈ xs, FailsOnly kind (f x)) :
    FailsOnly kind (xs.mapM f) := by
  induction xs with
  | nil => exact ok []
  | cons x xs ih =>
      have hrest := ih fun y hy => h y (List.mem_cons_of_mem x hy)
      rw [List.mapM_cons]
      exact bind (h x List.mem_cons_self) fun y => bind hrest fun ys => ok (y :: ys)

end FailsOnly

/-!
# Results that agree
-/

/-- Both have results, which are related, or neither has one, whatever the errors are. -/
inductive Agree {δ : Type} (R : α → β → Prop) : Except ε α → Except δ β → Prop where
  | ok {a : α} {b : β} : R a b → Agree R (.ok a) (.ok b)
  | error (e : ε) (e' : δ) : Agree R (.error e) (.error e')

namespace Agree

variable {δ γ : Type} {R : α → β → Prop} {x : Except ε α} {y : Except δ β}

theorem refl (x : Except ε α) : Agree (δ := ε) (· = ·) x x := by
  cases x with
  | ok a => exact .ok rfl
  | error e => exact .error e e

theorem of_errors (hx : ∃ e, x = .error e) (hy : ∃ e, y = .error e) : Agree R x y := by
  rcases hx with ⟨e, rfl⟩
  rcases hy with ⟨e', rfl⟩
  exact .error e e'

theorem symm {y : Except δ α} (h : Agree (· = ·) x y) : Agree (· = ·) y x := by
  cases h with
  | ok heq => exact .ok heq.symm
  | error e e' => exact .error e' e

theorem bind {ζ : Type} {S : γ → ζ → Prop} {f : α → Except ε γ} {g : β → Except δ ζ}
    (h : Agree R x y) (hnext : ∀ a b, R a b → Agree S (f a) (g b)) :
    Agree S (x >>= f) (y >>= g) := by
  cases h with
  | ok hab => exact hnext _ _ hab
  | error e e' => exact .error e e'

theorem bind_error {f : α → Except ε γ} {S : γ → β → Prop} {e : δ}
    (h : ∀ a, Agree S (f a) (.error e)) : Agree S (x >>= f) (.error e) := by
  cases x with
  | ok a => exact h a
  | error e' => exact .error e' e

theorem map {ζ : Type} {S : γ → ζ → Prop} {f : α → γ} {g : β → ζ} (h : Agree R x y)
    (hnext : ∀ a b, R a b → S (f a) (g b)) : Agree S (x.map f) (y.map g) := by
  cases h with
  | ok hab => exact .ok (hnext _ _ hab)
  | error e e' => exact .error e e'

theorem mapError {η : Type} (h : Agree R x y) (f : ε → η) : Agree R (x.mapError f) y := by
  cases h with
  | ok hab => exact .ok hab
  | error e e' => exact .error (f e) e'

theorem mapM {f : α → Except ε γ} {g : β → Except δ γ} {xs : List α} {ys : List β}
    (h : List.Forall₂ (fun a b => Agree (· = ·) (f a) (g b)) xs ys) :
    Agree (· = ·) (xs.mapM f) (ys.mapM g) := by
  induction h with
  | nil => exact .ok rfl
  | cons hab _ ih =>
      rw [List.mapM_cons, List.mapM_cons]
      refine hab.bind fun c _ hc => ?_
      refine ih.bind fun cs _ hcs => ?_
      exact .ok (by rw [hc, hcs])

end Agree

end Results
end WalletLedger
