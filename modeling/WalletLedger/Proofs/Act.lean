import WalletLedger.Engine.Basic
import WalletLedger.Proofs.Results

/-!
# Laws of actions

What an action answers, what it keeps, and what it is sure to answer.  The answer of a
composed action is made of the answers of its parts, whatever the parts report; so laws
about answers never look at notices.
-/

namespace WalletLedger
namespace Act

variable {σ α β : Type}

/-!
# Single runs

An action takes one state to another.  For actions that are made together it does not
matter to the answer whether they overlap.
-/

/-- The action answers `a` in the state `s` and leaves the state `t`. -/
def Succeeds (x : Act σ α) (s : σ) (a : α) (t : σ) : Prop :=
  (x s).answer = .ok a ∧ (x s).state = t

@[simp] theorem ofExcept_answer (r : Except CoreError α) (s : σ) :
    (ofExcept r s).answer = r := rfl

theorem bind_answer (x : Act σ α) (f : α → Act σ β) (s : σ) :
    ((x >>= f) s).answer = (x s).answer >>= fun a => (f a (x s).state).answer := by
  change (andThen x f s).answer = _
  cases h : (x s).answer with
  | ok a =>
      simp only [andThen, h]
      rfl
  | error e =>
      simp only [andThen, h]
      rfl

theorem bind_run {x : Act σ α} {s t : σ} {a : α} {notices : List Notice} (f : α → Act σ β)
    (h : x s = ⟨.ok a, notices, t⟩) :
    (x >>= f) s = ⟨(f a t).answer, notices ++ (f a t).notices, (f a t).state⟩ := by
  change andThen x f s = _
  simp only [andThen, h]

theorem bind_of_ok {x : Act σ α} {s : σ} {a : α} (f : α → Act σ β)
    (h : (x s).answer = .ok a) :
    ((x >>= f) s).answer = (f a (x s).state).answer ∧
      ((x >>= f) s).state = (f a (x s).state).state := by
  change (andThen x f s).answer = _ ∧ (andThen x f s).state = _
  constructor <;> simp only [andThen, h]

theorem bind_of_error {x : Act σ α} {s : σ} {e : CoreError} (f : α → Act σ β)
    (h : (x s).answer = .error e) :
    ((x >>= f) s).answer = .error e ∧ ((x >>= f) s).state = (x s).state := by
  change (andThen x f s).answer = _ ∧ (andThen x f s).state = _
  constructor <;> simp only [andThen, h]

theorem bind_pure_run (x : Act σ α) (g : α → β) (s : σ) :
    ((x >>= fun a => pure (g a)) s).answer = (x s).answer.map g ∧
      ((x >>= fun a => pure (g a)) s).state = (x s).state := by
  cases h : (x s).answer with
  | ok a =>
      rw [(bind_of_ok _ h).1, (bind_of_ok _ h).2]
      exact ⟨rfl, rfl⟩
  | error e =>
      rw [(bind_of_error _ h).1, (bind_of_error _ h).2]
      exact ⟨rfl, rfl⟩

theorem together_answer (overlapping : Bool) (x : Act σ α) (y : Act σ β) (s : σ) :
    (together overlapping x y s).answer =
      (x s).answer >>= fun a => (y (x s).state).answer.map fun b => (a, b) := by
  cases h : (x s).answer with
  | ok a =>
      simp only [together, h]
      rfl
  | error e =>
      simp only [together, h]
      cases overlapping <;> rfl

theorem bind_succeeds_iff {x : Act σ α} {f : α → Act σ β} {s t : σ} {b : β} :
    (x >>= f).Succeeds s b t ↔ ∃ a r, x.Succeeds s a r ∧ (f a).Succeeds r b t := by
  cases h : (x s).answer with
  | ok a =>
      unfold Succeeds
      rw [(bind_of_ok f h).1, (bind_of_ok f h).2]
      constructor
      · intro hrest
        exact ⟨a, _, ⟨h, rfl⟩, hrest⟩
      · intro hrun
        rcases hrun with ⟨a', r, ⟨ha, hr⟩, hrest⟩
        rw [h] at ha
        cases ha
        rw [hr]
        exact hrest
  | error e =>
      unfold Succeeds
      rw [(bind_of_error f h).1]
      constructor
      · intro hrun
        rcases hrun with ⟨hb, _⟩
        cases hb
      · intro hrun
        rcases hrun with ⟨a', r, ⟨ha, _⟩, _⟩
        rw [h] at ha
        cases ha

theorem bind_error_iff {x : Act σ α} {f : α → Act σ β} {s : σ} {e : CoreError} :
    ((x >>= f) s).answer = .error e ↔
      (x s).answer = .error e ∨ ∃ a r, x.Succeeds s a r ∧ (f a r).answer = .error e := by
  cases h : (x s).answer with
  | ok a =>
      rw [(bind_of_ok f h).1]
      constructor
      · intro hrest
        exact .inr ⟨a, _, ⟨h, rfl⟩, hrest⟩
      · intro hrun
        rcases hrun with hx | ⟨a', r, ⟨ha, hr⟩, hrest⟩
        · cases hx
        · rw [h] at ha
          cases ha
          rw [hr]
          exact hrest
  | error e' =>
      rw [(bind_of_error f h).1]
      constructor
      · intro hanswer
        cases hanswer
        exact .inl rfl
      · intro hrun
        rcases hrun with hx | ⟨a', r, ⟨ha, _⟩, _⟩
        · cases hx
          rfl
        · rw [h] at ha
          cases ha

theorem together_succeeds_iff {overlapping : Bool} {x : Act σ α} {y : Act σ β} {s t : σ}
    {a : α} {b : β} :
    (together overlapping x y).Succeeds s (a, b) t ↔
      ∃ r, x.Succeeds s a r ∧ y.Succeeds r b t := by
  unfold Succeeds
  rw [together_answer]
  cases h : (x s).answer with
  | ok a' =>
      have hstate : (together overlapping x y s).state = (y (x s).state).state := by
        simp only [together, h]
      rw [hstate]
      constructor
      · intro hrun
        rcases hrun with ⟨hanswer, ht⟩
        rcases Results.map_eq_ok_iff.mp hanswer with ⟨b', hb, hpair⟩
        cases hpair
        exact ⟨_, ⟨rfl, rfl⟩, hb, ht⟩
      · intro hrun
        rcases hrun with ⟨r, ⟨ha, hr⟩, hb, ht⟩
        cases ha
        rw [hr]
        exact ⟨Results.map_eq_ok_iff.mpr ⟨b, hb, rfl⟩, ht⟩
  | error e =>
      constructor
      · intro hrun
        rcases hrun with ⟨hanswer, _⟩
        cases hanswer
      · intro hrun
        rcases hrun with ⟨r, ⟨ha, _⟩, _⟩
        cases ha

theorem together_error_iff {overlapping : Bool} {x : Act σ α} {y : Act σ β} {s : σ}
    {e : CoreError} :
    (together overlapping x y s).answer = .error e ↔
      (x s).answer = .error e ∨ ∃ a r, x.Succeeds s a r ∧ (y r).answer = .error e := by
  rw [together_answer]
  unfold Succeeds
  cases h : (x s).answer with
  | ok a =>
      constructor
      · intro hanswer
        refine .inr ⟨a, _, ⟨rfl, rfl⟩, ?_⟩
        cases hy : (y (x s).state).answer with
        | ok b =>
            rw [hy] at hanswer
            cases hanswer
        | error e' =>
            rw [hy] at hanswer
            cases hanswer
            rfl
      · intro hrun
        rcases hrun with hx | ⟨a', r, ⟨ha, hr⟩, hy⟩
        · cases hx
        · rw [hr, hy]
          rfl
  | error e' =>
      constructor
      · intro hanswer
        cases hanswer
        exact .inl rfl
      · intro hrun
        rcases hrun with hx | ⟨a', r, ⟨ha, _⟩, _⟩
        · cases hx
          rfl
        · cases ha

theorem allTogether_cons_answer {overlapping : Bool} {f : β → Act σ α} {x : β} {xs : List β}
    {s : σ} :
    (allTogether overlapping f (x :: xs) s).answer =
      (together overlapping (f x) (allTogether overlapping f xs) s).answer.map
        fun r => r.1 :: r.2 :=
  rfl

theorem allTogether_cons_ok_iff {overlapping : Bool} {f : β → Act σ α} {x : β} {xs : List β}
    {s : σ} {as : List α} :
    (allTogether overlapping f (x :: xs) s).answer = .ok as ↔
      ∃ a rest, (f x s).answer = .ok a ∧
        (allTogether overlapping f xs (f x s).state).answer = .ok rest ∧ as = a :: rest := by
  rw [allTogether_cons_answer, Results.map_eq_ok_iff, together_answer]
  constructor
  · intro h
    rcases h with ⟨⟨a, rest⟩, hboth, rfl⟩
    rcases Results.bind_eq_ok_iff.mp hboth with ⟨a', ha, hrest⟩
    rcases Results.map_eq_ok_iff.mp hrest with ⟨rest', hrest, heq⟩
    cases heq
    exact ⟨a, rest, ha, hrest, rfl⟩
  · intro h
    rcases h with ⟨a, rest, ha, hrest, rfl⟩
    refine ⟨(a, rest), Results.bind_eq_ok_iff.mpr ⟨a, ha, ?_⟩, rfl⟩
    rw [hrest]
    rfl

theorem allTogether_cons_state {f : β → Act σ α} {x : β} {xs : List β} {s : σ} :
    (allTogether true f (x :: xs) s).state = (allTogether true f xs (f x s).state).state := by
  change (together true (f x) (allTogether true f xs) s).state = _
  cases h : (f x s).answer <;> simp [together, h]

theorem allTogether_map {γ : Type} {overlapping : Bool} {f : β → Act σ α} {g : γ → β}
    {xs : List γ} :
    allTogether overlapping f (xs.map g) = allTogether overlapping (fun x => f (g x)) xs := by
  induction xs with
  | nil => rfl
  | cons x xs ih =>
      simp only [List.map_cons, allTogether, ih]
      rfl

theorem allTogether_of_ok {overlapping : Bool} {f : β → Act σ α} {g : β → Except CoreError α}
    {xs : List β} (h : ∀ x ∈ xs, ∀ s a, (f x s).answer = .ok a → g x = .ok a) {s : σ}
    {as : List α} (hok : (allTogether overlapping f xs s).answer = .ok as) :
    xs.mapM g = .ok as := by
  induction xs generalizing s as with
  | nil =>
      cases hok
      rfl
  | cons x xs ih =>
      rcases allTogether_cons_ok_iff.mp hok with ⟨a, rest, ha, hrest, rfl⟩
      rw [List.mapM_cons, h x List.mem_cons_self s a ha,
        ih (fun y hy => h y (List.mem_cons_of_mem x hy)) hrest]
      rfl

theorem length_of_inTurn {f : β → Act σ α} {xs : List β} {s : σ} {as : List α}
    (h : (inTurn f xs s).answer = .ok as) : as.length = xs.length := by
  induction xs generalizing s as with
  | nil =>
      cases h
      rfl
  | cons x xs ih =>
      have hrun : (f x >>= fun a => inTurn f xs >>= fun as => pure (a :: as)).Succeeds s as _ :=
        ⟨h, rfl⟩
      rcases bind_succeeds_iff.mp hrun with ⟨a, _, _, hothers⟩
      rcases bind_succeeds_iff.mp hothers with ⟨rest, _, hrest, hmade, _⟩
      cases hmade
      rw [List.length_cons, List.length_cons, ih hrest.1]

/-!
# What an action keeps
-/

/-- No run of the action, whatever its answer, loses the property. -/
def Keeps (P : σ → Prop) (x : Act σ α) : Prop :=
  ∀ s, P s → P (x s).state

namespace Keeps

variable {P : σ → Prop}

theorem pure (a : α) : Keeps P (Pure.pure a : Act σ α) :=
  fun _ hs => hs

theorem ofExcept (r : Except CoreError α) : Keeps P (Act.ofExcept r) :=
  fun _ hs => hs

theorem report (notices : List Notice) : Keeps P (Act.report notices : Act σ Unit) :=
  fun _ hs => hs

theorem bind {x : Act σ α} {f : α → Act σ β} (hx : Keeps P x) (hf : ∀ a, Keeps P (f a)) :
    Keeps P (x >>= f) := by
  intro s hs
  cases h : (x s).answer with
  | ok a =>
      rw [(bind_of_ok f h).2]
      exact hf a _ (hx s hs)
  | error e =>
      rw [(bind_of_error f h).2]
      exact hx s hs

theorem together {overlapping : Bool} {x : Act σ α} {y : Act σ β} (hx : Keeps P x)
    (hy : Keeps P y) : Keeps P (Act.together overlapping x y) := by
  intro s hs
  have hstate := hx s hs
  cases h : (x s).answer with
  | ok a =>
      simp only [Act.together, h]
      exact hy _ hstate
  | error e =>
      simp only [Act.together, h]
      cases overlapping with
      | true => exact hy _ hstate
      | false => exact hstate

theorem allTogether {overlapping : Bool} {f : β → Act σ α} {xs : List β}
    (h : ∀ x ∈ xs, Keeps P (f x)) : Keeps P (Act.allTogether overlapping f xs) := by
  induction xs with
  | nil => exact fun _ hs => hs
  | cons x xs ih =>
      intro s hs
      have hrest := ih fun y hy => h y (List.mem_cons_of_mem x hy)
      exact together (h x List.mem_cons_self) hrest s hs

theorem inTurn {f : β → Act σ α} {xs : List β} (h : ∀ x ∈ xs, Keeps P (f x)) :
    Keeps P (Act.inTurn f xs) := by
  induction xs with
  | nil => exact fun _ hs => hs
  | cons x xs ih =>
      have hrest := ih fun y hy => h y (List.mem_cons_of_mem x hy)
      exact bind (h x List.mem_cons_self) fun a => bind hrest fun as => pure (a :: as)

end Keeps

/-!
# What an action is sure to answer

In every state with a property the action has one and the same answer, and the property is
kept.  Lists of such actions answer as a list of results does.
-/

/-- From every state with the property the action answers `r` and keeps the property. -/
def Yields (P : σ → Prop) (x : Act σ α) (r : Except CoreError α) : Prop :=
  ∀ s, P s → (x s).answer = r ∧ P (x s).state

namespace Yields

variable {P : σ → Prop}

theorem keeps {x : Act σ α} {r : Except CoreError α} (h : Yields P x r) : Keeps P x :=
  fun s hs => (h s hs).2

theorem pure (a : α) : Yields P (Pure.pure a : Act σ α) (.ok a) :=
  fun _ hs => ⟨rfl, hs⟩

theorem ofExcept (r : Except CoreError α) : Yields P (Act.ofExcept r) r :=
  fun _ hs => ⟨rfl, hs⟩

theorem report (notices : List Notice) : Yields P (Act.report notices : Act σ Unit) (.ok ()) :=
  fun _ hs => ⟨rfl, hs⟩

theorem bind {x : Act σ α} {r : Except CoreError α} {f : α → Act σ β}
    {g : α → Except CoreError β} (hx : Yields P x r)
    (hf : ∀ a, r = .ok a → Yields P (f a) (g a)) : Yields P (x >>= f) (r >>= g) := by
  intro s hs
  rcases hx s hs with ⟨hanswer, hstate⟩
  cases r with
  | ok a =>
      rw [(bind_of_ok f hanswer).1, (bind_of_ok f hanswer).2]
      exact hf a rfl _ hstate
  | error e =>
      rw [(bind_of_error f hanswer).1, (bind_of_error f hanswer).2]
      exact ⟨rfl, hstate⟩

theorem bind_ok {x : Act σ α} {a : α} {f : α → Act σ β} {r : Except CoreError β}
    (hx : Yields P x (.ok a)) (hf : Yields P (f a) r) : Yields P (x >>= f) r := by
  intro s hs
  rcases hx s hs with ⟨hanswer, hstate⟩
  rw [(bind_of_ok f hanswer).1, (bind_of_ok f hanswer).2]
  exact hf _ hstate

theorem together {overlapping : Bool} {x : Act σ α} {y : Act σ β} {r : Except CoreError α}
    {q : Except CoreError β} (hx : Yields P x r) (hy : Yields P y q) :
    Yields P (Act.together overlapping x y) (r >>= fun a => q.map fun b => (a, b)) := by
  intro s hs
  constructor
  · rw [together_answer, (hx s hs).1, (hy _ (hx s hs).2).1]
  · exact Keeps.together hx.keeps hy.keeps s hs

theorem allTogether {overlapping : Bool} {f : β → Act σ α} {g : β → Except CoreError α}
    {xs : List β} (h : ∀ x ∈ xs, Yields P (f x) (g x)) :
    Yields P (Act.allTogether overlapping f xs) (xs.mapM g) := by
  induction xs with
  | nil => exact fun _ hs => ⟨rfl, hs⟩
  | cons x xs ih =>
      intro s hs
      have hrest := ih fun y hy => h y (List.mem_cons_of_mem x hy)
      have hboth : Yields P (Act.together overlapping (f x) (Act.allTogether overlapping f xs)) _ :=
        together (h x List.mem_cons_self) hrest
      rcases hboth s hs with ⟨hanswer, hstate⟩
      constructor
      · rw [allTogether_cons_answer, hanswer, List.mapM_cons]
        cases g x with
        | ok a => cases xs.mapM g <;> rfl
        | error e => rfl
      · exact hstate

theorem inTurn {f : β → Act σ α} {g : β → Except CoreError α} {xs : List β}
    (h : ∀ x ∈ xs, Yields P (f x) (g x)) : Yields P (Act.inTurn f xs) (xs.mapM g) := by
  induction xs with
  | nil => exact fun _ hs => ⟨rfl, hs⟩
  | cons x xs ih =>
      have hrest := ih fun y hy => h y (List.mem_cons_of_mem x hy)
      rw [List.mapM_cons]
      exact bind (h x List.mem_cons_self) fun a _ => bind hrest fun as _ => pure (a :: as)

end Yields

/-!
# Errors of a kind
-/

def FailsOnly (kind : CoreError → Prop) (x : Act σ α) : Prop :=
  ∀ s, Results.FailsOnly kind (x s).answer

namespace FailsOnly

variable {kind : CoreError → Prop}

theorem pure (a : α) : FailsOnly kind (Pure.pure a : Act σ α) :=
  fun _ => Results.FailsOnly.ok a

theorem ofExcept {r : Except CoreError α} (h : Results.FailsOnly kind r) :
    FailsOnly kind (Act.ofExcept r : Act σ α) :=
  fun _ => h

theorem report (notices : List Notice) : FailsOnly kind (Act.report notices : Act σ Unit) :=
  fun _ => Results.FailsOnly.ok ()

theorem look (f : σ → α) : FailsOnly kind (Act.look f) :=
  fun s => Results.FailsOnly.ok (f s)

theorem change (f : σ → σ) : FailsOnly kind (Act.change f) :=
  fun _ => Results.FailsOnly.ok ()

theorem mono {wider : CoreError → Prop} (hkind : ∀ e, kind e → wider e) {x : Act σ α}
    (h : FailsOnly kind x) : FailsOnly wider x :=
  fun s => (h s).mono hkind

theorem bind {x : Act σ α} {f : α → Act σ β} (hx : FailsOnly kind x)
    (hf : ∀ a, FailsOnly kind (f a)) : FailsOnly kind (x >>= f) := by
  intro s
  rw [bind_answer]
  exact (hx s).bind fun a => hf a _

theorem together {overlapping : Bool} {x : Act σ α} {y : Act σ β} (hx : FailsOnly kind x)
    (hy : FailsOnly kind y) : FailsOnly kind (Act.together overlapping x y) := by
  intro s
  rw [together_answer]
  exact (hx s).bind fun a => (hy _).map fun b => (a, b)

theorem allTogether {overlapping : Bool} {f : β → Act σ α} {xs : List β}
    (h : ∀ x ∈ xs, FailsOnly kind (f x)) : FailsOnly kind (Act.allTogether overlapping f xs) := by
  induction xs with
  | nil => exact pure []
  | cons x xs ih =>
      intro s
      have hrest := ih fun y hy => h y (List.mem_cons_of_mem x hy)
      rw [allTogether_cons_answer]
      exact (together (h x List.mem_cons_self) hrest s).map _

theorem inTurn {f : β → Act σ α} {xs : List β} (h : ∀ x ∈ xs, FailsOnly kind (f x)) :
    FailsOnly kind (Act.inTurn f xs) := by
  induction xs with
  | nil => exact pure []
  | cons x xs ih =>
      have hrest := ih fun y hy => h y (List.mem_cons_of_mem x hy)
      exact bind (h x List.mem_cons_self) fun a => bind hrest fun as => pure (a :: as)

end FailsOnly
end Act
end WalletLedger
