import WalletLedger.Notice

/-!
# Actions

An action works on a state, reports notices and ends with an answer or an error.  After an
error nothing more is done; what was done before it stays done.
-/

namespace WalletLedger

structure Outcome (σ α : Type) where
  answer : Except CoreError α
  notices : List Notice
  state : σ

def Act (σ α : Type) : Type := σ → Outcome σ α

namespace Act

variable {σ τ α β : Type}

def done (x : α) : Act σ α :=
  fun s => ⟨.ok x, [], s⟩

def fail (e : CoreError) : Act σ α :=
  fun s => ⟨.error e, [], s⟩

def andThen (x : Act σ α) (f : α → Act σ β) : Act σ β := fun s =>
  let first := x s
  match first.answer with
  | .ok a =>
      let second := f a first.state
      ⟨second.answer, first.notices ++ second.notices, second.state⟩
  | .error e => ⟨.error e, first.notices, first.state⟩

instance : Monad (Act σ) where
  pure := done
  bind := andThen

def ofExcept (r : Except CoreError α) : Act σ α :=
  fun s => ⟨r, [], s⟩

def report (notices : List Notice) : Act σ Unit :=
  fun s => ⟨.ok (), notices, s⟩

def look (f : σ → α) : Act σ α :=
  fun s => ⟨.ok (f s), [], s⟩

def change (f : σ → σ) : Act σ Unit :=
  fun s => ⟨.ok (), [], f s⟩

def orElse (x : Act σ α) (handle : CoreError → Act σ α) : Act σ α := fun s =>
  let first := x s
  match first.answer with
  | .ok a => ⟨.ok a, first.notices, first.state⟩
  | .error e =>
      let second := handle e first.state
      ⟨second.answer, first.notices ++ second.notices, second.state⟩

/--
Two actions made together.  If they overlap, the second is done even when the first
fails; in either case the error of the first is the one that counts.
-/
def together (overlapping : Bool) (x : Act σ α) (y : Act σ β) : Act σ (α × β) := fun s =>
  let first := x s
  match first.answer with
  | .ok a =>
      let second := y first.state
      ⟨second.answer.map fun b => (a, b), first.notices ++ second.notices, second.state⟩
  | .error e =>
      if overlapping then
        let second := y first.state
        ⟨.error e, first.notices ++ second.notices, second.state⟩
      else
        ⟨.error e, first.notices, first.state⟩

def allTogether (overlapping : Bool) (f : β → Act σ α) : List β → Act σ (List α)
  | [] => done []
  | x :: xs => fun s =>
      let r := together overlapping (f x) (allTogether overlapping f xs) s
      ⟨r.answer.map fun (a, as) => a :: as, r.notices, r.state⟩

/-- One action after another, up to the first error. -/
def inTurn (f : β → Act σ α) : List β → Act σ (List α)
  | [] => done []
  | x :: xs => andThen (f x) fun a => andThen (inTurn f xs) fun as => done (a :: as)

def within (get : τ → σ) (set : σ → τ → τ) (x : Act σ α) : Act τ α := fun t =>
  let r := x (get t)
  ⟨r.answer, r.notices, set r.state t⟩

end Act
end WalletLedger
