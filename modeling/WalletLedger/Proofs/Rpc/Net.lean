import WalletLedger.Proofs.Rpc.Batch

/-!
# Exchanges in flight

Many exchanges of one client are under way at once.  Each of them takes its ids from the
counter, sends its body, has the other side reply to it and receives the reply; between any
two of these steps the other exchanges may take steps of theirs.  Whatever the order, the ids
come out of the counter one after another and every reply is one to the body that was sent.
-/

namespace WalletLedger
namespace Rpc

/-!
# Parcels
-/

inductive Parcel where
  | alone (call : Call)
  | together (calls : List Call)

def Parcel.calls : Parcel → List Call
  | alone call => [call]
  | together calls => calls

structure Envelope where
  start : UInt64
  parcel : Parcel

namespace Envelope

def ids (e : Envelope) : List UInt64 :=
  (requestsFrom e.start e.parcel.calls).map Request.id

def body (e : Envelope) : String :=
  match e.parcel with
  | .alone call => Request.body ⟨e.start, call⟩
  | .together calls => batchBody (requestsFrom e.start calls)

def read (e : Envelope) (d : Delivery) : Except CoreError (List Json) :=
  match e.parcel with
  | .alone _ => (readSingle d).map fun result => [result]
  | .together calls => readBatch e.start calls.length d

end Envelope

def idsOf (envelopes : List Envelope) : List UInt64 :=
  envelopes.flatMap Envelope.ids

/-!
# Flights
-/

/-- How far an exchange has come. -/
inductive Flight where
  | waiting (parcel : Parcel)
  | numbered (e : Envelope)
  | sent (e : Envelope)
  | replied (e : Envelope) (d : Delivery)
  | received (e : Envelope) (d : Delivery)

namespace Flight

def parcel : Flight → Parcel
  | waiting parcel => parcel
  | numbered e | sent e | replied e _ | received e _ => e.parcel

def taken : Flight → List Envelope
  | waiting _ => []
  | numbered e | sent e | replied e _ | received e _ => [e]

def posted : Flight → List Envelope
  | waiting _ | numbered _ => []
  | sent e | replied e _ | received e _ => [e]

def stepsLeft : Flight → Nat
  | waiting _ => 4
  | numbered _ => 3
  | sent _ => 2
  | replied _ _ => 1
  | received _ _ => 0

def Brings (f : Flight) (results : List Json) : Prop :=
  ∃ e d, f = received e d ∧ e.read d = .ok results

theorem parcel_of_mem_taken {f : Flight} {e : Envelope} (h : e ∈ f.taken) :
    e.parcel = f.parcel := by
  cases f with
  | waiting parcel => exact absurd h List.not_mem_nil
  | numbered e' | sent e' | replied e' d | received e' d =>
      rw [List.mem_singleton.mp h]
      rfl

theorem posted_sublist_taken (f : Flight) : f.posted.Sublist f.taken := by
  cases f with
  | waiting parcel => exact .slnil
  | numbered e => exact List.nil_sublist _
  | sent e | replied e d | received e d => exact .refl _

end Flight

/-- A client, with the ids that were taken and the bodies that were sent, in their order. -/
structure Line (π : Type) where
  client : Client π
  taken : List Envelope
  posted : List Envelope

inductive Flight.Step {π : Type} (a : Access π) :
    Line π → Flight → Line π → Flight → Prop where
  | reserve {l : Line π} {parcel : Parcel} {start : UInt64} {c : Client π} :
      (Client.reserve parcel.calls.length).Succeeds l.client start c →
        Step a l (.waiting parcel) ⟨c, l.taken ++ [⟨start, parcel⟩], l.posted⟩
          (.numbered ⟨start, parcel⟩)
  | send {l : Line π} {e : Envelope} :
      Step a l (.numbered e) { l with posted := l.posted ++ [e] } (.sent e)
  | reply {l : Line π} {e : Envelope} {d : Delivery} {c : Client π} :
      (a.exchange e.body).Succeeds l.client d c →
        Step a l (.sent e) { l with client := c } (.replied e d)
  | receive {l : Line π} {e : Envelope} {d : Delivery} :
      Step a l (.replied e d) l (.received e d)

theorem reserve_succeeds_iff {π : Type} {c c' : Client π} {count : Nat} {start : UInt64} :
    (Client.reserve count).Succeeds c start c' ↔
      start = c.nextId ∧ c' = { c with nextId := c.nextId + UInt64.ofNat count } := by
  constructor
  · intro h
    rcases h with ⟨hanswer, hstate⟩
    cases hanswer
    exact ⟨rfl, hstate.symm⟩
  · intro h
    rcases h with ⟨rfl, rfl⟩
    exact ⟨rfl, rfl⟩

theorem exchange_succeeds_iff {π : Type} {a : Access π} {c c' : Client π} {body : String}
    {d : Delivery} :
    (a.exchange body).Succeeds c d c' ↔
      d = a.reply body c.peer ∧
        c' = { c with peer := (a.peer ⟨a.credentials, body⟩ c.peer).2 } := by
  constructor
  · intro h
    rcases h with ⟨hanswer, hstate⟩
    cases hanswer
    exact ⟨rfl, hstate.symm⟩
  · intro h
    rcases h with ⟨rfl, rfl⟩
    exact ⟨rfl, rfl⟩

section Steps

variable {π : Type} {a : Access π} {l l' : Line π} {f f' : Flight}

theorem Flight.Step.parcel_eq (h : Flight.Step a l f l' f') : f'.parcel = f.parcel := by
  cases h <;> rfl

theorem Flight.Step.stepsLeft_eq (h : Flight.Step a l f l' f') :
    f'.stepsLeft + 1 = f.stepsLeft := by
  cases h <;> rfl

/-- Nothing ever keeps an exchange from taking its next step. -/
theorem Flight.exists_step (a : Access π) (l : Line π) {f : Flight} (h : f.stepsLeft ≠ 0) :
    ∃ l' f', Flight.Step a l f l' f' := by
  cases f with
  | waiting parcel => exact ⟨_, _, .reserve ⟨rfl, rfl⟩⟩
  | numbered e => exact ⟨_, _, .send⟩
  | sent e => exact ⟨_, _, .reply ⟨rfl, rfl⟩⟩
  | replied e d => exact ⟨_, _, .receive⟩
  | received e d => exact absurd rfl h

/-!
# What the steps keep
-/

def Flight.Heard (a : Access π) : Flight → Prop
  | .replied e d | .received e d => ∃ p, d = a.reply e.body p
  | _ => True

/-- The ids that were taken follow one another from `first` on, and the flights account for
everything that was taken and everything that was sent. -/
structure Line.Orderly (a : Access π) (first : UInt64) (l : Line π) (flights : List Flight) :
    Prop where
  counter : l.client.nextId = first + UInt64.ofNat (idsOf l.taken).length
  ids : idsOf l.taken =
    (List.range (idsOf l.taken).length).map fun k => first + UInt64.ofNat k
  taken : (flights.flatMap Flight.taken).Perm l.taken
  posted : (flights.flatMap Flight.posted).Perm l.posted
  heard : ∀ f ∈ flights, f.Heard a

theorem idsOf_append (envelopes : List Envelope) (e : Envelope) :
    idsOf (envelopes ++ [e]) = idsOf envelopes ++ e.ids := by
  simp [idsOf]

theorem Envelope.length_ids (e : Envelope) : e.ids.length = e.parcel.calls.length := by
  rw [Envelope.ids, ids_of_requestsFrom, List.length_map, List.length_range]

/-- One flight more accounts for one envelope more. -/
theorem perm_flatMap_of_replaced {g : Flight → List Envelope} {left right : List Flight}
    {e : Envelope} {log : List Envelope} (h : ((left ++ f :: right).flatMap g).Perm log)
    (hf : g f = []) (hf' : g f' = [e]) :
    ((left ++ f' :: right).flatMap g).Perm (log ++ [e]) := by
  rw [List.flatMap_append, List.flatMap_cons, hf, List.nil_append] at h
  rw [List.flatMap_append, List.flatMap_cons, hf', List.singleton_append]
  exact List.perm_middle.trans ((h.cons e).trans (List.perm_append_singleton e log).symm)

theorem perm_flatMap_of_same {g : Flight → List Envelope} {left right : List Flight}
    {log : List Envelope} (h : ((left ++ f :: right).flatMap g).Perm log) (hsame : g f = g f') :
    ((left ++ f' :: right).flatMap g).Perm log := by
  rw [List.flatMap_append, List.flatMap_cons, ← hsame]
  rw [List.flatMap_append, List.flatMap_cons] at h
  exact h

theorem heard_of_replaced {left right : List Flight} (hf' : f'.Heard a)
    (h : ∀ g ∈ left ++ f :: right, g.Heard a) : ∀ g ∈ left ++ f' :: right, g.Heard a := by
  intro g hg
  rcases List.mem_append.mp hg with hg | hg
  · exact h g (List.mem_append_left _ hg)
  · rcases List.mem_cons.mp hg with rfl | hg
    · exact hf'
    · exact h g (List.mem_append_right _ (List.mem_cons_of_mem f hg))

theorem Line.Orderly.step {first : UInt64} {left right : List Flight}
    (h : Flight.Step a l f l' f') (hl : l.Orderly a first (left ++ f :: right)) :
    l'.Orderly a first (left ++ f' :: right) := by
  cases h with
  | @reserve parcel start c hreserve =>
      rcases reserve_succeeds_iff.mp hreserve with ⟨rfl, rfl⟩
      let e : Envelope := ⟨l.client.nextId, parcel⟩
      have hlength : (idsOf (l.taken ++ [e])).length =
          (idsOf l.taken).length + parcel.calls.length := by
        rw [idsOf_append, List.length_append, e.length_ids]
      constructor
      · change l.client.nextId + _ = first + UInt64.ofNat (idsOf (l.taken ++ [e])).length
        rw [hlength, UInt64.ofNat_add, ← UInt64.add_assoc, ← hl.counter]
      · -- The new ids go on from where the counter was.
        change idsOf (l.taken ++ [e]) = _
        rw [hlength, List.range_add, List.map_append, ← hl.ids, idsOf_append, List.map_map]
        congr 1
        rw [Envelope.ids, ids_of_requestsFrom]
        apply List.map_congr_left
        intro k _
        change l.client.nextId + _ = first + UInt64.ofNat (_ + k)
        rw [UInt64.ofNat_add, ← UInt64.add_assoc, ← hl.counter]
      · exact perm_flatMap_of_replaced hl.taken rfl rfl
      · exact perm_flatMap_of_same hl.posted rfl
      · exact heard_of_replaced trivial hl.heard
  | @send e =>
      exact ⟨hl.counter, hl.ids, perm_flatMap_of_same hl.taken rfl,
        perm_flatMap_of_replaced hl.posted rfl rfl, heard_of_replaced trivial hl.heard⟩
  | @reply e d c hexchange =>
      rcases exchange_succeeds_iff.mp hexchange with ⟨rfl, rfl⟩
      exact ⟨hl.counter, hl.ids, perm_flatMap_of_same hl.taken rfl,
        perm_flatMap_of_same hl.posted rfl, heard_of_replaced ⟨_, rfl⟩ hl.heard⟩
  | @receive e d =>
      have hheard : Flight.Heard a (.replied e d) :=
        hl.heard _ (List.mem_append_right _ List.mem_cons_self)
      exact ⟨hl.counter, hl.ids, perm_flatMap_of_same hl.taken rfl,
        perm_flatMap_of_same hl.posted rfl, heard_of_replaced hheard hl.heard⟩

end Steps

/-!
# Tasks and nets
-/

inductive Demand where
  | one (call : Call)
  | many (calls : List Call)

def Demand.parcels (size : Nat) : Demand → List Parcel
  | one call => [.alone call]
  | many calls => (chunksOf size calls).map .together

/-- A demand and the exchanges that are made for it. -/
structure Task where
  demand : Demand
  flights : List Flight

namespace Task

def start (size : Nat) (demand : Demand) : Task :=
  ⟨demand, (demand.parcels size).map .waiting⟩

def stepsLeft (t : Task) : Nat :=
  (t.flights.map Flight.stepsLeft).sum

def Returns (t : Task) (results : List Json) : Prop :=
  ∃ parts, List.Forall₂ Flight.Brings t.flights parts ∧ results = parts.flatten

end Task

structure Net (π : Type) where
  line : Line π
  tasks : List Task

namespace Net

variable {π : Type} {a : Access π}

def idle (c : Client π) : Net π :=
  ⟨⟨c, [], []⟩, []⟩

def flights (net : Net π) : List Flight :=
  net.tasks.flatMap Task.flights

/-- The client is asked for something, an exchange takes a step, or something else happens that
leaves the counter alone. -/
inductive Step (a : Access π) : Net π → Net π → Prop where
  | ask {l : Line π} {tasks : List Task} (demand : Demand) :
      Step a ⟨l, tasks⟩ ⟨l, tasks ++ [.start a.chunkSize demand]⟩
  | move {l l' : Line π} {before after : List Task} {demand : Demand}
      {left right : List Flight} {f f' : Flight} :
      Flight.Step a l f l' f' →
        Step a ⟨l, before ++ ⟨demand, left ++ f :: right⟩ :: after⟩
          ⟨l', before ++ ⟨demand, left ++ f' :: right⟩ :: after⟩
  | meanwhile {l : Line π} {tasks : List Task} {c : Client π} :
      c.nextId = l.client.nextId → Step a ⟨l, tasks⟩ ⟨{ l with client := c }, tasks⟩

abbrev Run (a : Access π) : Net π → Net π → Prop :=
  Relation.ReflTransGen (Step a)

structure Orderly (a : Access π) (first : UInt64) (net : Net π) : Prop where
  line : net.line.Orderly a first net.flights
  parcels : ∀ t ∈ net.tasks, t.flights.map Flight.parcel = t.demand.parcels a.chunkSize

theorem flights_of_split {l : Line π} {before after : List Task} {demand : Demand}
    {left right : List Flight} {f : Flight} :
    flights ⟨l, before ++ ⟨demand, left ++ f :: right⟩ :: after⟩ =
      (before.flatMap Task.flights ++ left) ++ f :: (right ++ after.flatMap Task.flights) := by
  simp [flights]

theorem flights_of_start (size : Nat) (demand : Demand) (g : Flight → List Envelope)
    (hg : ∀ parcel, g (.waiting parcel) = []) :
    (Task.start size demand).flights.flatMap g = [] := by
  simp [Task.start, List.flatMap_map, hg]

theorem orderly_idle (c : Client π) : (idle c).Orderly a c.nextId where
  line := {
    counter := (UInt64.add_zero _).symm
    ids := rfl
    taken := .nil
    posted := .nil
    heard := fun _ hf => absurd hf List.not_mem_nil }
  parcels _ ht := absurd ht List.not_mem_nil

theorem Orderly.step {first : UInt64} {net net' : Net π} (h : Step a net net')
    (hnet : net.Orderly a first) : net'.Orderly a first := by
  cases h with
  | @ask l tasks demand =>
      have hflights : flights ⟨l, tasks ++ [.start a.chunkSize demand]⟩ =
          tasks.flatMap Task.flights ++ (Task.start a.chunkSize demand).flights := by
        simp [flights]
      constructor
      · -- The new flights have neither taken nor sent nor received anything.
        have hline := hnet.line
        refine ⟨hline.counter, hline.ids, ?_, ?_, ?_⟩
        · rw [hflights, List.flatMap_append, flights_of_start _ _ _ fun _ => rfl,
            List.append_nil]
          exact hline.taken
        · rw [hflights, List.flatMap_append, flights_of_start _ _ _ fun _ => rfl,
            List.append_nil]
          exact hline.posted
        · rw [hflights]
          intro f hf
          rcases List.mem_append.mp hf with hf | hf
          · exact hline.heard f hf
          · rcases List.mem_map.mp hf with ⟨parcel, _, rfl⟩
            trivial
      · intro t ht
        rcases List.mem_append.mp ht with ht | ht
        · exact hnet.parcels t ht
        · rw [List.mem_singleton.mp ht]
          change ((demand.parcels a.chunkSize).map Flight.waiting).map Flight.parcel = _
          rw [List.map_map]
          exact List.map_id _
  | @move l l' before after demand left right f f' hstep =>
      constructor
      · have hline := hnet.line
        rw [flights_of_split] at hline ⊢
        exact hline.step hstep
      · intro t ht
        rcases List.mem_append.mp ht with ht | ht
        · exact hnet.parcels t (List.mem_append_left _ ht)
        · rcases List.mem_cons.mp ht with rfl | ht
          · have hold := hnet.parcels ⟨demand, left ++ f :: right⟩
              (List.mem_append_right _ List.mem_cons_self)
            rw [← hold]
            simp [hstep.parcel_eq]
          · exact hnet.parcels t (List.mem_append_right _ (List.mem_cons_of_mem _ ht))
  | meanwhile hcounter =>
      have hline := hnet.line
      exact ⟨⟨hcounter.trans hline.counter, hline.ids, hline.taken, hline.posted, hline.heard⟩,
        hnet.parcels⟩

theorem Orderly.run {first : UInt64} {net net' : Net π} (h : Run a net net')
    (hnet : net.Orderly a first) : net'.Orderly a first := by
  induction h with
  | refl => exact hnet
  | tail _ hstep ih => exact ih.step hstep

end Net
end Rpc
end WalletLedger
