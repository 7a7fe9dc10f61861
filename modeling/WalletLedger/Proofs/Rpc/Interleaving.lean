import WalletLedger.Proofs.Rpc.Net
import WalletLedger.Proofs.Rpc.Runs

/-!
# Exchanges in any order

Exchanges under way at once never share an id, and what their replies bring does not depend on
the order of their steps.  Making them one after another is one of the orders.
-/

namespace WalletLedger
namespace Rpc

/-!
# Ids
-/

section Ids

variable {π : Type} {a : Access π} {l : Line π} {first : UInt64} {flights : List Flight}

theorem Line.Orderly.length_calls_le (hl : l.Orderly a first flights) {f : Flight}
    (hf : f ∈ flights) {e : Envelope} (he : e ∈ f.taken) :
    e.parcel.calls.length ≤ (idsOf l.taken).length := by
  have htaken : e ∈ l.taken := hl.taken.mem_iff.mp (List.mem_flatMap.mpr ⟨f, hf, he⟩)
  rcases List.append_of_mem htaken with ⟨before, after, hsplit⟩
  rw [← e.length_ids, hsplit, idsOf, List.flatMap_append, List.flatMap_cons, List.length_append,
    List.length_append]
  omega

variable (hl : l.Orderly a first flights)
  (hcounter : first.toNat + (idsOf l.taken).length < 2 ^ 64)

include hl hcounter

theorem Line.Orderly.numbers :
    (idsOf l.taken).map UInt64.toNat = List.range' first.toNat (idsOf l.taken).length := by
  conv_lhs => rw [hl.ids]
  exact toNat_of_counted hcounter.le

theorem Line.Orderly.nodup_taken : (idsOf l.taken).Nodup := by
  apply List.Nodup.of_map UInt64.toNat
  rw [hl.numbers hcounter]
  exact List.nodup_range' 1

theorem Line.Orderly.disjoint_taken : l.taken.Pairwise fun e e' => e.ids.Disjoint e'.ids :=
  (List.nodup_flatMap.mp (hl.nodup_taken hcounter)).2

theorem Line.Orderly.nodup_posted : (idsOf l.posted).Nodup := by
  have hpart : (flights.flatMap Flight.posted).Sublist (flights.flatMap Flight.taken) :=
    .flatMap_right flights fun f _ => f.posted_sublist_taken
  have htaken := (hl.taken.flatMap_right Envelope.ids).nodup_iff.mpr (hl.nodup_taken hcounter)
  exact (hl.posted.flatMap_right Envelope.ids).nodup_iff.mp ((hpart.flatMap _).nodup htaken)

end Ids

/-!
# Pieces
-/

namespace Net

variable {π : Type} {a : Access π} {net : Net π} {first : UInt64}

theorem mem_flights {t : Task} (ht : t ∈ net.tasks) {f : Flight} (hf : f ∈ t.flights) :
    f ∈ net.flights :=
  List.mem_flatMap.mpr ⟨t, ht, hf⟩

theorem mem_pieces {size : Nat} {demand : Demand} {piece : List Call}
    (h : .together piece ∈ demand.parcels size) :
    ∃ calls, demand = .many calls ∧ piece ∈ chunksOf size calls := by
  cases demand with
  | one call => exact absurd (List.mem_singleton.mp h) nofun
  | many calls =>
      rcases List.mem_map.mp h with ⟨piece', hpiece, heq⟩
      cases heq
      exact ⟨calls, rfl, hpiece⟩

theorem Orderly.mem_parcels (hnet : net.Orderly a first) {t : Task} (ht : t ∈ net.tasks)
    {f : Flight} (hf : f ∈ t.flights) : f.parcel ∈ t.demand.parcels a.chunkSize := by
  rw [← hnet.parcels t ht]
  exact List.mem_map_of_mem hf

theorem Orderly.pieces (hnet : net.Orderly a first) {calls : List Call} {flights : List Flight}
    (ht : ⟨.many calls, flights⟩ ∈ net.tasks) :
    List.Forall₂ (fun f piece => f.parcel = .together piece) flights
      (chunksOf a.chunkSize calls) := by
  have hparcels : flights.map Flight.parcel = (chunksOf a.chunkSize calls).map .together :=
    hnet.parcels _ ht
  rw [← List.forall₂_eq_eq_eq, List.forall₂_map_left_iff, List.forall₂_map_right_iff] at hparcels
  exact hparcels

theorem Orderly.size_of_posted (hnet : net.Orderly a first) {e : Envelope}
    (he : e ∈ net.line.posted) {calls : List Call} (hcalls : e.parcel = .together calls) :
    1 ≤ calls.length ∧ calls.length ≤ a.chunkSize := by
  rcases List.mem_flatMap.mp (hnet.line.posted.mem_iff.mpr he) with ⟨f, hf, hef⟩
  rcases List.mem_flatMap.mp hf with ⟨t, ht, hft⟩
  have hparcel := hnet.mem_parcels ht hft
  rw [← Flight.parcel_of_mem_taken (f.posted_sublist_taken.subset hef), hcalls] at hparcel
  rcases mem_pieces hparcel with ⟨_, _, hpiece⟩
  exact ⟨List.length_pos_of_ne_nil (ne_nil_of_mem_chunksOf hpiece),
    length_le_of_mem_chunksOf a.chunkSize_pos hpiece⟩

end Net

/-!
# Results
-/

theorem Flight.received_of_stepsLeft {f : Flight} (h : f.stepsLeft = 0) :
    ∃ e d, f = .received e d := by
  cases f with
  | received e d => exact ⟨e, d, rfl⟩
  | waiting _ | numbered _ | sent _ | replied _ _ => cases h

theorem Task.stepsLeft_eq_zero_iff {t : Task} :
    t.stepsLeft = 0 ↔ ∀ f ∈ t.flights, f.stepsLeft = 0 := by
  simp [Task.stepsLeft, List.sum_eq_zero_iff_forall_eq_nat]

theorem Task.Returns.unique {t : Task} {results results' : List Json} (h : t.Returns results)
    (h' : t.Returns results') : results = results' := by
  rcases h with ⟨parts, hparts, rfl⟩
  rcases h' with ⟨parts', hparts', rfl⟩
  have hunique : parts = parts' := by
    refine List.right_unique_forall₂' ?_ hparts hparts'
    intro f part part' hf hf'
    rcases hf with ⟨e, d, rfl, hread⟩
    rcases hf' with ⟨e', d', heq, hread'⟩
    cases heq
    rw [hread] at hread'
    cases hread'
    rfl
  rw [hunique]

namespace Net

variable {π : Type} {a : Access π} {net : Net π} {first : UInt64}

/-- When all replies to a demand are in, they are the results of its calls in order. -/
theorem Orderly.returns (hnet : net.Orderly a first)
    (hcounter : first.toNat + (idsOf net.line.taken).length < 2 ^ 64) {kind : Call → Prop}
    {result : Call → Json} (hanswers : a.AnswersTogether kind fun call => .ok (result call))
    {calls : List Call} (hkind : ∀ call ∈ calls, kind call) {flights : List Flight}
    (ht : ⟨.many calls, flights⟩ ∈ net.tasks)
    (hdone : Task.stepsLeft ⟨.many calls, flights⟩ = 0) :
    Task.Returns ⟨.many calls, flights⟩ (calls.map result) := by
  refine ⟨(chunksOf a.chunkSize calls).map (·.map result), ?_, ?_⟩
  · have hboth := (List.forall₂_and_left _ _).mpr
      ⟨fun f hf => And.intro hf (Task.stepsLeft_eq_zero_iff.mp hdone f hf), hnet.pieces ht⟩
    rw [List.forall₂_map_right_iff]
    refine hboth.imp ?_
    intro f piece hf
    rcases hf with ⟨⟨hf, hreceived⟩, hparcel⟩
    have hpiece : piece ∈ chunksOf a.chunkSize calls := by
      rcases mem_pieces (hparcel ▸ hnet.mem_parcels ht hf) with ⟨_, heq, hpiece⟩
      cases heq
      exact hpiece
    have hmem := mem_flights ht hf
    rcases Flight.received_of_stepsLeft hreceived with ⟨e, d, rfl⟩
    rcases e with ⟨start, parcel⟩
    change parcel = .together piece at hparcel
    subst hparcel
    -- The reply is one to the body of this piece, whenever it came.
    rcases hnet.line.heard _ hmem with ⟨p, hd⟩
    have hlength := hnet.line.length_calls_le hmem List.mem_cons_self
    change piece.length ≤ _ at hlength
    have hread := readBatch_of_carriesItems (by omega)
      (hanswers piece (ne_nil_of_mem_chunksOf hpiece)
        (fun call hcall => hkind call (mem_of_mem_chunksOf hpiece hcall)) start p)
    refine ⟨_, d, rfl, ?_⟩
    rw [hd]
    exact hread.trans (Results.mapM_eq_ok_map fun _ _ => rfl)
  · rw [← List.map_flatten, flatten_chunksOf]

theorem exists_finish (a : Access π) (before after : List Task) (l : Line π) (t : Task) :
    ∃ l' flights, Run a ⟨l, before ++ t :: after⟩ ⟨l', before ++ ⟨t.demand, flights⟩ :: after⟩ ∧
      Task.stepsLeft ⟨t.demand, flights⟩ = 0 := by
  induction hsteps : t.stepsLeft generalizing l t with
  | zero => exact ⟨l, t.flights, .refl, hsteps⟩
  | succ n ih =>
      rcases t with ⟨demand, flights⟩
      have hsome : ∃ f ∈ flights, f.stepsLeft ≠ 0 := by
        by_contra hnone
        push Not at hnone
        rw [Task.stepsLeft_eq_zero_iff.mpr hnone] at hsteps
        cases hsteps
      rcases hsome with ⟨f, hf, hleft⟩
      rcases List.append_of_mem hf with ⟨left, right, rfl⟩
      rcases Flight.exists_step a l hleft with ⟨l₁, f₁, hstep⟩
      have hless := hstep.stepsLeft_eq
      rcases ih l₁ ⟨demand, left ++ f₁ :: right⟩ (by
        simp only [Task.stepsLeft, List.map_append, List.map_cons, List.sum_append,
          List.sum_cons] at hsteps ⊢
        omega) with ⟨l', flights, hrun, hdone⟩
      exact ⟨l', flights, .head (.move hstep) hrun, hdone⟩

end Net

/-!
# One after another
-/

def Parcel.make {π : Type} (a : Access π) (parcel : Parcel) : Act (Client π) (List Json) := do
  let start ← Client.reserve parcel.calls.length
  let delivery ← a.exchange (Envelope.body ⟨start, parcel⟩)
  Act.ofExcept (Envelope.read ⟨start, parcel⟩ delivery)

def Demand.make {π : Type} (a : Access π) (demand : Demand) : Act (Client π) (List Json) := do
  let parts ← Act.allTogether true (Parcel.make a) (demand.parcels a.chunkSize)
  return parts.flatten

section Uninterrupted

variable {π : Type} (a : Access π)

theorem make_many (calls : List Call) : Demand.make a (.many calls) = a.batches calls := by
  unfold Demand.make Access.batches Demand.parcels
  rw [Act.allTogether_map]
  rfl

theorem make_one (call : Call) (c : Client π) :
    (Demand.make a (.one call) c).answer =
        (a.single call c).answer.map (fun result => [result]) ∧
      (Demand.make a (.one call) c).state = (a.single call c).state := by
  have hrun := Act.bind_pure_run
    (Act.allTogether true (Parcel.make a) [.alone call]) List.flatten c
  have hmade : (Parcel.make a (.alone call) c).answer =
      (a.single call c).answer.map fun result => [result] := rfl
  constructor
  · refine hrun.1.trans ?_
    rw [Act.allTogether_cons_answer, Act.together_answer, hmade]
    cases (a.single call c).answer <;> rfl
  · refine hrun.2.trans ?_
    rw [Act.allTogether_cons_state]
    rfl

namespace Net

theorem run_parcel (tasks : List Task) (demand : Demand) (left right : List Flight) (l : Line π)
    (parcel : Parcel) :
    ∃ l' f, Run a ⟨l, tasks ++ [⟨demand, left ++ .waiting parcel :: right⟩]⟩
        ⟨l', tasks ++ [⟨demand, left ++ f :: right⟩]⟩ ∧
      f.stepsLeft = 0 ∧ l'.client = (parcel.make a l.client).state ∧
      (idsOf l'.taken).length = (idsOf l.taken).length + parcel.calls.length ∧
      ∀ part, f.Brings part ↔ (parcel.make a l.client).answer = .ok part := by
  let e : Envelope := ⟨l.client.nextId, parcel⟩
  let d := a.reply e.body l.client.peer
  have hsteps : Run a ⟨l, tasks ++ [⟨demand, left ++ .waiting parcel :: right⟩]⟩
      ⟨⟨(parcel.make a l.client).state, l.taken ++ [e], l.posted ++ [e]⟩,
        tasks ++ [⟨demand, left ++ .received e d :: right⟩]⟩ :=
    .head (.move (.reserve ⟨rfl, rfl⟩)) <| .head (.move .send) <|
      .head (.move (.reply ⟨rfl, rfl⟩)) <| .single (.move .receive)
  refine ⟨_, _, hsteps, rfl, rfl, ?_, ?_⟩
  · rw [idsOf_append, List.length_append, e.length_ids]
  · intro part
    constructor
    · intro h
      rcases h with ⟨e', d', heq, hread⟩
      cases heq
      exact hread
    · intro h
      exact ⟨e, d, rfl, h⟩

theorem run_parcels (tasks : List Task) (demand : Demand) (parcels : List Parcel)
    (left : List Flight) (l : Line π) :
    ∃ l' flights, Run a ⟨l, tasks ++ [⟨demand, left ++ parcels.map .waiting⟩]⟩
        ⟨l', tasks ++ [⟨demand, left ++ flights⟩]⟩ ∧
      (∀ f ∈ flights, f.stepsLeft = 0) ∧
      l'.client = (Act.allTogether true (Parcel.make a) parcels l.client).state ∧
      (idsOf l'.taken).length =
        (idsOf l.taken).length + (parcels.flatMap Parcel.calls).length ∧
      ∀ parts, List.Forall₂ Flight.Brings flights parts ↔
        (Act.allTogether true (Parcel.make a) parcels l.client).answer = .ok parts := by
  induction parcels generalizing left l with
  | nil =>
      refine ⟨l, [], .refl, fun f hf => absurd hf List.not_mem_nil, rfl, rfl, ?_⟩
      intro parts
      rw [List.forall₂_nil_left_iff]
      constructor
      · intro h
        rw [h]
        rfl
      · intro h
        cases h
        rfl
  | cons parcel rest ih =>
      rcases run_parcel a tasks demand left (rest.map .waiting) l parcel with
        ⟨l₁, f, hfirst, hdone, hclient, hcount, hbrings⟩
      rcases ih (left ++ [f]) l₁ with ⟨l', flights, hrest, hall, hclient', hcount', hparts⟩
      rw [List.append_assoc, List.append_assoc] at hrest
      refine ⟨l', f :: flights, hfirst.trans hrest, ?_, ?_, ?_, ?_⟩
      · exact List.forall_mem_cons.mpr ⟨hdone, hall⟩
      · rw [Act.allTogether_cons_state, ← hclient, hclient']
      · rw [List.flatMap_cons, List.length_append, hcount', hcount]
        omega
      · intro parts
        rw [List.forall₂_cons_left_iff, Act.allTogether_cons_ok_iff, ← hclient]
        constructor
        · intro h
          rcases h with ⟨part, others, hpart, hothers, rfl⟩
          exact ⟨part, others, (hbrings part).mp hpart, (hparts others).mp hothers, rfl⟩
        · intro h
          rcases h with ⟨part, others, hpart, hothers, rfl⟩
          exact ⟨part, others, (hbrings part).mpr hpart, (hparts others).mpr hothers, rfl⟩

theorem exists_run_make (net : Net π) (demand : Demand) :
    ∃ l flights, Run a net ⟨l, net.tasks ++ [⟨demand, flights⟩]⟩ ∧
      Task.stepsLeft ⟨demand, flights⟩ = 0 ∧
      l.client = (demand.make a net.line.client).state ∧
      (idsOf l.taken).length = (idsOf net.line.taken).length +
        ((demand.parcels a.chunkSize).flatMap Parcel.calls).length ∧
      ∀ results, Task.Returns ⟨demand, flights⟩ results ↔
        (demand.make a net.line.client).answer = .ok results := by
  rcases run_parcels a net.tasks demand (demand.parcels a.chunkSize) [] net.line with
    ⟨l, flights, hrun, hall, hclient, hcount, hparts⟩
  have hmade := Act.bind_pure_run
    (Act.allTogether true (Parcel.make a) (demand.parcels a.chunkSize)) List.flatten
    net.line.client
  refine ⟨l, flights, .head (.ask demand) hrun, Task.stepsLeft_eq_zero_iff.mpr hall,
    hclient.trans hmade.2.symm, hcount, ?_⟩
  intro results
  refine Iff.trans ?_ (Eq.congr_left hmade.1).symm
  rw [Results.map_eq_ok_iff]
  constructor
  · intro h
    rcases h with ⟨parts, hbrings, rfl⟩
    exact ⟨parts, (hparts parts).mp hbrings, rfl⟩
  · intro h
    rcases h with ⟨parts, hanswer, rfl⟩
    exact ⟨parts, (hparts parts).mpr hanswer, rfl⟩

theorem exists_run_single (net : Net π) (call : Call) :
    ∃ l flights, Run a net ⟨l, net.tasks ++ [⟨.one call, flights⟩]⟩ ∧
      l.client = (a.single call net.line.client).state ∧
      ∀ result, Task.Returns ⟨.one call, flights⟩ [result] ↔
        (a.single call net.line.client).answer = .ok result := by
  rcases exists_run_make a net (.one call) with ⟨l, flights, hrun, _, hclient, _, hreturns⟩
  have hmade := make_one a call net.line.client
  refine ⟨l, flights, hrun, hclient.trans hmade.2, ?_⟩
  intro result
  rw [hreturns, hmade.1, Results.map_eq_ok_iff]
  constructor
  · intro h
    rcases h with ⟨made, hanswer, heq⟩
    exact List.singleton_inj.mp heq ▸ hanswer
  · intro h
    exact ⟨result, h, rfl⟩

theorem exists_run_batches (net : Net π) (calls : List Call) :
    ∃ l flights, Run a net ⟨l, net.tasks ++ [⟨.many calls, flights⟩]⟩ ∧
      l.client = (a.batches calls net.line.client).state ∧
      ∀ results, Task.Returns ⟨.many calls, flights⟩ results ↔
        (a.batches calls net.line.client).answer = .ok results := by
  rcases exists_run_make a net (.many calls) with ⟨l, flights, hrun, _, hclient, _, hreturns⟩
  rw [make_many] at hclient hreturns
  exact ⟨l, flights, hrun, hclient, hreturns⟩

end Net
end Uninterrupted

theorem calls_of_parcels (size : Nat) (calls : List Call) :
    ((Demand.many calls).parcels size).flatMap Parcel.calls = calls := by
  unfold Demand.parcels
  rw [List.flatMap_map]
  exact List.flatMap_id.trans (flatten_chunksOf calls)

theorem Access.batches_answer {π : Type} {a : Access π} {kind : Call → Prop}
    {result : Call → Json} (hanswers : a.AnswersTogether kind fun call => .ok (result call))
    {calls : List Call} (hkind : ∀ call ∈ calls, kind call) {c : Client π}
    (hcounter : c.nextId.toNat + calls.length < 2 ^ 64) :
    (a.batches calls c).answer = .ok (calls.map result) := by
  rcases Net.exists_run_make a (.idle c) (.many calls) with
    ⟨l, flights, hrun, hdone, _, hcount, hreturns⟩
  have hnet := (Net.orderly_idle c).run hrun
  rw [calls_of_parcels] at hcount
  have hcounter' : c.nextId.toNat + (idsOf l.taken).length < 2 ^ 64 := by
    rw [hcount, Nat.add_comm _ calls.length]
    exact hcounter
  rw [← make_many]
  exact (hreturns _).mp (hnet.returns hcounter' hanswers hkind (by simp) hdone)

def Access.resized {π : Type} (a : Access π) (size : Nat) (h : 0 < size) : Access π :=
  { a with chunkSize := size, chunkSize_pos := h }

/-- Whatever the order in which exchanges take ids, send, and get replies, no id is sent twice,
and the results of a list of calls are those that the calls call for, in their order.  Among
the runs are those in which nothing comes between the steps of a single call or of a batch. -/
theorem Net.any_order {π : Type} {a : Access π} {c : Client π} {net : Net π}
    (hrun : Run a (idle c) net)
    (hcounter : c.nextId.toNat + (idsOf net.line.taken).length < 2 ^ 64) :
    (net.flights.flatMap Flight.taken).Perm net.line.taken ∧
    net.line.taken.Pairwise (fun e e' => e.ids.Disjoint e'.ids) ∧
    (idsOf net.line.taken).map UInt64.toNat =
      List.range' c.nextId.toNat (idsOf net.line.taken).length ∧
    (idsOf net.line.posted).Nodup ∧
    (∀ e ∈ net.line.posted, ∀ calls, e.parcel = .together calls →
      1 ≤ calls.length ∧ calls.length ≤ a.chunkSize) ∧
    (∀ call, ∃ l flights, Run a net ⟨l, net.tasks ++ [⟨.one call, flights⟩]⟩ ∧
      l.client = (a.single call net.line.client).state ∧
      ∀ result, Task.Returns ⟨.one call, flights⟩ [result] ↔
        (a.single call net.line.client).answer = .ok result) ∧
    (∀ calls, ∃ l flights, Run a net ⟨l, net.tasks ++ [⟨.many calls, flights⟩]⟩ ∧
      l.client = (a.batches calls net.line.client).state ∧
      ∀ results, Task.Returns ⟨.many calls, flights⟩ results ↔
        (a.batches calls net.line.client).answer = .ok results) ∧
    ∀ before calls flights after, net.tasks = before ++ ⟨.many calls, flights⟩ :: after →
      flights.length = (calls.length + a.chunkSize - 1) / a.chunkSize ∧
      (∃ l flights', Run a net ⟨l, before ++ ⟨.many calls, flights'⟩ :: after⟩ ∧
        Task.stepsLeft ⟨.many calls, flights'⟩ = 0) ∧
      ∀ (kind : Call → Prop) (result : Call → Json),
        a.AnswersTogether kind (fun call => .ok (result call)) →
        (∀ call ∈ calls, kind call) →
          (Task.stepsLeft ⟨.many calls, flights⟩ = 0 → ∀ results,
            Task.Returns ⟨.many calls, flights⟩ results ↔ results = calls.map result) ∧
          ∀ (size : Nat) (hsize : 0 < size) (c' : Client π),
            c'.nextId.toNat + calls.length < 2 ^ 64 →
              ((a.resized size hsize).batches calls c').answer = .ok (calls.map result) := by
  have hnet := (orderly_idle c).run hrun
  refine ⟨hnet.line.taken, hnet.line.disjoint_taken hcounter, hnet.line.numbers hcounter,
    hnet.line.nodup_posted hcounter, fun e he calls hcalls => hnet.size_of_posted he hcalls,
    exists_run_single a net, exists_run_batches a net, ?_⟩
  intro before calls flights after htasks
  have ht : ⟨.many calls, flights⟩ ∈ net.tasks := by
    rw [htasks]
    exact List.mem_append_right _ List.mem_cons_self
  refine ⟨?_, ?_, ?_⟩
  · rw [(hnet.pieces ht).length_eq, length_chunksOf a.chunkSize_pos]
  · have hfinish := exists_finish a before after net.line ⟨.many calls, flights⟩
    rw [← htasks] at hfinish
    exact hfinish
  · intro kind result hanswers hkind
    constructor
    · intro hdone results
      have hreturns := hnet.returns hcounter hanswers hkind ht hdone
      constructor
      · exact fun h => h.unique hreturns
      · rintro rfl
        exact hreturns
    · intro size hsize c' hcounter'
      have hresized : (a.resized size hsize).AnswersTogether kind fun call =>
        .ok (result call) := hanswers
      exact Access.batches_answer hresized hkind hcounter'

/-- Three calls for one address, in two pieces of which the second takes its ids first. -/
theorem Net.any_order_overtaken :
    ∃ (call : Call) (net : Net Unit) (flights : List Flight),
      Run Host.stubborn.inPairs (idle (.start () 1)) net ∧
      net.tasks = [⟨.many [call, call, call], flights⟩] ∧
      idsOf net.line.taken = [1, 2, 3] ∧ idsOf net.line.posted = [2, 3, 1] ∧
      ∀ results, Task.Returns ⟨.many [call, call, call], flights⟩ results ↔
        results = .replicate 3 (.object [("address", .string "somewhere")]) := by
  let key : RenderKey := ⟨entered, .testnet, .zero⟩
  let call : Call := .address key
  let a : Access Unit := Host.stubborn.inPairs
  let demand : Demand := .many [call, call, call]
  let e : Envelope := ⟨2, .together [call, call]⟩
  let e' : Envelope := ⟨1, .together [call]⟩
  let flights : List Flight := [.received e (a.reply e.body ()), .received e' (a.reply e'.body ())]
  let net : Net Unit := ⟨⟨⟨(), 4, .empty⟩, [e', e], [e, e']⟩, [⟨demand, flights⟩]⟩
  have hstart : Task.start a.chunkSize demand =
      ⟨demand, [.waiting e.parcel, .waiting e'.parcel]⟩ := by
    simp [Task.start, Demand.parcels, demand, a, Host.inPairs, chunksOf, e, e']
  have hask : Step a (idle (.start () 1))
      ⟨⟨.start () 1, [], []⟩, [⟨demand, [.waiting e.parcel, .waiting e'.parcel]⟩]⟩ := by
    rw [← hstart]
    exact .ask demand
  have hfirst : ∀ {l l' : Line Unit} {f f' g : Flight}, Flight.Step a l f l' f' →
      Step a ⟨l, [⟨demand, [f, g]⟩]⟩ ⟨l', [⟨demand, [f', g]⟩]⟩ :=
    fun {_ _ _ _ g} h => @Step.move _ _ _ _ [] [] demand [] [g] _ _ h
  have hsecond : ∀ {l l' : Line Unit} {f f' g : Flight}, Flight.Step a l f l' f' →
      Step a ⟨l, [⟨demand, [g, f]⟩]⟩ ⟨l', [⟨demand, [g, f']⟩]⟩ :=
    fun {_ _ _ _ g} h => @Step.move _ _ _ _ [] [] demand [g] [] _ _ h
  have hreply : ∀ (body : String) (c : Client Unit),
      (a.exchange body).Succeeds c (a.reply body ()) c := fun _ _ =>
    exchange_succeeds_iff.mpr ⟨rfl, rfl⟩
  have hrun : Run a (idle (.start () 1)) net :=
    .head hask <| .head (hsecond (.reserve ⟨rfl, rfl⟩)) <|
      .head (hfirst (.reserve ⟨rfl, rfl⟩)) <| .head (hfirst .send) <| .head (hsecond .send) <|
      .head (hsecond (.reply (hreply _ _))) <| .head (hfirst (.reply (hreply _ _))) <|
      .head (hfirst .receive) <| .single (hsecond .receive)
  have hsettled : Host.stubborn.settled call =
      .ok (.object [("address", .string "somewhere")]) := by
    have hanswer : Host.stubborn.answer (Host.arrived call) =
        .ok (Result.address.toJson "somewhere") := (Host.tells_address _ key).answer
    unfold Host.settled
    rw [hanswer]
    rfl
  have htold : (Host.stubborn.renders call.params).mapError errorOf =
      .ok (.object [("address", .string "somewhere")]) := congrArg (Except.mapError errorOf) hsettled
  have hgives : a.GivesAddresses Host.stubborn.renders := Host.givesAddresses rfl
  have hanswers : a.AnswersTogether (· = call)
      fun _ => .ok (.object [("address", .string "somewhere")]) := by
    intro calls hne hcalls start p
    have hcarries := hgives.together calls hne (fun c hc => ⟨key, hcalls c hc⟩) start p
    exact hcarries.congr fun c hc => hcalls c hc ▸ htold
  refine ⟨call, net, flights, hrun, rfl, rfl, rfl, ?_⟩
  have hreturns := (any_order hrun (by decide)).2.2.2.2.2.2.2 [] _ flights [] rfl
  exact (hreturns.2.2 _ _ hanswers (by simp)).1 rfl

end Rpc
end WalletLedger
