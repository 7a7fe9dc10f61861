import WalletLedger.Proofs.Reconcile.Served
import WalletLedger.Proofs.Record.Shape

/-!
# Refreshes over one snapshot

A refresh over a snapshot makes each record from one entry and the snapshot alone, whatever
other entries the window lets in.  So two refreshes can be compared entry by entry: with
windows that share a bound, and before and after the wallet has seen further blocks.
-/

namespace WalletLedger

/-!
# Records of single entries
-/

section Served

variable (l : Ledgers) (label : SubaddressIndex → String) (address : Destination → String)

theorem Ledgers.rightLookups_served :
    l.RightLookups (fun index => .ok (label index)) (fun d _ _ => .ok (address d))
      (l.servedLookups label address) := by
  apply right_lookupsOf
  · exact Results.mapM_eq_ok_map fun _ _ => rfl
  · exact Results.mapM_eq_ok_map fun _ _ => rfl

end Served

namespace Snapshot

variable (s : Snapshot)

def incomingRecord : PaymentId × Payment → Record := fun (paymentId, p) =>
  .ofIncoming paymentId p s.height (s.label p.subaddress)

def spendingLabel (t : Spending) : String :=
  (t.subaddress?.map s.label).getD ""

def outgoingRecord : TxHash × ConfirmedTransfer → Record := fun (hash, t) =>
  .ofOutgoing hash t s.height (s.spendingLabel t.toSpending) (t.destinations.map given)

def pendingRecord : TxHash × PendingTransfer → Record := fun (hash, t) =>
  .ofPending hash t (s.spendingLabel t.toSpending)

def poolRecord : PaymentId × PoolPayment → Record := fun (paymentId, p) =>
  .ofPool paymentId p (s.label p.payment.subaddress)

def recordsIn (w : HeightWindow) : List Record :=
  (s.incoming.filter fun e => w.contains e.2.blockHeight).map s.incomingRecord ++
    (s.outgoing.filter fun e => w.contains e.2.blockHeight).map s.outgoingRecord ++
    s.pendingOutgoing.map s.pendingRecord ++ s.pool.map s.poolRecord

theorem spendingAnswer_eq (t : Spending) :
    Ledgers.spendingAnswer (fun index => .ok (s.label index)) t = .ok (s.spendingLabel t) := by
  unfold Ledgers.spendingAnswer spendingLabel
  cases t.subaddress? with
  | some index => rfl
  | none => rfl

theorem recordsBy_ledgers (w : HeightWindow) :
    (s.ledgers w).recordsBy (fun index => .ok (s.label index)) (fun d _ _ => .ok (given d)) =
      .ok (s.recordsIn w) := by
  have hincoming : (s.ledgers w).incoming.mapM
      ((s.ledgers w).incomingAnswer fun index => .ok (s.label index)) =
        .ok ((s.ledgers w).incoming.map s.incomingRecord) :=
    Results.mapM_eq_ok_map fun _ _ => rfl
  have houtgoing : (s.ledgers w).outgoing.mapM
      ((s.ledgers w).outgoingAnswer (fun index => .ok (s.label index))
        fun d _ _ => .ok (given d)) =
        .ok ((s.ledgers w).outgoing.map s.outgoingRecord) := by
    apply Results.mapM_eq_ok_map
    intro entry _
    have haddresses : (entry.2.destinations.mapM fun d => Except.ok (given d)) =
        (.ok (entry.2.destinations.map given) : Except CoreError (List String)) :=
      Results.mapM_eq_ok_map fun _ _ => rfl
    simp only [Ledgers.outgoingAnswer, s.spendingAnswer_eq, haddresses]
    rfl
  have hpending : (s.ledgers w).pending.mapM
      (Ledgers.pendingAnswer fun index => .ok (s.label index)) =
        .ok ((s.ledgers w).pending.map s.pendingRecord) := by
    apply Results.mapM_eq_ok_map
    intro entry _
    simp only [Ledgers.pendingAnswer, s.spendingAnswer_eq]
    rfl
  have hpool : (s.ledgers w).pool.mapM
      (Ledgers.poolAnswer fun index => .ok (s.label index)) =
        .ok ((s.ledgers w).pool.map s.poolRecord) :=
    Results.mapM_eq_ok_map fun _ _ => rfl
  unfold Ledgers.recordsBy
  rw [hincoming, houtgoing, hpending, hpool]
  rfl

/-- Whatever was looked up for the window, the records are those of the single entries. -/
theorem records_served (w : HeightWindow) :
    (s.ledgers w).records ((s.ledgers w).servedLookups s.label given) = s.recordsIn w := by
  have hright := (s.ledgers w).rightLookups_served s.label given
  exact Except.ok.inj ((Ledgers.recordsBy_of_right hright).symm.trans (s.recordsBy_ledgers w))

/-- Every refresh over a snapshot succeeds, with the records and statistics of the window. -/
theorem refresh_run (w : HeightWindow) (timing : Timing) {σ : Type} (session : Session σ) :
    (History.refresh s.engine w timing session).answer =
        .ok (History.statsOf (s.ledgers w) timing) ∧
      (History.refresh s.engine w timing session).state.history =
        ⟨s.recordsIn w, some (History.statsOf (s.ledgers w) timing)⟩ := by
  rw [← s.records_served w]
  exact History.refresh_of_serves (s.engine_serves w) timing trivial

end Snapshot

/-!
# The parts of a collection
-/

namespace Record

instance (direction : Direction) (pending : Bool) (r : Record) :
    Decidable (r.IsOf direction pending) :=
  inferInstanceAs (Decidable (_ ∧ _))

def part (direction : Direction) (pending : Bool) (records : List Record) : List Record :=
  records.filter fun r => r.IsOf direction pending

variable {direction : Direction} {pending : Bool} {records others : List Record}

theorem part_append : part direction pending (records ++ others) =
    part direction pending records ++ part direction pending others :=
  List.filter_append ..

theorem part_of_all (h : ∀ r ∈ records, r.IsOf direction pending) :
    part direction pending records = records :=
  List.filter_eq_self.mpr fun r hr => decide_eq_true (h r hr)

theorem part_of_none (h : ∀ r ∈ records, ¬ r.IsOf direction pending) :
    part direction pending records = [] :=
  List.filter_eq_nil_iff.mpr fun r hr => by simpa using h r hr

end Record

namespace Snapshot

variable (s : Snapshot) (w : HeightWindow)

theorem part_map {α : Type} (build : α → Record) {direction : Direction} {pending : Bool}
    (h : ∀ x, (build x).direction = direction ∧ (build x).pending = pending)
    (wantedDirection : Direction) (wantedPending : Bool) (xs : List α) :
    Record.part wantedDirection wantedPending (xs.map build) =
      if wantedDirection = direction ∧ wantedPending = pending then xs.map build else [] := by
  split
  · next hsame =>
      apply Record.part_of_all
      intro r hr
      rcases List.mem_map.mp hr with ⟨x, _, rfl⟩
      exact ⟨(h x).1.trans hsame.1.symm, (h x).2.trans hsame.2.symm⟩
  · next hother =>
      apply Record.part_of_none
      intro r hr hof
      rcases List.mem_map.mp hr with ⟨x, _, rfl⟩
      exact hother ⟨hof.1.symm.trans (h x).1, hof.2.symm.trans (h x).2⟩

theorem part_recordsIn (direction : Direction) (pending : Bool) :
    Record.part direction pending (s.recordsIn w) =
      match direction, pending with
      | .incoming, false =>
          (s.incoming.filter fun e => w.contains e.2.blockHeight).map s.incomingRecord
      | .outgoing, false =>
          (s.outgoing.filter fun e => w.contains e.2.blockHeight).map s.outgoingRecord
      | .outgoing, true => s.pendingOutgoing.map s.pendingRecord
      | .incoming, true => s.pool.map s.poolRecord := by
  unfold recordsIn
  simp only [Record.part_append,
    part_map s.incomingRecord (fun _ => ⟨rfl, rfl⟩) direction pending,
    part_map s.outgoingRecord (fun _ => ⟨rfl, rfl⟩) direction pending,
    part_map s.pendingRecord (fun _ => ⟨rfl, rfl⟩) direction pending,
    part_map s.poolRecord (fun _ => ⟨rfl, rfl⟩) direction pending]
  cases direction <;> cases pending <;> simp

end Snapshot

/-!
# Windows that share a bound
-/

namespace HeightWindow

theorem contains_iff {w : HeightWindow} {height : UInt64} :
    w.contains height = true ↔ w.minHeight < height ∧ height ≤ w.maxHeight := by
  unfold contains
  rw [Bool.and_eq_true, decide_eq_true_iff, decide_eq_true_iff]

variable {a b c : UInt64}

theorem contains_lower (hbc : b ≤ c) (height : UInt64) :
    (decide (height ≤ b) && (⟨a, c⟩ : HeightWindow).contains height) =
      (⟨a, b⟩ : HeightWindow).contains height := by
  rw [Bool.eq_iff_iff, Bool.and_eq_true, decide_eq_true_iff, contains_iff, contains_iff]
  constructor
  · intro h
    exact ⟨h.2.1, h.1⟩
  · intro h
    exact ⟨h.2, h.1, UInt64.le_trans h.2 hbc⟩

theorem contains_upper (hab : a ≤ b) (height : UInt64) :
    (decide (b < height) && (⟨a, c⟩ : HeightWindow).contains height) =
      (⟨b, c⟩ : HeightWindow).contains height := by
  rw [Bool.eq_iff_iff, Bool.and_eq_true, decide_eq_true_iff, contains_iff, contains_iff]
  constructor
  · intro h
    exact ⟨h.1, h.2.2⟩
  · intro h
    exact ⟨h.1, UInt64.lt_of_le_of_lt hab h.1, h.2⟩

end HeightWindow

section Windows

variable {α : Type} {height : α → UInt64} {build : α → Record}

theorem filter_map_window (hbuild : ∀ x, (build x).blockHeight = height x)
    {w v : HeightWindow} {keep : UInt64 → Bool}
    (h : ∀ n, (keep n && w.contains n) = v.contains n) (xs : List α) :
    ((xs.filter fun x => w.contains (height x)).map build).filter
        (fun r => keep r.blockHeight) =
      (xs.filter fun x => v.contains (height x)).map build := by
  rw [List.filter_map, List.filter_filter]
  congr 1
  apply List.filter_congr
  intro x _
  rw [Function.comp_apply, hbuild, h]

/-- Two parts that a test on the records tells apart make up the whole. -/
theorem perm_of_filter {records lower upper : List Record} {b : UInt64}
    (hlower : records.filter (fun r => r.blockHeight ≤ b) = lower)
    (hupper : records.filter (fun r => b < r.blockHeight) = upper) :
    records.Perm (lower ++ upper) := by
  have hrest : (fun r : Record => decide (b < r.blockHeight)) =
      fun r => !decide (r.blockHeight ≤ b) := by
    funext r
    rw [Bool.eq_iff_iff, decide_eq_true_iff, Bool.not_eq_true', decide_eq_false_iff_not,
      UInt64.not_le]
  rw [← hlower, ← hupper, hrest]
  exact (List.filter_append_perm _ records).symm

end Windows

namespace Snapshot

variable (s : Snapshot) {a b c : UInt64}

theorem split_confirmed (hab : a ≤ b) (hbc : b ≤ c) (direction : Direction) :
    (Record.part direction false (s.recordsIn ⟨a, c⟩)).filter (fun r => r.blockHeight ≤ b) =
        Record.part direction false (s.recordsIn ⟨a, b⟩) ∧
      (Record.part direction false (s.recordsIn ⟨a, c⟩)).filter (fun r => b < r.blockHeight) =
        Record.part direction false (s.recordsIn ⟨b, c⟩) := by
  rw [part_recordsIn, part_recordsIn, part_recordsIn]
  cases direction with
  | incoming =>
      have hbuild : ∀ e, (s.incomingRecord e).blockHeight = e.2.blockHeight := fun _ => rfl
      exact ⟨filter_map_window hbuild (HeightWindow.contains_lower hbc) s.incoming,
        filter_map_window hbuild (HeightWindow.contains_upper hab) s.incoming⟩
  | outgoing =>
      have hbuild : ∀ e, (s.outgoingRecord e).blockHeight = e.2.blockHeight := fun _ => rfl
      exact ⟨filter_map_window hbuild (HeightWindow.contains_lower hbc) s.outgoing,
        filter_map_window hbuild (HeightWindow.contains_upper hab) s.outgoing⟩

theorem part_waiting (direction : Direction) (w v : HeightWindow) :
    Record.part direction true (s.recordsIn w) = Record.part direction true (s.recordsIn v) := by
  rw [part_recordsIn, part_recordsIn]
  cases direction with
  | incoming => rfl
  | outgoing => rfl

theorem recordsIn_parts (w : HeightWindow) :
    s.recordsIn w = Record.part .incoming false (s.recordsIn w) ++
      Record.part .outgoing false (s.recordsIn w) ++
      Record.part .outgoing true (s.recordsIn w) ++
      Record.part .incoming true (s.recordsIn w) := by
  simp only [part_recordsIn]
  rfl

theorem heights_confirmed (x y : UInt64) (direction : Direction) :
    (Record.part direction false (s.recordsIn ⟨x, y⟩)).map Record.blockHeight =
      (match direction with
        | .incoming => s.incoming.map fun (e : PaymentId × Payment) => e.2.blockHeight
        | .outgoing => s.outgoing.map fun (e : TxHash × ConfirmedTransfer) =>
            e.2.blockHeight).filter
          fun n => x < n ∧ n ≤ y := by
  have hinside : (fun n => decide (x < n ∧ n ≤ y)) = (⟨x, y⟩ : HeightWindow).contains := by
    funext n
    rw [Bool.eq_iff_iff, decide_eq_true_iff, HeightWindow.contains_iff]
  rw [part_recordsIn, hinside]
  cases direction with
  | incoming => simp only [List.filter_map, List.map_map]; rfl
  | outgoing => simp only [List.filter_map, List.map_map]; rfl

/-- A range of heights may be split anywhere.  The confirmed records of the whole range are at
and below the split those of the lower range and above it those of the upper one; the waiting
records are the same in all three. -/
theorem refreshes_split (hab : a ≤ b) (hbc : b ≤ c) {σ : Type} (timing : HeightWindow → Timing)
    (session : HeightWindow → Session σ) :
    let refresh (x y : UInt64) :=
      History.refresh s.engine ⟨x, y⟩ (timing ⟨x, y⟩) (session ⟨x, y⟩)
    let records (x y : UInt64) := (refresh x y).state.history.records
    (∀ x y, (∃ stats, (refresh x y).answer = .ok stats) ∧
      records x y = Record.part .incoming false (records x y) ++
        Record.part .outgoing false (records x y) ++
        Record.part .outgoing true (records x y) ++
        Record.part .incoming true (records x y) ∧
      (Record.part .incoming false (records x y)).map Record.blockHeight =
        (s.incoming.map fun e => e.2.blockHeight).filter (fun n => x < n ∧ n ≤ y) ∧
      (Record.part .outgoing false (records x y)).map Record.blockHeight =
        (s.outgoing.map fun e => e.2.blockHeight).filter (fun n => x < n ∧ n ≤ y)) ∧
    (∀ direction,
      (Record.part direction false (records a c)).filter (fun r => r.blockHeight ≤ b) =
        Record.part direction false (records a b) ∧
      (Record.part direction false (records a c)).filter (fun r => b < r.blockHeight) =
        Record.part direction false (records b c) ∧
      (Record.part direction false (records a c)).Perm
        (Record.part direction false (records a b) ++
          Record.part direction false (records b c))) ∧
    ∀ direction,
      Record.part direction true (records a c) = Record.part direction true (records a b) ∧
      Record.part direction true (records a c) = Record.part direction true (records b c) := by
  intro refresh records
  have hrun : ∀ x y, records x y = s.recordsIn ⟨x, y⟩ := by
    intro x y
    exact congrArg History.records (s.refresh_run ⟨x, y⟩ _ (session ⟨x, y⟩)).2
  simp only [hrun]
  refine ⟨?_, ?_, ?_⟩
  · intro x y
    exact ⟨⟨_, (s.refresh_run ⟨x, y⟩ _ (session ⟨x, y⟩)).1⟩, s.recordsIn_parts ⟨x, y⟩,
      s.heights_confirmed x y .incoming, s.heights_confirmed x y .outgoing⟩
  · intro direction
    rcases s.split_confirmed hab hbc direction with ⟨hlower, hupper⟩
    exact ⟨hlower, hupper, perm_of_filter hlower hupper⟩
  · intro direction
    exact ⟨s.part_waiting direction _ _, s.part_waiting direction _ _⟩

/-- The miner's wallet split at the height of its only confirmed transfer. -/
theorem refreshes_split_minersWallet :
    let records (x y : UInt64) := (History.refresh Engine.minersWallet.engine ⟨x, y⟩ ⟨0, 0⟩
      ⟨.empty, ()⟩).state.history.records
    (0 : UInt64) ≤ 990 ∧ (990 : UInt64) ≤ 0xffffffffffffffff ∧
      (Record.part .outgoing false (records 0 0xffffffffffffffff)).filter
          (fun r => r.blockHeight ≤ 990) = Record.part .outgoing false (records 0 990) ∧
      (Record.part .incoming false (records 0 0xffffffffffffffff)).filter
          (fun r => 990 < r.blockHeight) =
        Record.part .incoming false (records 990 0xffffffffffffffff) ∧
      (Record.part .outgoing false (records 0 990)).map Record.blockHeight = [990] ∧
      (Record.part .incoming false (records 990 0xffffffffffffffff)).map Record.blockHeight =
        [995] := by
  have hlower : (0 : UInt64) ≤ 990 := by decide
  have hupper : (990 : UInt64) ≤ 0xffffffffffffffff := by decide
  rcases Engine.minersWallet.refreshes_split hlower hupper (fun _ => ⟨0, 0⟩)
    (fun _ => ⟨.empty, ()⟩) with ⟨hparts, hsplit, _⟩
  refine ⟨hlower, hupper, (hsplit .outgoing).1, (hsplit .incoming).2.1, ?_, ?_⟩
  · exact (hparts 0 990).2.2.2.trans (by decide)
  · exact (hparts 990 0xffffffffffffffff).2.2.1.trans (by decide)

end Snapshot

/-!
# Further blocks
-/

/-- Each further block of the wallet adds at most one confirmation, and exactly one to what was
mined at or below the height it had before. -/
theorem confirmations_later {walletHeight later : UInt64} (h : walletHeight ≤ later)
    (blockHeight : UInt64) :
    confirmations walletHeight blockHeight ≤ confirmations later blockHeight ∧
      (confirmations later blockHeight).toNat ≤
        (confirmations walletHeight blockHeight).toNat + (later.toNat - walletHeight.toNat) ∧
      (0 < blockHeight → blockHeight ≤ walletHeight →
        (confirmations later blockHeight).toNat =
          (confirmations walletHeight blockHeight).toNat +
            (later.toNat - walletHeight.toNat)) := by
  rw [UInt64.le_iff_toNat_le] at h ⊢
  unfold confirmations
  by_cases hzero : blockHeight = 0
  · rw [if_pos hzero, if_pos hzero, UInt64.toNat_zero]
    refine ⟨Nat.le_refl 0, Nat.zero_le _, ?_⟩
    intro hpos
    exact absurd (hzero ▸ hpos) (UInt64.lt_irrefl 0)
  · rw [if_neg hzero, if_neg hzero, toNat_cutSub, toNat_cutSub, UInt64.le_iff_toNat_le]
    refine ⟨by omega, by omega, ?_⟩
    intro _ hmined
    omega

namespace Record

/-- How a record of the same entry looks once the wallet has come to a later height. -/
structure Ages (walletHeight later : UInt64) (r r' : Record) : Prop where
  same : r' = { r with confirmations := r'.confirmations }
  waiting : r.pending = true → r' = r
  grows : r.pending = false → r.confirmations ≤ r'.confirmations
  atMost : r.pending = false →
    r'.confirmations.toNat ≤ r.confirmations.toNat + (later.toNat - walletHeight.toNat)
  mined : r.pending = false → 0 < r.blockHeight → r.blockHeight ≤ walletHeight →
    r'.confirmations.toNat = r.confirmations.toNat + (later.toNat - walletHeight.toNat)

variable {walletHeight later : UInt64}

theorem Ages.refl_of_pending {r : Record} (h : r.pending = true) :
    r.Ages walletHeight later r where
  same := rfl
  waiting _ := rfl
  grows hconfirmed := absurd (h.symm.trans hconfirmed) Bool.noConfusion
  atMost hconfirmed := absurd (h.symm.trans hconfirmed) Bool.noConfusion
  mined hconfirmed := absurd (h.symm.trans hconfirmed) Bool.noConfusion

/-- A confirmed record ages as its confirmations do. -/
theorem Ages.of_confirmations (h : walletHeight ≤ later) {r r' : Record}
    (hsame : r' = { r with confirmations := r'.confirmations }) (hpending : r.pending = false)
    (hnow : r.confirmations = WalletLedger.confirmations walletHeight r.blockHeight)
    (hlater : r'.confirmations = WalletLedger.confirmations later r.blockHeight) :
    r.Ages walletHeight later r' := by
  rcases confirmations_later h r.blockHeight with ⟨hgrows, hatMost, hmined⟩
  rw [← hnow, ← hlater] at hgrows hatMost hmined
  exact ⟨hsame, fun hwaiting => absurd (hpending.symm.trans hwaiting) Bool.noConfusion,
    fun _ => hgrows, fun _ => hatMost, fun _ => hmined⟩

end Record

namespace Snapshot

variable (s : Snapshot) {later : UInt64}

def atHeight (height : UInt64) : Snapshot :=
  { s with height := height }

theorem ages_recordsIn (h : s.height ≤ later) (w : HeightWindow) :
    List.Forall₂ (Record.Ages s.height later) (s.recordsIn w)
      ((s.atHeight later).recordsIn w) := by
  have hall : ∀ {α : Type} {build build' : α → Record} (xs : List α),
      (∀ x, (build x).Ages s.height later (build' x)) →
        List.Forall₂ (Record.Ages s.height later) (xs.map build) (xs.map build') := by
    intro α build build' xs hages
    rw [List.forall₂_map_left_iff, List.forall₂_map_right_iff]
    exact List.forall₂_same.mpr fun x _ => hages x
  unfold recordsIn
  refine List.rel_append (List.rel_append (List.rel_append (hall _ ?_) (hall _ ?_)) (hall _ ?_))
    (hall _ ?_)
  · exact fun _ => .of_confirmations h rfl rfl rfl rfl
  · exact fun _ => .of_confirmations h rfl rfl rfl rfl
  · exact fun _ => .refl_of_pending rfl
  · exact fun _ => .refl_of_pending rfl

/-- Two snapshots that differ only in the height of the wallet give the same refresh, but for
the height in the statistics and the confirmations of confirmed records. -/
theorem refresh_at_later_height (h : s.height ≤ later) (w : HeightWindow)
    (timing laterTiming : Timing) {σ τ : Type} (session : Session σ) (laterSession : Session τ) :
    let before := History.refresh s.engine w timing session
    let after := History.refresh (s.atHeight later).engine w laterTiming laterSession
    ∃ stats, before.answer = .ok stats ∧ before.state.history.lastRefresh = some stats ∧
      stats.walletHeight = s.height ∧
      ∃ laterStats, after.answer = .ok laterStats ∧
        after.state.history.lastRefresh = some laterStats ∧
        laterStats = { stats with
          walletHeight := later
          durationMs := laterTiming.durationMs
          completedAt := laterTiming.completedAt } ∧
        List.Forall₂ (Record.Ages s.height later) before.state.history.records
          after.state.history.records := by
  intro before after
  have hbefore : before.answer = _ ∧ before.state.history = _ := s.refresh_run w timing session
  have hafter : after.answer = _ ∧ after.state.history = _ :=
    (s.atHeight later).refresh_run w laterTiming laterSession
  refine ⟨_, hbefore.1, ?_, rfl, _, hafter.1, ?_, rfl, ?_⟩
  · rw [hbefore.2]
  · rw [hafter.2]
  · rw [hbefore.2, hafter.2]
    exact s.ages_recordsIn h w

/-- The miner's wallet once a reorganisation is over: its block lies above the first height. -/
theorem refresh_at_later_height_minersWallet :
    let before := History.refresh (Engine.minersWallet.atHeight 992).engine .all ⟨3, 17⟩
      ⟨.empty, ()⟩
    let after := History.refresh (Engine.minersWallet.atHeight 1000).engine .all ⟨4, 18⟩
      ⟨.empty, ()⟩
    (992 : UInt64) ≤ 1000 ∧
      List.Forall₂ (Record.Ages 992 1000) before.state.history.records
        after.state.history.records ∧
      before.state.history.records.map Record.confirmations = [0, 2, 0] ∧
      after.state.history.records.map Record.confirmations = [5, 10, 0] := by
  have hle : (992 : UInt64) ≤ 1000 := by decide
  rcases (Engine.minersWallet.atHeight 992).refresh_at_later_height hle .all
    ⟨3, 17⟩ ⟨4, 18⟩ (⟨.empty, ()⟩ : Session Unit) (⟨.empty, ()⟩ : Session Unit) with
    ⟨_, _, _, _, _, _, _, _, hages⟩
  refine ⟨hle, hages, ?_, ?_⟩
  · rw [((Engine.minersWallet.atHeight 992).refresh_run .all ⟨3, 17⟩ _).2]
    rfl
  · rw [((Engine.minersWallet.atHeight 1000).refresh_run .all ⟨4, 18⟩ _).2]
    rfl

end Snapshot
end WalletLedger
