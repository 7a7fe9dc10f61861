import WalletLedger.Engine.Snapshot
import WalletLedger.Proofs.Reconcile.Stages

/-!
# Looking up once or every time

A refresh gathers what its entries need, looks each of it up once and reads the replies
back by key.  The plain way is to go over the entries and to ask wherever a label or an
address is wanted.  For an engine whose lookups depend on nothing but what is asked, both
ways succeed together and make the same records.
-/

namespace WalletLedger

open Act

/-!
# The plain way
-/

namespace Engine

variable {σ : Type}

def labelSpending (e : Engine σ) (t : Spending) : Act σ String :=
  match t.subaddress? with
  | some index => e.label index
  | none => pure ""

/-- Makes the records entry by entry, asking for each label and address on the spot. -/
def recordsDirectly (e : Engine σ) (l : Ledgers) : Act σ (List Record) := do
  let incoming ← inTurn (fun (paymentId, p) => do
    let label ← e.label p.subaddress
    return .ofIncoming paymentId p l.walletHeight label) l.incoming
  let outgoing ← inTurn (fun (hash, t) => do
    let label ← e.labelSpending t.toSpending
    let addresses ← inTurn (fun d => e.address d l.network t.paymentId) t.destinations
    return .ofOutgoing hash t l.walletHeight label addresses) l.outgoing
  let pending ← inTurn (fun (hash, t) => do
    let label ← e.labelSpending t.toSpending
    return .ofPending hash t label) l.pending
  let pool ← inTurn (fun (paymentId, p) => do
    let label ← e.label p.payment.subaddress
    return .ofPool paymentId p label) l.pool
  return incoming ++ outgoing ++ pending ++ pool

def reconcileDirectly (e : Engine σ) (w : HeightWindow) : Act σ (Ledgers × List Record) := do
  let l ← e.fetchLedgers w
  let records ← e.recordsDirectly l
  return (l, records)

end Engine

/-!
# Steady engines

The lookups of a steady engine are two functions, either of which may fail on some
arguments, and its batches are single lookups in turn.
-/

abbrev LabelAnswers := SubaddressIndex → Except CoreError String

abbrev AddressAnswers := Destination → Network → PaymentId → Except CoreError String

structure Engine.Steady {σ : Type} (e : Engine σ) (label : LabelAnswers)
    (address : AddressAnswers) : Prop where
  label_answer : ∀ index s, (e.label index s).answer = label index
  address_answer : ∀ d n p s, (e.address d n p s).answer = address d n p
  labels_eq : e.labels = labelsInTurn e.label
  addresses_eq : e.addresses = addressesInTurn e.address

namespace Engine.Steady

variable {σ : Type} {e : Engine σ} {label : LabelAnswers} {address : AddressAnswers}

theorem label_yields (h : e.Steady label address) (index : SubaddressIndex) :
    Yields (fun _ => True) (e.label index) (label index) :=
  fun s _ => ⟨h.label_answer index s, trivial⟩

theorem address_yields (h : e.Steady label address) (d : Destination) (n : Network)
    (p : PaymentId) : Yields (fun _ => True) (e.address d n p) (address d n p) :=
  fun s _ => ⟨h.address_answer d n p s, trivial⟩

theorem labels_answer (h : e.Steady label address) (keys : List SubaddressIndex) (s : σ) :
    (e.labels keys s).answer = keys.mapM label := by
  have hall : Yields (fun _ => True) (inTurn e.label keys) (keys.mapM label) :=
    Yields.inTurn fun index _ => h.label_yields index
  rw [h.labels_eq]
  exact (hall s trivial).1

theorem addresses_answer (h : e.Steady label address) (keys : List AddressKey) (n : Network)
    (s : σ) :
    (e.addresses keys n s).answer = keys.mapM fun key => address key.1 n key.2 := by
  have hall : Yields (fun _ => True) (inTurn (fun key => e.address key.1 n key.2) keys)
      (keys.mapM fun key => address key.1 n key.2) :=
    Yields.inTurn fun key _ => h.address_yields key.1 n key.2
  rw [h.addresses_eq]
  exact (hall s trivial).1

end Engine.Steady

theorem Snapshot.engine_steady (s : Snapshot) {σ : Type} :
    (s.engine : Engine σ).Steady (fun index => .ok (s.label index))
      (fun d _ _ => .ok (d.original.getD "")) where
  label_answer _ _ := rfl
  address_answer d _ _ t := by
    change (addressOf d t).answer = _
    unfold addressOf
    cases d.original with
    | some address => rfl
    | none => rfl
  labels_eq := rfl
  addresses_eq := rfl

/-!
# The plain way on answers

The same pass over the entries, on the two functions in place of an engine.
-/

namespace Ledgers

variable (l : Ledgers) (label : LabelAnswers) (address : AddressAnswers)

def spendingAnswer (t : Spending) : Except CoreError String :=
  match t.subaddress? with
  | some index => label index
  | none => .ok ""

def incomingAnswer : PaymentId × Payment → Except CoreError Record := fun (paymentId, p) => do
  let label ← label p.subaddress
  return .ofIncoming paymentId p l.walletHeight label

def outgoingAnswer : TxHash × ConfirmedTransfer → Except CoreError Record := fun (hash, t) => do
  let label ← spendingAnswer label t.toSpending
  let addresses ← t.destinations.mapM fun d => address d l.network t.paymentId
  return .ofOutgoing hash t l.walletHeight label addresses

def pendingAnswer : TxHash × PendingTransfer → Except CoreError Record := fun (hash, t) => do
  let label ← spendingAnswer label t.toSpending
  return .ofPending hash t label

def poolAnswer : PaymentId × PoolPayment → Except CoreError Record := fun (paymentId, p) => do
  let label ← label p.payment.subaddress
  return .ofPool paymentId p label

def recordsBy : Except CoreError (List Record) := do
  let incoming ← l.incoming.mapM (l.incomingAnswer label)
  let outgoing ← l.outgoing.mapM (l.outgoingAnswer label address)
  let pending ← l.pending.mapM (pendingAnswer label)
  let pool ← l.pool.mapM (poolAnswer label)
  return incoming ++ outgoing ++ pending ++ pool

end Ledgers

namespace Engine

variable {σ : Type} {e : Engine σ} {label : LabelAnswers} {address : AddressAnswers}

theorem labelSpending_yields (h : e.Steady label address) (t : Spending) :
    Yields (fun _ => True) (e.labelSpending t) (Ledgers.spendingAnswer label t) := by
  unfold labelSpending Ledgers.spendingAnswer
  cases t.subaddress? with
  | some index => exact h.label_yields index
  | none => exact Yields.pure ""

theorem recordsDirectly_yields (h : e.Steady label address) (l : Ledgers) :
    Yields (fun _ => True) (e.recordsDirectly l) (l.recordsBy label address) := by
  refine Yields.bind (Yields.inTurn ?_) fun incoming _ =>
    Yields.bind (Yields.inTurn ?_) fun outgoing _ =>
      Yields.bind (Yields.inTurn ?_) fun pending _ =>
        Yields.bind (Yields.inTurn ?_) fun pool _ => Yields.pure _
  · intro entry _
    exact Yields.bind (h.label_yields _) fun _ _ => Yields.pure _
  · intro entry _
    refine Yields.bind (labelSpending_yields h _) fun _ _ =>
      Yields.bind (Yields.inTurn ?_) fun _ _ => Yields.pure _
    intro d _
    exact h.address_yields d l.network entry.2.paymentId
  · intro entry _
    exact Yields.bind (labelSpending_yields h _) fun _ _ => Yields.pure _
  · intro entry _
    exact Yields.bind (h.label_yields _) fun _ _ => Yields.pure _

theorem reconcileDirectly_ok_iff (h : e.Steady label address) {w : HeightWindow} {s : σ}
    {l : Ledgers} {records : List Record} :
    (e.reconcileDirectly w s).answer = .ok (l, records) ↔
      (∃ t, e.Fetches w s l t) ∧ l.recordsBy label address = .ok records := by
  unfold reconcileDirectly
  rw [bind_answer, Results.bind_eq_ok_iff]
  constructor
  · intro hmade
    rcases hmade with ⟨l', hfetch, hrest⟩
    rw [bind_answer, (recordsDirectly_yields h l' _ trivial).1,
      Results.bind_eq_ok_iff] at hrest
    rcases hrest with ⟨records', hrecords, hpair⟩
    cases hpair
    exact ⟨⟨_, fetchLedgers_succeeds_iff.mp ⟨hfetch, rfl⟩⟩, hrecords⟩
  · intro hmade
    rcases hmade with ⟨⟨t, hfetch⟩, hrecords⟩
    refine ⟨l, (fetchLedgers_succeeds_iff.mpr hfetch).1, ?_⟩
    rw [bind_answer, (recordsDirectly_yields h l _ trivial).1, hrecords]
    rfl

end Engine

/-!
# What the entries need

An entry of the incoming ledger or the pool needs the label of its subaddress, a transfer
the label of the one subaddress it spends from, and a mined transfer the address of each
of its destinations.
-/

theorem mem_distinct {α : Type} [DecidableEq α] {x : α} {xs : List α} :
    x ∈ distinct xs ↔ x ∈ xs := by
  induction xs with
  | nil => rfl
  | cons y ys ih =>
      rw [distinct, List.mem_cons, List.mem_cons, List.mem_filter, ih]
      by_cases hxy : x = y
      · simp [hxy]
      · simp [hxy]

theorem Spending.subaddress?_eq_some_iff {t : Spending} {index : SubaddressIndex} :
    t.subaddress? = some index ↔ ∃ minor, t.indices.toList = [minor] ∧
      index = ⟨t.account, minor⟩ := by
  unfold Spending.subaddress? IndexSet.only?
  split
  · next minor hlist =>
      rw [hlist]
      constructor
      · intro h
        cases h
        exact ⟨minor, rfl, rfl⟩
      · intro h
        rcases h with ⟨minor', hminor, hindex⟩
        cases hminor
        rw [hindex]
        rfl
  · next hnot =>
      constructor
      · intro h
        cases h
      · intro h
        rcases h with ⟨minor, hminor, _⟩
        exact absurd hminor (hnot minor)

theorem Spending.subaddress?_eq_none_iff {t : Spending} :
    t.subaddress? = none ↔ ∀ minor, t.indices.toList ≠ [minor] := by
  rw [Option.eq_none_iff_forall_ne_some]
  constructor
  · intro h minor hminor
    exact h ⟨t.account, minor⟩ (Spending.subaddress?_eq_some_iff.mpr ⟨minor, hminor, rfl⟩)
  · intro h index hindex
    rcases Spending.subaddress?_eq_some_iff.mp hindex with ⟨minor, hminor, _⟩
    exact h minor hminor

namespace Ledgers

variable {l : Ledgers} {label : LabelAnswers} {address : AddressAnswers}

/-- Every lookup that some entry needs succeeds. -/
structure Answerable (l : Ledgers) (label : LabelAnswers) (address : AddressAnswers) :
    Prop where
  incoming : ∀ entry ∈ l.incoming, ∃ text, label entry.2.subaddress = .ok text
  outgoing : ∀ entry ∈ l.outgoing, ∀ minor, entry.2.indices.toList = [minor] →
    ∃ text, label ⟨entry.2.account, minor⟩ = .ok text
  pending : ∀ entry ∈ l.pending, ∀ minor, entry.2.indices.toList = [minor] →
    ∃ text, label ⟨entry.2.account, minor⟩ = .ok text
  pool : ∀ entry ∈ l.pool, ∃ text, label entry.2.payment.subaddress = .ok text
  destinations : ∀ entry ∈ l.outgoing, ∀ d ∈ entry.2.destinations,
    ∃ text, address d l.network entry.2.paymentId = .ok text

theorem mem_labelNeeds_iff {index : SubaddressIndex} :
    index ∈ l.labelNeeds ↔
      (∃ entry ∈ l.incoming, entry.2.subaddress = index) ∨
        (∃ entry ∈ l.pool, entry.2.payment.subaddress = index) ∨
          (∃ entry ∈ l.outgoing, entry.2.subaddress? = some index) ∨
            ∃ entry ∈ l.pending, entry.2.subaddress? = some index := by
  simp only [labelNeeds, List.mem_append, List.mem_map, List.mem_filterMap, or_assoc]

theorem mem_addressNeeds_iff {key : AddressKey} :
    key ∈ l.addressNeeds ↔
      ∃ entry ∈ l.outgoing, ∃ d ∈ entry.2.destinations, (d, entry.2.paymentId) = key := by
  simp only [addressNeeds, List.mem_flatMap, List.mem_map]

theorem answerable_iff :
    l.Answerable label address ↔
      (∀ index ∈ l.labelKeys, ∃ text, label index = .ok text) ∧
        ∀ key ∈ l.addressKeys, ∃ text, address key.1 l.network key.2 = .ok text := by
  constructor
  · intro h
    constructor
    · intro index hindex
      rcases mem_labelNeeds_iff.mp (mem_distinct.mp hindex) with
        ⟨entry, hentry, rfl⟩ | ⟨entry, hentry, rfl⟩ | ⟨entry, hentry, hspend⟩ |
          ⟨entry, hentry, hspend⟩
      · exact h.incoming entry hentry
      · exact h.pool entry hentry
      · rcases Spending.subaddress?_eq_some_iff.mp hspend with ⟨minor, hminor, rfl⟩
        exact h.outgoing entry hentry minor hminor
      · rcases Spending.subaddress?_eq_some_iff.mp hspend with ⟨minor, hminor, rfl⟩
        exact h.pending entry hentry minor hminor
    · intro key hkey
      rcases mem_addressNeeds_iff.mp (mem_distinct.mp hkey) with ⟨entry, hentry, d, hd, rfl⟩
      exact h.destinations entry hentry d hd
  · intro h
    rcases h with ⟨hlabel, haddress⟩
    have hneed : ∀ index ∈ l.labelNeeds, ∃ text, label index = .ok text :=
      fun index hindex => hlabel index (mem_distinct.mpr hindex)
    constructor
    · intro entry hentry
      exact hneed _ (mem_labelNeeds_iff.mpr (.inl ⟨entry, hentry, rfl⟩))
    · intro entry hentry minor hminor
      have hspend := Spending.subaddress?_eq_some_iff.mpr ⟨minor, hminor, rfl⟩
      exact hneed _ (mem_labelNeeds_iff.mpr (.inr (.inr (.inl ⟨entry, hentry, hspend⟩))))
    · intro entry hentry minor hminor
      have hspend := Spending.subaddress?_eq_some_iff.mpr ⟨minor, hminor, rfl⟩
      exact hneed _ (mem_labelNeeds_iff.mpr (.inr (.inr (.inr ⟨entry, hentry, hspend⟩))))
    · intro entry hentry
      exact hneed _ (mem_labelNeeds_iff.mpr (.inr (.inl ⟨entry, hentry, rfl⟩)))
    · intro entry hentry d hd
      exact haddress (d, entry.2.paymentId)
        (mem_distinct.mpr (mem_addressNeeds_iff.mpr ⟨entry, hentry, d, hd, rfl⟩))

/-!
# Lookups that are right

Lookups are right when they give for every need what the two functions answer.  Then the
builders that read them make the records of the plain way.
-/

structure RightLookups (l : Ledgers) (label : LabelAnswers) (address : AddressAnswers)
    (lookups : Lookups) : Prop where
  label_eq : ∀ index ∈ l.labelNeeds, label index = .ok (lookups.label index)
  address_eq : ∀ key ∈ l.addressNeeds,
    address key.1 l.network key.2 = .ok (lookups.address key)

theorem right_lookupsOf {labels addresses : List String}
    (hlabels : l.labelKeys.mapM label = .ok labels)
    (haddresses : (l.addressKeys.mapM fun key => address key.1 l.network key.2) =
      .ok addresses) :
    l.RightLookups label address (Engine.lookupsOf l labels addresses) := by
  constructor
  · intro index hindex
    rcases Results.lookup_zip_of_mapM hlabels (mem_distinct.mpr hindex) with
      ⟨text, hfound, htext⟩
    rw [htext, Lookups.label, Engine.lookupsOf, hfound]
    rfl
  · intro key hkey
    rcases Results.lookup_zip_of_mapM haddresses (mem_distinct.mpr hkey) with
      ⟨text, hfound, htext⟩
    rw [htext, Lookups.address, Engine.lookupsOf, hfound]
    rfl

theorem spendingAnswer_of_right {lookups : Lookups} {t : Spending}
    (h : ∀ index, t.subaddress? = some index → label index = .ok (lookups.label index)) :
    spendingAnswer label t = .ok (spendingLabel lookups t) := by
  unfold spendingAnswer spendingLabel
  cases hspend : t.subaddress? with
  | some index => exact h index hspend
  | none => rfl

theorem recordsBy_of_right {lookups : Lookups} (h : l.RightLookups label address lookups) :
    l.recordsBy label address = .ok (l.records lookups) := by
  have hincoming : l.incoming.mapM (l.incomingAnswer label) = .ok (l.incoming.map
      fun (paymentId, p) =>
        .ofIncoming paymentId p l.walletHeight (lookups.label p.subaddress)) := by
    apply Results.mapM_eq_ok_map
    intro entry hentry
    have hlabel := h.label_eq _ (mem_labelNeeds_iff.mpr (.inl ⟨entry, hentry, rfl⟩))
    simp only [incomingAnswer, hlabel]
    rfl
  have houtgoing : l.outgoing.mapM (l.outgoingAnswer label address) = .ok (l.outgoing.map
      fun (hash, t) =>
        .ofOutgoing hash t l.walletHeight (spendingLabel lookups t.toSpending)
          (t.destinations.map fun d => lookups.address (d, t.paymentId))) := by
    apply Results.mapM_eq_ok_map
    intro entry hentry
    have hlabel : spendingAnswer label entry.2.toSpending = _ :=
      spendingAnswer_of_right fun index hspend =>
        h.label_eq index (mem_labelNeeds_iff.mpr (.inr (.inr (.inl ⟨entry, hentry, hspend⟩))))
    have haddresses : (entry.2.destinations.mapM fun d =>
        address d l.network entry.2.paymentId) = .ok (entry.2.destinations.map fun d =>
          lookups.address (d, entry.2.paymentId)) := by
      apply Results.mapM_eq_ok_map
      intro d hd
      exact h.address_eq _ (mem_addressNeeds_iff.mpr ⟨entry, hentry, d, hd, rfl⟩)
    simp only [outgoingAnswer, hlabel, haddresses]
    rfl
  have hpending : l.pending.mapM (pendingAnswer label) = .ok (l.pending.map
      fun (hash, t) => .ofPending hash t (spendingLabel lookups t.toSpending)) := by
    apply Results.mapM_eq_ok_map
    intro entry hentry
    have hlabel : spendingAnswer label entry.2.toSpending = _ :=
      spendingAnswer_of_right fun index hspend =>
        h.label_eq index (mem_labelNeeds_iff.mpr (.inr (.inr (.inr ⟨entry, hentry, hspend⟩))))
    simp only [pendingAnswer, hlabel]
    rfl
  have hpool : l.pool.mapM (poolAnswer label) = .ok (l.pool.map
      fun (paymentId, p) => .ofPool paymentId p (lookups.label p.payment.subaddress)) := by
    apply Results.mapM_eq_ok_map
    intro entry hentry
    have hlabel := h.label_eq _ (mem_labelNeeds_iff.mpr (.inr (.inl ⟨entry, hentry, rfl⟩)))
    simp only [poolAnswer, hlabel]
    rfl
  unfold recordsBy records
  rw [hincoming, houtgoing, hpending, hpool]
  rfl

/-!
# What the records of the plain way say

Entry by entry: the label of a record and the addresses of its transfers are what the two
functions answer for the entry.
-/

def SpendingLabel (label : LabelAnswers) (t : Spending) (text : String) : Prop :=
  (∃ minor, t.indices.toList = [minor] ∧ label ⟨t.account, minor⟩ = .ok text) ∨
    (∀ minor, t.indices.toList ≠ [minor]) ∧ text = ""

def TransfersTo (address : AddressAnswers) (n : Network) (t : ConfirmedTransfer)
    (transfers : List Transfer) : Prop :=
  List.Forall₂ (fun d transfer => transfer.amount = d.amount ∧
    address d n t.paymentId = .ok transfer.address) t.destinations transfers

def RecordedBy (l : Ledgers) (label : LabelAnswers) (address : AddressAnswers)
    (records : List Record) : Prop :=
  ∃ incoming outgoing pending pool, records = incoming ++ outgoing ++ pending ++ pool ∧
    List.Forall₂ (fun entry r => label entry.2.subaddress = .ok r.label) l.incoming
      incoming ∧
    List.Forall₂ (fun entry r => SpendingLabel label entry.2.toSpending r.label ∧
      TransfersTo address l.network entry.2 r.transfers) l.outgoing outgoing ∧
    List.Forall₂ (fun entry r => SpendingLabel label entry.2.toSpending r.label) l.pending
      pending ∧
    List.Forall₂ (fun entry r => label entry.2.payment.subaddress = .ok r.label) l.pool pool

theorem spendingLabel_of_answer {t : Spending} {text : String}
    (h : spendingAnswer label t = .ok text) : SpendingLabel label t text := by
  unfold spendingAnswer at h
  cases hspend : t.subaddress? with
  | some index =>
      rw [hspend] at h
      rcases Spending.subaddress?_eq_some_iff.mp hspend with ⟨minor, hminor, rfl⟩
      exact .inl ⟨minor, hminor, h⟩
  | none =>
      rw [hspend] at h
      cases h
      exact .inr ⟨Spending.subaddress?_eq_none_iff.mp hspend, rfl⟩

theorem incoming_label {entry : PaymentId × Payment} {r : Record}
    (h : l.incomingAnswer label entry = .ok r) : label entry.2.subaddress = .ok r.label := by
  rcases Results.bind_eq_ok_iff.mp h with ⟨text, hlabel, hmade⟩
  cases hmade
  exact hlabel

theorem transfersTo_of_addresses {n : Network} {t : ConfirmedTransfer} {addresses : List String}
    (h : (t.destinations.mapM fun d => address d n t.paymentId) = .ok addresses) :
    TransfersTo address n t
      (t.destinations.zipWith (fun d text => ⟨d.amount, text⟩) addresses) := by
  have hall := Results.mapM_eq_ok_iff.mp h
  clear h
  unfold TransfersTo
  generalize t.destinations = destinations at hall ⊢
  induction hall with
  | nil => exact .nil
  | cons hd _ ih => exact .cons ⟨rfl, hd⟩ ih

theorem outgoing_label_and_transfers {entry : TxHash × ConfirmedTransfer} {r : Record}
    (h : l.outgoingAnswer label address entry = .ok r) :
    SpendingLabel label entry.2.toSpending r.label ∧
      TransfersTo address l.network entry.2 r.transfers := by
  rcases Results.bind_eq_ok_iff.mp h with ⟨text, hlabel, hrest⟩
  rcases Results.bind_eq_ok_iff.mp hrest with ⟨addresses, haddresses, hmade⟩
  cases hmade
  constructor
  · exact spendingLabel_of_answer hlabel
  · exact transfersTo_of_addresses haddresses

theorem pending_label {entry : TxHash × PendingTransfer} {r : Record}
    (h : pendingAnswer label entry = .ok r) : SpendingLabel label entry.2.toSpending r.label := by
  rcases Results.bind_eq_ok_iff.mp h with ⟨text, hlabel, hmade⟩
  cases hmade
  exact spendingLabel_of_answer hlabel

theorem pool_label {entry : PaymentId × PoolPayment} {r : Record}
    (h : poolAnswer label entry = .ok r) : label entry.2.payment.subaddress = .ok r.label := by
  rcases Results.bind_eq_ok_iff.mp h with ⟨text, hlabel, hmade⟩
  cases hmade
  exact hlabel

theorem recordedBy_of_recordsBy {records : List Record}
    (h : l.recordsBy label address = .ok records) : l.RecordedBy label address records := by
  rcases Results.bind_eq_ok_iff.mp h with ⟨incoming, hincoming, h⟩
  rcases Results.bind_eq_ok_iff.mp h with ⟨outgoing, houtgoing, h⟩
  rcases Results.bind_eq_ok_iff.mp h with ⟨pending, hpending, h⟩
  rcases Results.bind_eq_ok_iff.mp h with ⟨pool, hpool, h⟩
  cases h
  refine ⟨incoming, outgoing, pending, pool, rfl, ?_, ?_, ?_, ?_⟩
  · exact (Results.mapM_eq_ok_iff.mp hincoming).imp fun _ _ => incoming_label
  · exact (Results.mapM_eq_ok_iff.mp houtgoing).imp fun _ _ => outgoing_label_and_transfers
  · exact (Results.mapM_eq_ok_iff.mp hpending).imp fun _ _ => pending_label
  · exact (Results.mapM_eq_ok_iff.mp hpool).imp fun _ _ => pool_label

theorem answerable_of_recordsBy {records : List Record}
    (h : l.recordsBy label address = .ok records) : l.Answerable label address := by
  rcases Results.bind_eq_ok_iff.mp h with ⟨incoming, hincoming, h⟩
  rcases Results.bind_eq_ok_iff.mp h with ⟨outgoing, houtgoing, h⟩
  rcases Results.bind_eq_ok_iff.mp h with ⟨pending, hpending, h⟩
  rcases Results.bind_eq_ok_iff.mp h with ⟨pool, hpool, _⟩
  have hspending : ∀ {t : Spending} {text : String}, SpendingLabel label t text →
      ∀ minor, t.indices.toList = [minor] → ∃ text, label ⟨t.account, minor⟩ = .ok text := by
    intro t text hlabel minor hminor
    rcases hlabel with ⟨minor', hminor', htext⟩ | ⟨hnot, _⟩
    · rw [hminor] at hminor'
      cases hminor'
      exact ⟨text, htext⟩
    · exact absurd hminor (hnot minor)
  constructor
  · intro entry hentry
    rcases Results.exists_ok_of_mapM hincoming entry hentry with ⟨r, hr⟩
    exact ⟨r.label, incoming_label hr⟩
  · intro entry hentry
    rcases Results.exists_ok_of_mapM houtgoing entry hentry with ⟨r, hr⟩
    exact hspending (outgoing_label_and_transfers hr).1
  · intro entry hentry
    rcases Results.exists_ok_of_mapM hpending entry hentry with ⟨r, hr⟩
    exact hspending (pending_label hr)
  · intro entry hentry
    rcases Results.exists_ok_of_mapM hpool entry hentry with ⟨r, hr⟩
    exact ⟨r.label, pool_label hr⟩
  · intro entry hentry
    rcases Results.exists_ok_of_mapM houtgoing entry hentry with ⟨r, hr⟩
    rcases Results.bind_eq_ok_iff.mp hr with ⟨_, _, hrest⟩
    rcases Results.bind_eq_ok_iff.mp hrest with ⟨_, haddresses, _⟩
    exact Results.exists_ok_of_mapM haddresses

end Ledgers

/-!
# Both ways agree
-/

namespace Engine

variable {σ : Type} {e : Engine σ} {label : LabelAnswers} {address : AddressAnswers}

theorem reconcile_ok_of_answerable (h : e.Steady label address) {w : HeightWindow} {s t : σ}
    {l : Ledgers} (hfetch : e.Fetches w s l t) (hall : l.Answerable label address) :
    ∃ records, (e.reconcile w s).answer = .ok (l, records) := by
  rcases Ledgers.answerable_iff.mp hall with ⟨hlabel, haddress⟩
  rcases Results.exists_mapM_of_exists_ok hlabel with ⟨labels, hlabels⟩
  rcases Results.exists_mapM_of_exists_ok haddress with ⟨addresses, haddresses⟩
  have hfit : RepliesFit l labels addresses :=
    ⟨Results.length_of_mapM hlabels, Results.length_of_mapM haddresses⟩
  rw [← h.labels_answer l.labelKeys t] at hlabels
  rw [← h.addresses_answer l.addressKeys l.network (e.labels l.labelKeys t).state] at haddresses
  exact ⟨_, (reconcile_succeeds_iff.mpr ⟨labels, addresses, t, _, hfetch, ⟨hlabels, rfl⟩,
    ⟨haddresses, rfl⟩, hfit, rfl⟩).1⟩

theorem recordsBy_of_reconcile (h : e.Steady label address) {w : HeightWindow} {s : σ}
    {l : Ledgers} {records : List Record}
    (hmade : (e.reconcile w s).answer = .ok (l, records)) :
    (∃ t, e.Fetches w s l t) ∧ l.recordsBy label address = .ok records := by
  rcases reconcile_succeeds_iff.mp ⟨hmade, rfl⟩ with
    ⟨labels, addresses, t, u, hfetch, ⟨hlabels, _⟩, ⟨haddresses, _⟩, _, hrecords⟩
  rw [h.labels_answer] at hlabels
  rw [h.addresses_answer] at haddresses
  refine ⟨⟨t, hfetch⟩, ?_⟩
  rw [hrecords]
  exact Ledgers.recordsBy_of_right (Ledgers.right_lookupsOf hlabels haddresses)

theorem reconcile_ok_iff (h : e.Steady label address) {w : HeightWindow} {s : σ}
    {l : Ledgers} {records : List Record} :
    (e.reconcile w s).answer = .ok (l, records) ↔
      (∃ t, e.Fetches w s l t) ∧ l.recordsBy label address = .ok records := by
  constructor
  · exact recordsBy_of_reconcile h
  · intro hdirect
    rcases hdirect with ⟨⟨t, hfetch⟩, hrecords⟩
    rcases reconcile_ok_of_answerable h hfetch (Ledgers.answerable_of_recordsBy hrecords) with
      ⟨records', hmade⟩
    have hrecords' := (recordsBy_of_reconcile h hmade).2
    rw [hrecords] at hrecords'
    cases hrecords'
    exact hmade

/-- A refresh over a steady engine is the plain way with each lookup made once. -/
theorem reconcile_eq_directly (h : e.Steady label address) (w : HeightWindow) (s : σ) :
    (e.reconcile w s).answer.toOption = (e.reconcileDirectly w s).answer.toOption ∧
      ((∃ made, (e.reconcile w s).answer = .ok made) ↔
        ∃ l, (∃ t, e.Fetches w s l t) ∧ l.Answerable label address) ∧
      ∀ l records, (e.reconcile w s).answer = .ok (l, records) →
        (∃ t, e.Fetches w s l t) ∧ l.RecordedBy label address records := by
  refine ⟨?_, ?_, ?_⟩
  · have hiff : ∀ made, (e.reconcile w s).answer = .ok made ↔
        (e.reconcileDirectly w s).answer = .ok made := by
      intro made
      rw [reconcile_ok_iff h, reconcileDirectly_ok_iff h]
    cases hplain : (e.reconcileDirectly w s).answer with
    | ok made => rw [(hiff made).mpr hplain]
    | error err =>
        cases hmade : (e.reconcile w s).answer with
        | ok made =>
            rw [(hiff made).mp hmade] at hplain
            cases hplain
        | error err' => rfl
  · constructor
    · intro hmade
      rcases hmade with ⟨⟨l, records⟩, hmade⟩
      rcases recordsBy_of_reconcile h hmade with ⟨hfetch, hrecords⟩
      exact ⟨l, hfetch, Ledgers.answerable_of_recordsBy hrecords⟩
    · intro hall
      rcases hall with ⟨l, ⟨t, hfetch⟩, hanswerable⟩
      rcases reconcile_ok_of_answerable h hfetch hanswerable with ⟨records, hmade⟩
      exact ⟨(l, records), hmade⟩
  · intro l records hmade
    rcases recordsBy_of_reconcile h hmade with ⟨hfetch, hrecords⟩
    exact ⟨hfetch, Ledgers.recordedBy_of_recordsBy hrecords⟩

def minersWallet : Snapshot where
  height := 1000
  network := .testnet
  incoming := [(.zero, ⟨.zero, 5000, ⟨0, 1⟩, 995, 1700000000, 0, .miner⟩)]
  outgoing := [(.zero,
    { amountIn := 1100, amountOut := 1000, change := none, timestamp := 1700000100,
      account := 0, indices := .singleton 1, payType := .outgoing, paymentId := .zero,
      blockHeight := 990,
      destinations := [⟨600, .zero, .zero, false, false, some "first"⟩,
        ⟨400, .zero, .zero, true, false, none⟩] })]
  pendingOutgoing := []
  pool := [(.zero, ⟨⟨.zero, 42, ⟨0, 0⟩, 0, 1700000500, 0, .incoming⟩, true⟩)]
  labels := [⟨⟨0, 1⟩, "mining"⟩]

theorem reconcile_eq_directly_minersWallet :
    (minersWallet.engine : Engine Unit).Steady (fun index => .ok (minersWallet.label index))
        (fun d _ _ => .ok (d.original.getD "")) ∧
      (minersWallet.engine.reconcile .all ()).answer.toOption =
        (minersWallet.engine.reconcileDirectly .all ()).answer.toOption ∧
      ∃ made, (minersWallet.engine.reconcile .all ()).answer = .ok made := by
  have hsteady : (minersWallet.engine : Engine Unit).Steady _ _ :=
    minersWallet.engine_steady
  have hagree := reconcile_eq_directly hsteady .all ()
  refine ⟨hsteady, hagree.1, hagree.2.1.mpr ⟨⟨1000, .testnet, minersWallet.incoming,
    minersWallet.outgoing, [], minersWallet.pool⟩, ?_, ?_⟩⟩
  · exact ⟨(), (), (), (), (), (), ⟨rfl, rfl⟩, ⟨rfl, rfl⟩, ⟨rfl, rfl⟩, ⟨rfl, rfl⟩, ⟨rfl, rfl⟩,
      ⟨rfl, rfl⟩⟩
  · constructor <;> intros <;> exact ⟨_, rfl⟩

end Engine
end WalletLedger
