import WalletLedger.Proofs.Reconcile.Served

/-!
# What a refresh looks up

A refresh goes over its ledgers and notes what the entries need, each thing where it is first
seen.  It then asks for all labels in one call and for all addresses in another, and pairs
every key with the reply at its place.
-/

namespace WalletLedger

/-!
# Keys in the order of the scan
-/

/-- The keys are what the scan comes across, each once and in the order of first sight. -/
structure FirstSeen {α : Type} [DecidableEq α] (scan keys : List α) : Prop where
  nodup : keys.Nodup
  mem_iff : ∀ x, x ∈ keys ↔ x ∈ scan
  ordered : keys.Pairwise fun x y => scan.idxOf x < scan.idxOf y

section Distinct

variable {α : Type} [DecidableEq α]

theorem nodup_distinct (scan : List α) : (distinct scan).Nodup := by
  induction scan with
  | nil => exact List.nodup_nil
  | cons x rest ih =>
      rw [distinct, List.nodup_cons]
      constructor
      · simp [List.mem_filter]
      · exact ih.filter _

theorem ordered_distinct (scan : List α) :
    (distinct scan).Pairwise fun x y => scan.idxOf x < scan.idxOf y := by
  induction scan with
  | nil => exact .nil
  | cons x rest ih =>
      have hlater : ∀ y ∈ (distinct rest).filter (fun y => y ≠ x),
          (x :: rest).idxOf y = rest.idxOf y + 1 := by
        intro y hy
        have hne : x ≠ y := fun heq => by simp [List.mem_filter, heq] at hy
        exact List.idxOf_cons_ne rest hne
      rw [distinct, List.pairwise_cons]
      constructor
      · intro y hy
        rw [List.idxOf_cons_self, hlater y hy]
        exact Nat.succ_pos _
      · refine (ih.filter _).imp_of_mem ?_
        intro y z hy hz hlt
        rw [hlater y hy, hlater z hz]
        exact Nat.succ_lt_succ hlt

theorem firstSeen_distinct (scan : List α) : FirstSeen scan (distinct scan) where
  nodup := nodup_distinct scan
  mem_iff _ := mem_distinct
  ordered := ordered_distinct scan

end Distinct

/-!
# The scan
-/

def Spending.spentFrom (t : Spending) : List SubaddressIndex :=
  match t.indices.toList with
  | [minor] => [⟨t.account, minor⟩]
  | _ => []

theorem Spending.toList_subaddress? (t : Spending) : t.subaddress?.toList = t.spentFrom := by
  unfold Spending.subaddress? IndexSet.only? Spending.spentFrom
  generalize t.indices.toList = minors
  match minors with
  | [] => rfl
  | [_] => rfl
  | _ :: _ :: _ => rfl

theorem Spending.subaddress?_eq_some_iff_fields {t : Spending} {index : SubaddressIndex} :
    t.subaddress? = some index ↔ t.account = index.major ∧ t.indices.toList = [index.minor] := by
  rw [Spending.subaddress?_eq_some_iff]
  constructor
  · intro h
    rcases h with ⟨minor, hminor, rfl⟩
    exact ⟨rfl, hminor⟩
  · intro h
    rcases h with ⟨haccount, hminor⟩
    exact ⟨index.minor, hminor, by rw [haccount]⟩

namespace Ledgers

variable (l : Ledgers)

theorem labelNeeds_eq : l.labelNeeds =
    l.incoming.map (fun (_, p) => p.subaddress) ++
      l.pool.map (fun (_, p) => p.payment.subaddress) ++
      l.outgoing.flatMap (fun (_, t) => t.spentFrom) ++
      l.pending.flatMap (fun (_, t) => t.spentFrom) := by
  unfold labelNeeds
  simp only [List.filterMap_eq_flatMap_toList, Spending.toList_subaddress?]

variable {l}

theorem mem_labelKeys_iff {index : SubaddressIndex} :
    index ∈ l.labelKeys ↔
      (∃ entry ∈ l.incoming, entry.2.subaddress = index) ∨
        (∃ entry ∈ l.pool, entry.2.payment.subaddress = index) ∨
          (∃ entry ∈ l.outgoing, entry.2.account = index.major ∧
            entry.2.indices.toList = [index.minor]) ∨
            ∃ entry ∈ l.pending, entry.2.account = index.major ∧
              entry.2.indices.toList = [index.minor] := by
  unfold labelKeys
  rw [mem_distinct, mem_labelNeeds_iff]
  simp only [Spending.subaddress?_eq_some_iff_fields]

theorem mem_addressKeys_iff {d : Destination} {p : PaymentId} :
    (d, p) ∈ l.addressKeys ↔ ∃ entry ∈ l.outgoing, d ∈ entry.2.destinations ∧
      entry.2.paymentId = p := by
  unfold addressKeys
  rw [mem_distinct, mem_addressNeeds_iff]
  simp

end Ledgers

/-!
# Replies
-/

/-- The table has for each key the reply at its place, and has no other keys. -/
def Tabulates {α : Type} [BEq α] (keys : List α) (replies : List String)
    (table : List (α × String)) : Prop :=
  ∀ key reply, table.lookup key = some reply ↔
    ∃ k : Nat, keys[k]? = some key ∧ replies[k]? = some reply

namespace Engine

variable {σ : Type} {e : Engine σ} {l : Ledgers} {s r t : σ} {labels addresses : List String}

theorem resolveLookups_answer (hlabels : (e.labels l.labelKeys).Succeeds s labels r)
    (haddresses : (e.addresses l.addressKeys l.network).Succeeds r addresses t) :
    (e.resolveLookups l s).answer =
      Lookups.ofReplies l.labelKeys l.addressKeys labels addresses := by
  unfold resolveLookups
  rw [(Act.bind_of_ok _ hlabels.1).1, hlabels.2, (Act.bind_of_ok _ haddresses.1).1]
  rfl

theorem tabulates_of_fit (hfit : RepliesFit l labels addresses) :
    Tabulates l.labelKeys labels (lookupsOf l labels addresses).labels ∧
      Tabulates l.addressKeys addresses (lookupsOf l labels addresses).addresses := by
  constructor
  · intro key reply
    exact Results.lookup_zip_eq_some_iff (nodup_distinct _) hfit.1.ge
  · intro key reply
    exact Results.lookup_zip_eq_some_iff (nodup_distinct _) hfit.2.ge

end Engine

/-- For any ledgers there is one list of labels and one list of addresses to ask for.  Each has
just what some entry needs, once and in the order of first sight.  Every engine is asked for the
labels and then for the addresses, and for nothing else; when both calls succeed, the lookups
fail only if the replies are too many or too few, and else pair each key with its reply. -/
theorem resolveLookups_asks_once (l : Ledgers) :
    ∃ labelKeys addressKeys,
      FirstSeen (l.incoming.map (fun (_, p) => p.subaddress) ++
        l.pool.map (fun (_, p) => p.payment.subaddress) ++
        l.outgoing.flatMap (fun (_, t) => t.spentFrom) ++
        l.pending.flatMap (fun (_, t) => t.spentFrom)) labelKeys ∧
      (∀ index, index ∈ labelKeys ↔
        (∃ entry ∈ l.incoming, entry.2.subaddress = index) ∨
          (∃ entry ∈ l.pool, entry.2.payment.subaddress = index) ∨
            (∃ entry ∈ l.outgoing, entry.2.account = index.major ∧
              entry.2.indices.toList = [index.minor]) ∨
              ∃ entry ∈ l.pending, entry.2.account = index.major ∧
                entry.2.indices.toList = [index.minor]) ∧
      FirstSeen (l.outgoing.flatMap fun (_, t) => t.destinations.map fun d => (d, t.paymentId))
        addressKeys ∧
      (∀ d p, (d, p) ∈ addressKeys ↔ ∃ entry ∈ l.outgoing, d ∈ entry.2.destinations ∧
        entry.2.paymentId = p) ∧
      ∀ {σ : Type} (e : Engine σ),
        (e.resolveLookups l = do
          let labels ← e.labels labelKeys
          let addresses ← e.addresses addressKeys l.network
          Act.ofExcept (Lookups.ofReplies labelKeys addressKeys labels addresses)) ∧
        ∀ s labels r addresses t, (e.labels labelKeys).Succeeds s labels r →
          (e.addresses addressKeys l.network).Succeeds r addresses t →
            let answer := (e.resolveLookups l s).answer
            ((∃ err, answer = .error err) ↔
              labels.length ≠ labelKeys.length ∨ addresses.length ≠ addressKeys.length) ∧
            (∀ err, answer = .error err → err = .invalidData (.lookupCount labels.length
              labelKeys.length addresses.length addressKeys.length)) ∧
            ∀ lookups, answer = .ok lookups → Tabulates labelKeys labels lookups.labels ∧
              Tabulates addressKeys addresses lookups.addresses := by
  refine ⟨l.labelKeys, l.addressKeys, ?_, fun _ => Ledgers.mem_labelKeys_iff, ?_,
    fun _ _ => Ledgers.mem_addressKeys_iff, ?_⟩
  · rw [← l.labelNeeds_eq]
    exact firstSeen_distinct l.labelNeeds
  · exact firstSeen_distinct l.addressNeeds
  · intro σ e
    refine ⟨rfl, ?_⟩
    intro s labels r addresses t hlabels haddresses answer
    have hanswer : answer = _ := Engine.resolveLookups_answer hlabels haddresses
    rw [hanswer]
    by_cases hfit : Engine.RepliesFit l labels addresses
    · rw [Engine.ofReplies_of_fit hfit]
      refine ⟨iff_of_false nofun ?_, nofun, ?_⟩
      · intro hlength
        rcases hlength with hlength | hlength
        · exact hlength hfit.1
        · exact hlength hfit.2
      · intro lookups hlookups
        cases hlookups
        exact Engine.tabulates_of_fit hfit
    · rw [Engine.ofReplies_of_not_fit hfit]
      refine ⟨iff_of_true ⟨_, rfl⟩ (not_and_or.mp hfit), ?_, nofun⟩
      intro err herr
      cases herr
      rfl

theorem resolveLookups_asks_once_minersWallet :
    ∃ keys : List SubaddressIndex, keys.Nodup ∧ (∀ index, index ∈ keys ↔
        index = ⟨0, 1⟩ ∨ index = ⟨0, 0⟩) ∧
      ∃ lookups, ((Engine.minersWallet.engine : Engine Unit).resolveLookups
          (Engine.minersWallet.ledgers .all) ()).answer = .ok lookups ∧
        Tabulates keys (keys.map Engine.minersWallet.label) lookups.labels := by
  rcases resolveLookups_asks_once (Engine.minersWallet.ledgers .all) with
    ⟨labelKeys, addressKeys, hfirst, _, _, _, hall⟩
  have hserves : (Engine.minersWallet.engine : Engine Unit).Serves _ _ _ _ _ :=
    Engine.minersWallet.engine_serves .all
  have hrun := (hall Engine.minersWallet.engine).2 () _ () _ ()
    ⟨(hserves.labels labelKeys () trivial).1, rfl⟩
    ⟨(hserves.addresses addressKeys _ () trivial).1, rfl⟩
  refine ⟨labelKeys, hfirst.nodup, ?_, ?_⟩
  · intro index
    have hscan : index ∈ labelKeys ↔ index ∈ [⟨0, 1⟩, ⟨0, 0⟩, ⟨0, 1⟩] := hfirst.mem_iff index
    rw [hscan]
    simp only [List.mem_cons, List.not_mem_nil, or_false]
    tauto
  · cases hanswer : ((Engine.minersWallet.engine : Engine Unit).resolveLookups
        (Engine.minersWallet.ledgers .all) ()).answer with
    | ok lookups => exact ⟨lookups, rfl, (hrun.2.2 lookups hanswer).1⟩
    | error err =>
        have hlength := hrun.1.mp ⟨err, hanswer⟩
        simp at hlength

end WalletLedger
