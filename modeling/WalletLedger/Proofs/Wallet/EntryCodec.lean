import WalletLedger.Proofs.Json.Provenance
import WalletLedger.Proofs.Wallet.Identifier
import WalletLedger.Wallet.EntryCodec

/-!
# Entries that were written

Every entry of a ledger that a codec can read is restored.  There is one value of the types
that is not: a change of the greatest word, which is written as the mark of an unknown
change.  No entry that was read has it.
-/

namespace WalletLedger

open Json (Fields Field)
open Json.Codec

/-!
# Names and places
-/

theorem PayType.codec_roundTrips (d : Nat) (t : PayType) : PayType.codec.RoundTrips d t :=
  variants_roundTrips (by cases t <;> rfl) d

theorem Network.codec_roundTrips (d : Nat) (n : Network) : Network.codec.RoundTrips d n :=
  variants_roundTrips (by cases n <;> rfl) d

theorem TransferState.codec_roundTrips (d : Nat) (s : TransferState) :
    TransferState.codec.RoundTrips d s :=
  variants_roundTrips (by cases s <;> rfl) d

theorem SubaddressIndex.codec_roundTrips (d : Nat) (i : SubaddressIndex) :
    SubaddressIndex.codec.RoundTrips (d + 1) i := by
  refine record_roundTrips (by decide) ?_ rfl
  apply fieldsRoundTrip_cons (uint32_roundTrips d i.major) rfl
  apply fieldsRoundTrip_cons (uint32_roundTrips d i.minor) rfl
  trivial

theorem Destination.codec_roundTrips (d : Nat) (x : Destination) :
    Destination.codec.RoundTrips (d + 1) x := by
  refine record_roundTrips (by decide) ?_ rfl
  apply fieldsRoundTrip_cons (uint64_roundTrips d x.amount) rfl
  apply fieldsRoundTrip_cons (Identifier.codec_roundTrips d x.spendKey) rfl
  apply fieldsRoundTrip_cons (Identifier.codec_roundTrips d x.viewKey) rfl
  apply fieldsRoundTrip_cons (bool_roundTrips d x.isSubaddress) rfl
  apply fieldsRoundTrip_cons (bool_roundTrips d x.isIntegrated) rfl
  cases horiginal : x.original with
  | none => exact ⟨optional_none_roundTrips _ d, fun _ => rfl, trivial⟩
  | some address =>
      apply fieldsRoundTrip_cons _ rfl
      · trivial
      · have hstring : (Json.Codec.string.toJson address).sorted = .string address := rfl
        refine optional_some_roundTrips (string_roundTrips d address) ?_
        rw [hstring]
        exact Json.noConfusion

/-!
# Entries
-/

theorem Payment.fields_roundTrip (d : Nat) (p : Payment) :
    FieldsRoundTrip (d + 1) Payment.fields p.toRow := by
  apply fieldsRoundTrip_cons (Identifier.codec_roundTrips (d + 1) p.txHash) rfl
  apply fieldsRoundTrip_cons (uint64_roundTrips (d + 1) p.amount) rfl
  apply fieldsRoundTrip_cons (SubaddressIndex.codec_roundTrips d p.subaddress) rfl
  apply fieldsRoundTrip_cons (uint64_roundTrips (d + 1) p.blockHeight) rfl
  apply fieldsRoundTrip_cons (uint64_roundTrips (d + 1) p.timestamp) rfl
  apply fieldsRoundTrip_cons (uint64_roundTrips (d + 1) p.unlockTime) rfl
  apply fieldsRoundTrip_cons (PayType.codec_roundTrips (d + 1) p.payType) rfl
  trivial

theorem Payment.codec_roundTrips (d : Nat) (p : Payment) : Payment.codec.RoundTrips (d + 2) p :=
  record_roundTrips (by decide) (Payment.fields_roundTrip d p) rfl

theorem SubaddressIndex.sorted_toJson (i : SubaddressIndex) :
    (SubaddressIndex.codec.toJson i).sorted = SubaddressIndex.codec.toJson i := by
  have hlt : "major" < "minor" := by decide
  exact congrArg Json.object (Json.sortMembers_of_ascending (List.pairwise_pair.mpr hlt))

/-- The members of a payment are in order inside, as they have to be when they are held back. -/
theorem Payment.sorted_toMembers (p : Payment) :
    ∀ m ∈ Payment.fields.toMembers p.toRow, m.2.sorted = m.2 := by
  intro m hm
  rcases List.mem_cons.mp hm with rfl | hm
  · rfl
  rcases List.mem_cons.mp hm with rfl | hm
  · rfl
  rcases List.mem_cons.mp hm with rfl | hm
  · exact p.subaddress.sorted_toJson
  rcases List.mem_cons.mp hm with rfl | hm
  · rfl
  rcases List.mem_cons.mp hm with rfl | hm
  · rfl
  rcases List.mem_cons.mp hm with rfl | hm
  · rfl
  rcases List.mem_singleton.mp hm with rfl
  rfl

theorem PoolPayment.codec_roundTrips (d : Nat) (p : PoolPayment) :
    PoolPayment.codec.RoundTrips (d + 2) p := by
  refine flattened_roundTrips (by decide) (Payment.fields_roundTrip d p.payment) ?_
    p.payment.sorted_toMembers rfl
  apply fieldsRoundTrip_cons (bool_roundTrips (d + 1) p.doubleSpendSeen) rfl
  trivial

/-- The change is none of those that stand for no change. -/
def Spending.Readable (t : Spending) : Prop :=
  t.change ≠ some unknownChange

theorem changeCodec_roundTrips (d : Nat) {change : Option UInt64}
    (h : change ≠ some unknownChange) : changeCodec.RoundTrips d change := by
  refine iso_roundTrips (uint64_roundTrips d (change.getD unknownChange)) ?_
  cases change with
  | none => rfl
  | some n =>
      change (if n = unknownChange then none else some n) = some n
      exact if_neg fun heq => h (congrArg some heq)

theorem ConfirmedTransfer.codec_roundTrips (d : Nat) {t : ConfirmedTransfer}
    (h : t.toSpending.Readable) : ConfirmedTransfer.codec.RoundTrips (d + 3) t := by
  refine record_roundTrips (by decide) ?_ rfl
  apply fieldsRoundTrip_cons (uint64_roundTrips (d + 2) t.amountIn) rfl
  apply fieldsRoundTrip_cons (uint64_roundTrips (d + 2) t.amountOut) rfl
  apply fieldsRoundTrip_cons (changeCodec_roundTrips (d + 2) h) rfl
  apply fieldsRoundTrip_cons (uint64_roundTrips (d + 2) t.blockHeight) rfl
  apply fieldsRoundTrip_cons (uint64_roundTrips (d + 2) t.timestamp) rfl
  apply fieldsRoundTrip_cons (uint32_roundTrips (d + 2) t.account) rfl
  apply fieldsRoundTrip_cons (IndexSet.codec_roundTrips (d + 1) t.indices) rfl
  apply fieldsRoundTrip_cons (PayType.codec_roundTrips (d + 2) t.payType) rfl
  apply fieldsRoundTrip_cons (Identifier.codec_roundTrips (d + 2) t.paymentId) rfl
  apply fieldsRoundTrip_cons _ rfl
  · trivial
  · exact list_roundTrips fun x _ => Destination.codec_roundTrips d x

theorem PendingTransfer.codec_roundTrips (d : Nat) {t : PendingTransfer}
    (h : t.toSpending.Readable) : PendingTransfer.codec.RoundTrips (d + 3) t := by
  refine record_roundTrips (by decide) ?_ rfl
  apply fieldsRoundTrip_cons (uint64_roundTrips (d + 2) t.amountIn) rfl
  apply fieldsRoundTrip_cons (uint64_roundTrips (d + 2) t.amountOut) rfl
  apply fieldsRoundTrip_cons (changeCodec_roundTrips (d + 2) h) rfl
  apply fieldsRoundTrip_cons (uint64_roundTrips (d + 2) t.timestamp) rfl
  apply fieldsRoundTrip_cons (uint32_roundTrips (d + 2) t.account) rfl
  apply fieldsRoundTrip_cons (IndexSet.codec_roundTrips (d + 1) t.indices) rfl
  apply fieldsRoundTrip_cons (PayType.codec_roundTrips (d + 2) t.payType) rfl
  apply fieldsRoundTrip_cons (Identifier.codec_roundTrips (d + 2) t.paymentId) rfl
  apply fieldsRoundTrip_cons (TransferState.codec_roundTrips (d + 2) t.state) rfl
  trivial

/-!
# Ledgers
-/

theorem incomingCodec_roundTrips (d : Nat) (l : IncomingLedger) :
    incomingCodec.RoundTrips (d + 4) l :=
  list_roundTrips fun (paymentId, p) _ =>
    pair_roundTrips (Identifier.codec_roundTrips (d + 2) paymentId) (Payment.codec_roundTrips d p)

theorem outgoingCodec_roundTrips (d : Nat) {l : OutgoingLedger}
    (h : ∀ e ∈ l, e.2.toSpending.Readable) : outgoingCodec.RoundTrips (d + 5) l :=
  list_roundTrips fun e he =>
    pair_roundTrips (Identifier.codec_roundTrips (d + 3) e.1)
      (ConfirmedTransfer.codec_roundTrips d (h e he))

theorem pendingCodec_roundTrips (d : Nat) {l : PendingLedger}
    (h : ∀ e ∈ l, e.2.toSpending.Readable) : pendingCodec.RoundTrips (d + 5) l :=
  list_roundTrips fun e he =>
    pair_roundTrips (Identifier.codec_roundTrips (d + 3) e.1)
      (PendingTransfer.codec_roundTrips d (h e he))

theorem poolCodec_roundTrips (d : Nat) (l : PoolLedger) : poolCodec.RoundTrips (d + 4) l :=
  list_roundTrips fun (paymentId, p) _ =>
    pair_roundTrips (Identifier.codec_roundTrips (d + 2) paymentId)
      (PoolPayment.codec_roundTrips d p)

/-!
# Entries that were read
-/

theorem ne_unknownChange_of_canRead {change : Option UInt64} (h : changeCodec.CanRead change) :
    change ≠ some unknownChange := by
  rcases canRead_iso h with ⟨n, heq⟩
  rw [← heq]
  split
  · exact nofun
  · next hne => exact fun h => hne (Option.some.inj h)

theorem ne_unknownChange_of_allows {name : String} {change : Option UInt64}
    (h : (Field.required name changeCodec).Allows change) : change ≠ some unknownChange := by
  rcases h with h | h | h
  · exact ne_unknownChange_of_canRead h
  · cases h
  · cases h

theorem ConfirmedTransfer.readable_of_canRead {t : ConfirmedTransfer}
    (h : ConfirmedTransfer.codec.CanRead t) : t.toSpending.Readable := by
  rcases canRead_record h with ⟨row, ⟨_, _, hchange, _⟩, heq⟩
  rw [← heq]
  exact ne_unknownChange_of_allows hchange

theorem PendingTransfer.readable_of_canRead {t : PendingTransfer}
    (h : PendingTransfer.codec.CanRead t) : t.toSpending.Readable := by
  rcases canRead_record h with ⟨row, ⟨_, _, hchange, _⟩, heq⟩
  rw [← heq]
  exact ne_unknownChange_of_allows hchange

theorem readable_of_canRead_outgoing {l : OutgoingLedger} (h : outgoingCodec.CanRead l) :
    ∀ e ∈ l, e.2.toSpending.Readable := fun e he =>
  ConfirmedTransfer.readable_of_canRead (canRead_pair (canRead_list h e he)).2

theorem readable_of_canRead_pending {l : PendingLedger} (h : pendingCodec.CanRead l) :
    ∀ e ∈ l, e.2.toSpending.Readable := fun e he =>
  PendingTransfer.readable_of_canRead (canRead_pair (canRead_list h e he)).2

end WalletLedger
