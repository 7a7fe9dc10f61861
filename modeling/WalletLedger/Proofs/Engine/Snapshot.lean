import WalletLedger.Engine.Snapshot
import WalletLedger.History
import WalletLedger.Proofs.Wallet.EntryCodec

/-!
# Snapshots that were read

A snapshot that a document can tell is read again from the document that is written for it,
and no other snapshot comes from a document.
-/

namespace WalletLedger

open Json.Codec

theorem LabelEntry.codec_roundTrips (d : Nat) (e : LabelEntry) :
    LabelEntry.codec.RoundTrips (d + 2) e := by
  refine record_roundTrips (by decide) ?_ rfl
  apply fieldsRoundTrip_cons (SubaddressIndex.codec_roundTrips d e.index) rfl
  apply fieldsRoundTrip_cons (string_roundTrips (d + 1) e.label) rfl
  trivial

namespace Snapshot

/-- Every change in the snapshot is one that a document can tell. -/
structure Readable (s : Snapshot) : Prop where
  outgoing : ∀ e ∈ s.outgoing, e.2.toSpending.Readable
  pendingOutgoing : ∀ e ∈ s.pendingOutgoing, e.2.toSpending.Readable

theorem readable_of_ofText {text : String} {s : Snapshot} (h : ofText text = .ok s) :
    s.Readable := by
  have hdecode : codec.decode text = .ok s := by
    unfold ofText at h
    cases hdecode : codec.decode text with
    | ok s' =>
        rw [hdecode] at h
        cases h
        rfl
    | error e =>
        rw [hdecode] at h
        cases h
  rcases Json.Codec.canRead_record (Json.Codec.canRead_decode hdecode) with
    ⟨⟨_, _, _, outgoing, pendingOutgoing, _⟩, ⟨_, _, _, houtgoing, hpending, _⟩, heq⟩
  rw [← heq]
  constructor
  · rcases houtgoing with h | h | h
    · exact readable_of_canRead_outgoing h
    · cases h
      exact fun e he => absurd he List.not_mem_nil
    · cases h
  · rcases hpending with h | h | h
    · exact readable_of_canRead_pending h
    · cases h
      exact fun e he => absurd he List.not_mem_nil
    · cases h

theorem codec_roundTrips {s : Snapshot} (h : s.Readable) : codec.RoundTrips 10 s := by
  refine record_roundTrips (by decide) ?_ rfl
  apply fieldsRoundTrip_cons (uint64_roundTrips 9 s.height) rfl
  apply fieldsRoundTrip_cons (Network.codec_roundTrips 9 s.network) rfl
  apply fieldsRoundTrip_cons (incomingCodec_roundTrips 5 s.incoming) rfl
  apply fieldsRoundTrip_cons (outgoingCodec_roundTrips 4 h.outgoing) rfl
  apply fieldsRoundTrip_cons (pendingCodec_roundTrips 4 h.pendingOutgoing) rfl
  apply fieldsRoundTrip_cons (poolCodec_roundTrips 5 s.pool) rfl
  apply fieldsRoundTrip_cons (list_roundTrips fun e _ => LabelEntry.codec_roundTrips 6 e) rfl
  trivial

theorem ofText_encode {s : Snapshot} (h : s.Readable) : ofText (codec.encode s) = .ok s := by
  unfold ofText
  rw [(codec_roundTrips h).decode_encode (by decide)]
  rfl

/-!
# Documents and the texts written for them

A text may tell a snapshot in many ways, and one of them is the text that is written for it.
-/

theorem readable_iff {s : Snapshot} :
    s.Readable ↔ (∀ e ∈ s.outgoing, e.2.change ≠ some unknownChange) ∧
      ∀ e ∈ s.pendingOutgoing, e.2.change ≠ some unknownChange := by
  constructor
  · intro h
    exact ⟨h.outgoing, h.pendingOutgoing⟩
  · intro h
    exact ⟨h.1, h.2⟩

/-- Snapshots survive being written unless they have the one change that no document can tell,
and nothing that was ever read has it. -/
theorem written_and_read :
    (∀ s : Snapshot, ofText (codec.encode s) = .ok s ↔
      (∀ e ∈ s.outgoing, e.2.change ≠ some 0xffffffffffffffff) ∧
        ∀ e ∈ s.pendingOutgoing, e.2.change ≠ some 0xffffffffffffffff) ∧
    ∀ text s, ofText text = .ok s →
      (∀ e ∈ s.outgoing, e.2.change ≠ some 0xffffffffffffffff) ∧
      (∀ e ∈ s.pendingOutgoing, e.2.change ≠ some 0xffffffffffffffff) ∧
      ∃ again, ofText (codec.encode s) = .ok again ∧ again = s ∧
        codec.encode again = codec.encode s ∧
        ∀ {σ : Type} (w : HeightWindow) (timing : Timing) (session : Session σ),
          History.refresh again.engine w timing session =
            History.refresh s.engine w timing session := by
  constructor
  · intro s
    constructor
    · intro h
      exact readable_iff.mp (readable_of_ofText h)
    · intro h
      exact ofText_encode (readable_iff.mpr h)
  · intro text s h
    have hread := readable_of_ofText h
    rcases readable_iff.mp hread with ⟨houtgoing, hpending⟩
    refine ⟨houtgoing, hpending, s, ofText_encode hread, rfl, rfl, ?_⟩
    intro _ w timing session
    rfl

/-- A document with a member that no snapshot has and a network in its longer form. -/
def roundaboutText : String :=
  "\x7b\"network\": \x7b\"devnet\":null\x7d,\"note\":[1], \"height\":7 \x7d"

def spendersWallet (change : Option UInt64) : Snapshot where
  height := 1000
  network := .devnet
  incoming := [(.zero, ⟨.zero, 5000, ⟨0, 1⟩, 995, 1700000000, 0, .miner⟩)]
  outgoing := [(.zero,
    { amountIn := 1100, amountOut := 1000, change, timestamp := 1700000100, account := 0,
      indices := .singleton 1, payType := .outgoing, paymentId := .zero, blockHeight := 990,
      destinations := [⟨600, .zero, .zero, false, false, some "first"⟩,
        ⟨400, .zero, .zero, true, false, none⟩] })]
  pendingOutgoing := [(.zero,
    { amountIn := 70, amountOut := 60, change, timestamp := 1700000400, account := 2,
      indices := .singleton 0, payType := .stake, paymentId := .zero, state := .failed })]
  pool := [(.zero, ⟨⟨.zero, 42, ⟨0, 0⟩, 0, 1700000500, 0, .incoming⟩, true⟩)]
  labels := [⟨⟨0, 1⟩, "mining \u00e9\n"⟩]

/-- A change that is the greatest word is written like an unknown one and read as such. -/
theorem written_and_read_roundabout :
    (∃ s, ofText roundaboutText = .ok s ∧ ofText (codec.encode s) = .ok s ∧
      codec.encode s ≠ roundaboutText) ∧
    ofText (codec.encode (spendersWallet none)) = .ok (spendersWallet none) ∧
    ofText (codec.encode (spendersWallet (some 0xffffffffffffffff))) =
      .ok (spendersWallet none) := by
  have hread : ofText roundaboutText = .ok ⟨7, .devnet, [], [], [], [], []⟩ := by cbv
  rcases (written_and_read.2 _ _ hread).2.2 with ⟨again, hagain, rfl, _⟩
  have hnone : (none : Option UInt64) ≠ some 0xffffffffffffffff := (Option.some_ne_none _).symm
  have hplain : ofText (codec.encode (spendersWallet none)) = .ok (spendersWallet none) :=
    (written_and_read.1 _).mpr
      ⟨List.forall_mem_singleton.mpr hnone, List.forall_mem_singleton.mpr hnone⟩
  have hsame : codec.encode (spendersWallet (some 0xffffffffffffffff)) =
      codec.encode (spendersWallet none) := rfl
  refine ⟨⟨_, hread, hagain, ?_⟩, hplain, hsame ▸ hplain⟩
  cbv

end Snapshot
end WalletLedger
