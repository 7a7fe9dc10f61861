import WalletLedger.Proofs.Engine.Snapshot
import WalletLedger.Proofs.Reconcile.Served
import WalletLedger.Proofs.Rpc.Host

/-!
# What a server tells

A server tells a value if it answers a call with the JSON form of the value and the client
reads the value from that.  The calls of a refresh and of its lookups are told what the
snapshot has.
-/

namespace WalletLedger

open Json (Codec Plain)

namespace Rpc
namespace Host

variable {π : Type} {h : Host π}

/-- The server tells `x` in answer to the call, and nothing in it is more than ten deep. -/
structure Tells (h : Host π) {α : Type} (c : Codec α) (call : Call) (x : α) : Prop where
  plain_params : ∀ v ∈ call.params, Plain 10 v
  roundTrips : c.RoundTrips 10 x
  answer : h.answer (arrived call) = .ok (c.toJson x)

namespace Tells

variable {α : Type} {c : Codec α} {call : Call} {x : α}

theorem resultOf (ht : h.Tells c call x) : h.resultOf call = c.toJson x := by
  unfold Host.resultOf
  rw [ht.answer]

theorem answers (ht : h.Tells c call x) : h.Answers call where
  plain_params := ht.plain_params
  plain_result := by
    rw [ht.resultOf]
    exact ht.roundTrips.plain
  answer := by
    rw [ht.resultOf]
    exact ht.answer

theorem decode (ht : h.Tells c call x) (method : String) :
    decodeResult c method (h.resultOf call).sorted = .ok x := by
  rw [ht.resultOf]
  unfold decodeResult
  rw [show c.decodeValue (c.toJson x).sorted = .ok x from ht.roundTrips.decodeValue]
  rfl

theorem read (ht : h.Tells c call x) (method : String) :
    h.heard call >>= decodeResult c method = .ok x := by
  rw [ht.answers.heard]
  exact ht.decode method

end Tells

/-!
# Parameters
-/

theorem readParam_sorted {α : Type} {c : Codec α} {d : Nat} {x : α} (hx : c.RoundTrips d x) :
    readParam c (c.toJson x).sorted = .ok x := by
  unfold readParam
  rw [show c.decodeValue (c.toJson x).sorted = .ok x from hx.decodeValue]
  rfl

theorem windowOf_windowParams (w : HeightWindow) :
    windowOf ((Call.windowParams w).map Json.sorted) = .ok w := by
  have hmin := readParam_sorted (Json.Codec.uint64_roundTrips 0 w.minHeight)
  have hmax := readParam_sorted (Json.Codec.uint64_roundTrips 0 w.maxHeight)
  change (do
    let minHeight ← readParam .uint64 (Json.Codec.uint64.toJson w.minHeight).sorted
    let maxHeight ← readParam .uint64 (Json.Codec.uint64.toJson w.maxHeight).sorted
    Except.ok (HeightWindow.mk minHeight maxHeight)) = _
  rw [hmin, hmax]
  rfl

theorem indexOf_params (index : SubaddressIndex) :
    indexOf ((Call.label index).params.map Json.sorted) = .ok index := by
  have hmajor := readParam_sorted (Json.Codec.uint32_roundTrips 0 index.major)
  have hminor := readParam_sorted (Json.Codec.uint32_roundTrips 0 index.minor)
  change (do
    let major ← readParam .uint32 (Json.Codec.uint32.toJson index.major).sorted
    let minor ← readParam .uint32 (Json.Codec.uint32.toJson index.minor).sorted
    Except.ok (SubaddressIndex.mk major minor)) = _
  rw [hmajor, hminor]
  rfl

theorem destinationOf_params (key : RenderKey) :
    destinationOf ((Call.address key).params.map Json.sorted) = .ok key.destination := by
  have htrip := Destination.codec_roundTrips 0 key.destination
  change readParam Destination.codec (Destination.codec.toJson key.destination).sorted.sorted = _
  rw [Json.sorted_sorted htrip.plain]
  exact readParam_sorted htrip

/-!
# One call after another
-/

theorem plain_windowParams (w : HeightWindow) : ∀ v ∈ Call.windowParams w, Plain 10 v := by
  intro v hv
  rcases List.mem_cons.mp hv with rfl | hv
  · exact .unsigned _ _
  · rcases List.mem_singleton.mp hv with rfl
    exact .unsigned _ _

theorem tells_height (h : Host π) : h.Tells Result.height .height h.snapshot.height where
  plain_params _ hv := absurd hv List.not_mem_nil
  roundTrips := Codec.oneField_roundTrips (Codec.uint64_roundTrips 9 _) rfl
  answer := rfl

theorem tells_network (h : Host π) : h.Tells Result.network .network h.snapshot.network where
  plain_params _ hv := absurd hv List.not_mem_nil
  roundTrips := Codec.oneField_roundTrips (Network.codec_roundTrips 9 _) rfl
  answer := rfl

theorem decide_inside (w : HeightWindow) (height : UInt64) :
    decide (w.minHeight < height ∧ height ≤ w.maxHeight) = w.contains height :=
  Bool.decide_and _ _

theorem tells_incoming (h : Host π) (w : HeightWindow) :
    h.Tells (Result.payments incomingCodec) (.incoming w) (h.snapshot.ledgers w).incoming where
  plain_params := plain_windowParams w
  roundTrips := Codec.oneField_roundTrips (incomingCodec_roundTrips 5 _) rfl
  answer := by
    change (windowOf ((Call.windowParams w).map Json.sorted)).map _ = _
    rw [windowOf_windowParams]
    change Except.ok ((Result.payments incomingCodec).toJson (h.snapshot.incoming.filter
      fun e => decide (w.minHeight < e.2.blockHeight ∧ e.2.blockHeight ≤ w.maxHeight))) = _
    simp only [decide_inside]
    rfl

theorem tells_outgoing (hread : h.snapshot.Readable) (w : HeightWindow) :
    h.Tells (Result.transfers outgoingCodec) (.outgoing w) (h.snapshot.ledgers w).outgoing where
  plain_params := plain_windowParams w
  roundTrips := by
    refine Codec.oneField_roundTrips (outgoingCodec_roundTrips 4 fun e he => ?_) rfl
    exact hread.outgoing e (List.mem_filter.mp he).1
  answer := by
    change (windowOf ((Call.windowParams w).map Json.sorted)).map _ = _
    rw [windowOf_windowParams]
    change Except.ok ((Result.transfers outgoingCodec).toJson (h.snapshot.outgoing.filter
      fun e => decide (w.minHeight < e.2.blockHeight ∧ e.2.blockHeight ≤ w.maxHeight))) = _
    simp only [decide_inside]
    rfl

theorem tells_pending (hread : h.snapshot.Readable) :
    h.Tells (Result.transfers pendingCodec) .pending h.snapshot.pendingOutgoing where
  plain_params _ hv := absurd hv List.not_mem_nil
  roundTrips := Codec.oneField_roundTrips
    (pendingCodec_roundTrips 4 hread.pendingOutgoing) rfl
  answer := rfl

theorem tells_pool (h : Host π) :
    h.Tells (Result.payments poolCodec) .pool h.snapshot.pool where
  plain_params _ hv := absurd hv List.not_mem_nil
  roundTrips := Codec.oneField_roundTrips (poolCodec_roundTrips 5 _) rfl
  answer := rfl

theorem tells_label (h : Host π) (index : SubaddressIndex) :
    h.Tells Result.label (.label index) (lastLabel h.snapshot.labels index) where
  plain_params := by
    intro v hv
    rcases List.mem_cons.mp hv with rfl | hv
    · exact .unsigned _ _
    · rcases List.mem_singleton.mp hv with rfl
      exact .unsigned _ _
  roundTrips := Codec.oneField_roundTrips (Codec.string_roundTrips 9 _) rfl
  answer := by
    change (indexOf ((Call.label index).params.map Json.sorted)).map _ = _
    rw [indexOf_params]
    rfl

theorem tells_address (h : Host π) (key : RenderKey) :
    h.Tells Result.address (.address key) (Snapshot.given key.destination) where
  plain_params := by
    intro v hv
    rcases List.mem_cons.mp hv with rfl | hv
    · exact Json.plain_sorted (Destination.codec_roundTrips 9 key.destination).plain
    · rcases List.mem_cons.mp hv with rfl | hv
      · exact Json.plain_sorted (Network.codec_roundTrips 10 key.network).plain
      · rcases List.mem_singleton.mp hv with rfl
        exact Json.plain_sorted (Identifier.codec_roundTrips 10 key.paymentId).plain
  roundTrips := Codec.oneField_roundTrips (Codec.string_roundTrips 9 _) rfl
  answer := by
    change (destinationOf ((Call.address key).params.map Json.sorted)).map _ = _
    rw [destinationOf_params]
    rfl

end Host
end Rpc
end WalletLedger
