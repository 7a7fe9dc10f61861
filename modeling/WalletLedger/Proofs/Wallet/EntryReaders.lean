import WalletLedger.Proofs.Json.Readers
import WalletLedger.Rpc.Message
import WalletLedger.Wallet.EntryCodec

/-!
# Entries from texts and from values

The engine reads entries of ledgers from the results of calls, which are values, and a
snapshot reads them from its text.  For every value that a text can tell, both ways lead to
the same entries or to none.
-/

namespace WalletLedger

open Json (Codec Legible)
open Json.Codec

/-!
# Parts of entries
-/

theorem Identifier.codec_readsAlike {kind : IdentifierKind} :
    (Identifier.codec : Codec (Identifier kind)).ReadsAlike :=
  refine_readsAlike string_readsAlike _ _

theorem PayType.codec_readsAlike : PayType.codec.ReadsAlike :=
  variants_readsAlike _ _

theorem TransferState.codec_readsAlike : TransferState.codec.ReadsAlike :=
  variants_readsAlike _ _

theorem IndexSet.codec_readsAlike : IndexSet.codec.ReadsAlike :=
  iso_readsAlike (list_readsAlike uint32_readsAlike) _ _

theorem changeCodec_readsAlike : changeCodec.ReadsAlike :=
  iso_readsAlike uint64_readsAlike _ _

theorem SubaddressIndex.codec_readsAlike : SubaddressIndex.codec.ReadsAlike := by
  refine record_readsAlike ?_ _ _ _
  exact ⟨uint32_readsAlike, uint32_readsAlike, trivial⟩

theorem Destination.codec_readsAlike : Destination.codec.ReadsAlike := by
  refine record_readsAlike ?_ _ _ _
  exact ⟨uint64_readsAlike, Identifier.codec_readsAlike, Identifier.codec_readsAlike,
    bool_readsAlike, bool_readsAlike, optional_readsAlike string_readsAlike, trivial⟩

/-!
# Entries
-/

theorem Payment.fields_readAlike : Payment.fields.ReadAlike :=
  ⟨Identifier.codec_readsAlike, uint64_readsAlike, SubaddressIndex.codec_readsAlike,
    uint64_readsAlike, uint64_readsAlike, uint64_readsAlike, PayType.codec_readsAlike, trivial⟩

theorem Payment.codec_readsAlike : Payment.codec.ReadsAlike :=
  record_readsAlike Payment.fields_readAlike _ _ _

theorem PoolPayment.codec_readsAlike : PoolPayment.codec.ReadsAlike := by
  refine flattened_readsAlike Payment.fields_readAlike ?_ _ _ _
  exact ⟨bool_readsAlike, trivial⟩

theorem ConfirmedTransfer.codec_readsAlike : ConfirmedTransfer.codec.ReadsAlike := by
  refine record_readsAlike ?_ _ _ _
  exact ⟨uint64_readsAlike, uint64_readsAlike, changeCodec_readsAlike, uint64_readsAlike,
    uint64_readsAlike, uint32_readsAlike, IndexSet.codec_readsAlike, PayType.codec_readsAlike,
    Identifier.codec_readsAlike, list_readsAlike Destination.codec_readsAlike, trivial⟩

theorem PendingTransfer.codec_readsAlike : PendingTransfer.codec.ReadsAlike := by
  refine record_readsAlike ?_ _ _ _
  exact ⟨uint64_readsAlike, uint64_readsAlike, changeCodec_readsAlike, uint64_readsAlike,
    uint32_readsAlike, IndexSet.codec_readsAlike, PayType.codec_readsAlike,
    Identifier.codec_readsAlike, TransferState.codec_readsAlike, trivial⟩

inductive LedgerCodec : {α : Type} → Codec α → Prop where
  | destination : LedgerCodec Destination.codec
  | payment : LedgerCodec Payment.codec
  | poolPayment : LedgerCodec PoolPayment.codec
  | confirmedTransfer : LedgerCodec ConfirmedTransfer.codec
  | pendingTransfer : LedgerCodec PendingTransfer.codec
  | subaddressIndex : LedgerCodec SubaddressIndex.codec
  | incoming : LedgerCodec incomingCodec
  | outgoing : LedgerCodec outgoingCodec
  | pending : LedgerCodec pendingCodec
  | pool : LedgerCodec poolCodec

namespace LedgerCodec

theorem ledger_readsAlike {kind : IdentifierKind} {α : Type} {c : Codec α} (h : c.ReadsAlike) :
    (Codec.list (.pair (Identifier.codec : Codec (Identifier kind)) c)).ReadsAlike :=
  list_readsAlike (pair_readsAlike Identifier.codec_readsAlike h)

variable {α : Type} {c : Codec α}

theorem readsAlike (h : LedgerCodec c) : c.ReadsAlike := by
  cases h with
  | destination => exact Destination.codec_readsAlike
  | payment => exact Payment.codec_readsAlike
  | poolPayment => exact PoolPayment.codec_readsAlike
  | confirmedTransfer => exact ConfirmedTransfer.codec_readsAlike
  | pendingTransfer => exact PendingTransfer.codec_readsAlike
  | subaddressIndex => exact SubaddressIndex.codec_readsAlike
  | incoming => exact ledger_readsAlike Payment.codec_readsAlike
  | outgoing => exact ledger_readsAlike ConfirmedTransfer.codec_readsAlike
  | pending => exact ledger_readsAlike PendingTransfer.codec_readsAlike
  | pool => exact ledger_readsAlike PoolPayment.codec_readsAlike

/--
A value that some text tells is read from the result of a call as it is read from its compact
text: to the same entries, or to none.
-/
theorem decoders_agree (hc : LedgerCodec c) {text : String} {v : Json}
    (h : Json.parse text = .ok v) (method : String) :
    Results.Agree (· = ·) (Rpc.decodeResult c method v) (c.decode v.render) := by
  have hlegible := Json.legible_of_parse h
  have hagree := hc.readsAlike.text hlegible (Nat.sub_one_lt (by decide))
    (show Json.EndsValue [] from trivial)
  rw [decode_render]
  exact hagree.symm.mapError _

/--
A transfer as nobody writes it: with a stranger among its members, an index twice and the
longer form of a name.
-/
def roundaboutTransfer : Json :=
  .object [("note", .array [.null]), ("timestamp", .unsigned 4), ("amount_out", .unsigned 2),
    ("amount_in", .unsigned 3), ("change", .unsigned unknownChange), ("block_height", .unsigned 9),
    ("subaddr_indices", .array [.unsigned 1, .unsigned 0, .unsigned 1]),
    ("subaddr_account", .unsigned 0), ("pay_type", .object [("stake", .null)])]

theorem plain_roundaboutTransfer : Json.Plain 2 roundaboutTransfer := by
  refine .object ?_
  simp only [List.forall_mem_cons]
  refine ⟨.array ?_, .unsigned _ _, .unsigned _ _, .unsigned _ _, .unsigned _ _, .unsigned _ _,
    .array ?_, .unsigned _ _, .object ?_, nofun⟩
  · exact List.forall_mem_singleton.mpr (.null 0)
  · simp only [List.forall_mem_cons]
    exact ⟨.unsigned _ _, .unsigned _ _, .unsigned _ _, nofun⟩
  · exact List.forall_mem_singleton.mpr (.null 0)

theorem decoders_agree_roundabout :
    Json.parse roundaboutTransfer.render = .ok roundaboutTransfer.sorted ∧
      Results.Agree (· = ·)
        (Rpc.decodeResult ConfirmedTransfer.codec "get_payments_out" roundaboutTransfer.sorted)
        (ConfirmedTransfer.codec.decode roundaboutTransfer.sorted.render) ∧
      Rpc.decodeResult ConfirmedTransfer.codec "get_payments_out" roundaboutTransfer.sorted =
        .ok { amountIn := 3, amountOut := 2, change := none, timestamp := 4, account := 0,
              indices := .ofList [0, 1], payType := .stake, paymentId := .zero,
              blockHeight := 9, destinations := [] } := by
  have hparse := Json.parse_render plain_roundaboutTransfer (by decide)
  refine ⟨hparse, decoders_agree .confirmedTransfer hparse "get_payments_out", ?_⟩
  cbv

end LedgerCodec
end WalletLedger
