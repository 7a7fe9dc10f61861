import WalletLedger.Json.Fields
import WalletLedger.Wallet.Entry

/-!
# The JSON form of ledger entries

The members of each entry in the order in which they are written.  An unknown change
travels as the greatest word.
-/

namespace WalletLedger

open Json (Codec Field Fields)

def unknownChange : UInt64 := 0xffffffffffffffff

def changeCodec : Codec (Option UInt64) :=
  Codec.uint64.iso (fun n => if n = unknownChange then none else some n)
    fun change => change.getD unknownChange

namespace SubaddressIndex

def fields : Fields [UInt32, UInt32] :=
  .cons (.required "major" .uint32) (.cons (.required "minor" .uint32) .nil)

def codec : Codec SubaddressIndex :=
  .record "SubaddressIndex" fields
    (fun (major, minor, _) => ⟨major, minor⟩)
    (fun i => (i.major, i.minor, ()))

end SubaddressIndex

namespace Destination

def fields : Fields [UInt64, PublicKey, PublicKey, Bool, Bool, Option String] :=
  .cons (.required "amount" .uint64) <|
  .cons (.required "spend_public_key" Identifier.codec) <|
  .cons (.required "view_public_key" Identifier.codec) <|
  .cons (.orElse "is_subaddress" .bool false) <|
  .cons (.orElse "is_integrated" .bool false) <|
  .cons { Field.orElse "original" (Codec.optional .string) none with
    omitted := fun original => original.isNone } .nil

def codec : Codec Destination :=
  .record "Destination" fields
    (fun (amount, spendKey, viewKey, isSubaddress, isIntegrated, original, _) =>
      ⟨amount, spendKey, viewKey, isSubaddress, isIntegrated, original⟩)
    (fun d => (d.amount, d.spendKey, d.viewKey, d.isSubaddress, d.isIntegrated, d.original, ()))

end Destination

namespace Payment

def fields : Fields [TxHash, UInt64, SubaddressIndex, UInt64, UInt64, UInt64, PayType] :=
  .cons (.required "tx_hash" Identifier.codec) <|
  .cons (.required "amount" .uint64) <|
  .cons (.required "subaddr_index" SubaddressIndex.codec) <|
  .cons (.orElse "block_height" .uint64 0) <|
  .cons (.required "timestamp" .uint64) <|
  .cons (.orElse "unlock_time" .uint64 0) <|
  .cons (.orElse "pay_type" PayType.codec .unspecified) .nil

def ofRow :
    Json.Row [TxHash, UInt64, SubaddressIndex, UInt64, UInt64, UInt64, PayType] → Payment :=
  fun (txHash, amount, subaddress, blockHeight, timestamp, unlockTime, payType, _) =>
    ⟨txHash, amount, subaddress, blockHeight, timestamp, unlockTime, payType⟩

def toRow (p : Payment) :
    Json.Row [TxHash, UInt64, SubaddressIndex, UInt64, UInt64, UInt64, PayType] :=
  (p.txHash, p.amount, p.subaddress, p.blockHeight, p.timestamp, p.unlockTime, p.payType, ())

def codec : Codec Payment :=
  .record "PaymentDetails" fields ofRow toRow

end Payment

namespace PoolPayment

/-- The members of the payment stand beside the flag. -/
def codec : Codec PoolPayment :=
  .flattened "PoolPaymentDetails" Payment.fields
    (.cons (.orElse "double_spend_seen" .bool false) .nil)
    (fun payment (doubleSpendSeen, _) => ⟨.ofRow payment, doubleSpendSeen⟩)
    (fun p => (p.payment.toRow, (p.doubleSpendSeen, ())))

end PoolPayment

namespace ConfirmedTransfer

def fields : Fields [UInt64, UInt64, Option UInt64, UInt64, UInt64, UInt32, IndexSet, PayType,
    PaymentId, List Destination] :=
  .cons (.required "amount_in" .uint64) <|
  .cons (.required "amount_out" .uint64) <|
  .cons (.required "change" changeCodec) <|
  .cons (.required "block_height" .uint64) <|
  .cons (.required "timestamp" .uint64) <|
  .cons (.required "subaddr_account" .uint32) <|
  .cons (.required "subaddr_indices" IndexSet.codec) <|
  .cons (.orElse "pay_type" PayType.codec .unspecified) <|
  .cons (.orElse "payment_id" Identifier.codec .zero) <|
  .cons (.orElse "dests" (.list Destination.codec) []) .nil

def codec : Codec ConfirmedTransfer :=
  .record "ConfirmedTransferDetails" fields
    (fun (amountIn, amountOut, change, blockHeight, timestamp, account, indices, payType,
        paymentId, destinations, _) =>
      { amountIn, amountOut, change, timestamp, account, indices, payType, paymentId,
        blockHeight, destinations })
    (fun t => (t.amountIn, t.amountOut, t.change, t.blockHeight, t.timestamp, t.account,
      t.indices, t.payType, t.paymentId, t.destinations, ()))

end ConfirmedTransfer

namespace PendingTransfer

def fields : Fields [UInt64, UInt64, Option UInt64, UInt64, UInt32, IndexSet, PayType,
    PaymentId, TransferState] :=
  .cons (.required "amount_in" .uint64) <|
  .cons (.required "amount_out" .uint64) <|
  .cons (.required "change" changeCodec) <|
  .cons (.required "timestamp" .uint64) <|
  .cons (.required "subaddr_account" .uint32) <|
  .cons (.required "subaddr_indices" IndexSet.codec) <|
  .cons (.orElse "pay_type" PayType.codec .unspecified) <|
  .cons (.orElse "payment_id" Identifier.codec .zero) <|
  .cons (.orElse "state" TransferState.codec .pending) .nil

def codec : Codec PendingTransfer :=
  .record "UnconfirmedTransferDetails" fields
    (fun (amountIn, amountOut, change, timestamp, account, indices, payType, paymentId,
        state, _) =>
      { amountIn, amountOut, change, timestamp, account, indices, payType, paymentId, state })
    (fun t => (t.amountIn, t.amountOut, t.change, t.timestamp, t.account, t.indices,
      t.payType, t.paymentId, t.state, ()))

end PendingTransfer

/-!
# Ledgers and the window
-/

def incomingCodec : Codec IncomingLedger := .list (.pair Identifier.codec Payment.codec)

def outgoingCodec : Codec OutgoingLedger := .list (.pair Identifier.codec ConfirmedTransfer.codec)

def pendingCodec : Codec PendingLedger := .list (.pair Identifier.codec PendingTransfer.codec)

def poolCodec : Codec PoolLedger := .list (.pair Identifier.codec PoolPayment.codec)

def HeightWindow.codec : Codec HeightWindow :=
  .record "HistoryConfig"
    (.cons (.required "min_height" .uint64) (.cons (.required "max_height" .uint64) .nil))
    (fun (minHeight, maxHeight, _) => ⟨minHeight, maxHeight⟩)
    (fun w => (w.minHeight, w.maxHeight, ()))

end WalletLedger
