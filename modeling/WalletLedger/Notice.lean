import WalletLedger.Error
import WalletLedger.Record.Basic

/-!
# Notices

What the program reports in its log while it works.  A notice is a cause with its details;
its words and fields are made when it is shown.
-/

namespace WalletLedger

inductive Severity where
  | info
  | warn
  | error
  deriving DecidableEq, Repr

def Severity.name : Severity → String
  | .info => "INFO"
  | .warn => "WARN"
  | .error => "ERROR"

inductive Notice where
  /-- More was paid out than went in, so no fee can be told. -/
  | feeClamped (hash : TxHash) (amountIn amountOut : UInt64)
  /-- Change and fee are more than went in, so no amount can be told. -/
  | amountClamped (hash : TxHash) (amountIn change fee : UInt64)
  | doubleSpend (hash : TxHash)
  | unconfirmedPayment (hash : TxHash) (amount : UInt64)
  | refreshFailed (error : CoreError) (retained : Nat)
  | refreshed (stats : RefreshStats)
  | labelReplaced (index : SubaddressIndex)
  | snapshotLoaded (path : String) (height : UInt64) (network : Network)
  | addressBlank (spendKey : PublicKey) (amount : UInt64)
  /-- A batch of labels failed and they are asked for one by one. -/
  | labelsOneByOne (count : Nat) (error : CoreError)
  | originRefused (origin : String)
  | connected (network : Network) (height : UInt64)
  | refreshDisabled
  | openToNetwork
  | listening (address : String)

namespace Notice

def severity : Notice → Severity
  | .feeClamped .. | .amountClamped .. | .doubleSpend .. | .refreshFailed .. |
    .labelReplaced .. | .addressBlank .. | .labelsOneByOne .. | .originRefused .. |
    .openToNetwork => .warn
  | _ => .info

def message : Notice → String
  | .feeClamped .. => "amount_out exceeds amount_in; fee clamped to 0"
  | .amountClamped .. => "change and fee exceed amount_in; amount clamped to 0"
  | .doubleSpend .. => "pool payment has a double spend attempt"
  | .unconfirmedPayment .. => "unconfirmed payment found"
  | .refreshFailed .. => "history refresh failed; keeping previous collection"
  | .refreshed .. => "history refreshed"
  | .labelReplaced .. => "duplicate snapshot label overwrites previous value"
  | .snapshotLoaded .. => "loaded wallet snapshot"
  | .addressBlank .. => "snapshot destination has no original address; leaving it blank"
  | .labelsOneByOne .. =>
      "batch get_subaddress_label failed; falling back to sequential requests"
  | .originRefused .. => "origin is not a valid header value; CORS will reject all origins"
  | .connected .. => "connected to wallet engine"
  | .refreshDisabled => "background refresh disabled; use POST /api/v1/history/refresh"
  | .openToNetwork =>
      "server is bound to 0.0.0.0, so wallet history is reachable from the network"
  | .listening address => s!"listening on {address}"

def fields : Notice → List (String × String)
  | .feeClamped hash amountIn amountOut =>
      [("hash", hash.toHex), ("amount_in", toString amountIn),
       ("amount_out", toString amountOut)]
  | .amountClamped hash amountIn change fee =>
      [("hash", hash.toHex), ("amount_in", toString amountIn), ("change", toString change),
       ("fee", toString fee)]
  | .doubleSpend hash => [("hash", hash.toHex)]
  | .unconfirmedPayment hash amount => [("hash", hash.toHex), ("amount", toString amount)]
  | .refreshFailed error retained =>
      [("error", error.message), ("retained", toString retained)]
  | .refreshed stats =>
      [("wallet_height", toString stats.walletHeight), ("incoming", toString stats.incoming),
       ("outgoing", toString stats.outgoing),
       ("pending_outgoing", toString stats.pendingOutgoing), ("pool", toString stats.pool),
       ("duration_ms", toString stats.durationMs)]
  | .labelReplaced index =>
      [("account", toString index.major), ("index", toString index.minor)]
  | .snapshotLoaded path height network =>
      [("path", path), ("height", toString height), ("network", network.name)]
  | .addressBlank spendKey amount =>
      [("spend_public_key", spendKey.toHex), ("amount", toString amount)]
  | .labelsOneByOne count error =>
      [("label_count", toString count), ("error", error.message)]
  | .originRefused origin => [("origin", origin)]
  | .connected network height => [("network", network.name), ("height", toString height)]
  | .refreshDisabled | .openToNetwork | .listening _ => []

end Notice
end WalletLedger
