import WalletLedger.Api.Call
import WalletLedger.Api.Refusal
import WalletLedger.Api.Resource
import WalletLedger.Api.Server
import WalletLedger.Command.Arguments
import WalletLedger.Command.Line
import WalletLedger.Command.Setting
import WalletLedger.Command.Usage
import WalletLedger.Engine.Act
import WalletLedger.Engine.Basic
import WalletLedger.Engine.Canned
import WalletLedger.Engine.Snapshot
import WalletLedger.Error
import WalletLedger.History
import WalletLedger.Http.Message
import WalletLedger.Http.Status
import WalletLedger.Http.Wire
import WalletLedger.Json.Codec
import WalletLedger.Json.Fault
import WalletLedger.Json.Fields
import WalletLedger.Json.Mismatch
import WalletLedger.Json.Outline
import WalletLedger.Json.Render
import WalletLedger.Json.Scan
import WalletLedger.Json.Value
import WalletLedger.Main
import WalletLedger.Notice
import WalletLedger.Number.Binary64
import WalletLedger.Number.Shortest
import WalletLedger.Record.Amounts
import WalletLedger.Record.Basic
import WalletLedger.Record.Ledgers
import WalletLedger.Rpc.AddressCache
import WalletLedger.Rpc.Client
import WalletLedger.Rpc.Connection
import WalletLedger.Rpc.Credentials
import WalletLedger.Rpc.Exchange
import WalletLedger.Rpc.Message
import WalletLedger.Startup
import WalletLedger.Text.Blank
import WalletLedger.Text.Digits
import WalletLedger.Text.Printable
import WalletLedger.Text.Quoted
import WalletLedger.Time.Instant
import WalletLedger.Url.Basic
import WalletLedger.Url.Domain
import WalletLedger.Url.Host
import WalletLedger.Url.Percent
import WalletLedger.Url.Punycode
import WalletLedger.Wallet.Entry
import WalletLedger.Wallet.EntryCodec
import WalletLedger.Wallet.Identifier
import WalletLedger.Wallet.IndexSet
import WalletLedger.Wallet.PaymentIdText
import WalletLedger.Proofs.Act
import WalletLedger.Proofs.Reconcile.Stages
import WalletLedger.Proofs.History.Run
import WalletLedger.Proofs.Reconcile.Direct
import WalletLedger.Proofs.Rpc.AddressCache
import WalletLedger.Proofs.Rpc.Batch
import WalletLedger.Proofs.Rpc.Addresses
import WalletLedger.Proofs.Rpc.Labels
import WalletLedger.Proofs.Rpc.Faults
import WalletLedger.Proofs.Number.Rounding
import WalletLedger.Proofs.Number.Shortest
import WalletLedger.Proofs.Json.Leaves
import WalletLedger.Proofs.Json.Numerals
import WalletLedger.Proofs.Json.Fractions
import WalletLedger.Proofs.Json.Rendered
import WalletLedger.Proofs.Json.Reread
import WalletLedger.Proofs.Json.Sorting
import WalletLedger.Proofs.Json.Fields
import WalletLedger.Proofs.Json.RoundTrip
import WalletLedger.Proofs.Wallet.Identifier
import WalletLedger.Proofs.Wallet.EntryCodec
import WalletLedger.Proofs.Json.Provenance
import WalletLedger.Proofs.Json.Readers
import WalletLedger.Proofs.Wallet.EntryReaders
import WalletLedger.Proofs.Engine.Snapshot
import WalletLedger.Proofs.Rpc.Message
import WalletLedger.Proofs.Rpc.Host
import WalletLedger.Proofs.Rpc.Agreement
import WalletLedger.Proofs.Rpc.Alignment
import WalletLedger.Proofs.Rpc.Runs
import WalletLedger.Proofs.Rpc.Net
import WalletLedger.Proofs.Rpc.Interleaving
import WalletLedger.Proofs.Wallet.PaymentIdText
import WalletLedger.Proofs.Record.Shape
import WalletLedger.Proofs.History.Shape
import WalletLedger.Proofs.Engine.Faults
import WalletLedger.Proofs.Text.Numeral
import WalletLedger.Proofs.Url.Percent
import WalletLedger.Proofs.Api.Program
import WalletLedger.Proofs.Api.Resource
import WalletLedger.Proofs.Api.Server
import WalletLedger.Proofs.Api.Token
import WalletLedger.Proofs.Api.Visits
import WalletLedger.Proofs.Api.Lookups
import WalletLedger.Proofs.Reconcile.Entrywise
import WalletLedger.Proofs.Record.Accounting
import WalletLedger.Proofs.Reconcile.Needs
import WalletLedger.Proofs.Rpc.Outcome
import WalletLedger.Proofs.Rpc.Repeats
import WalletLedger.Proofs.Api.Interleaved
import WalletLedger.Proofs.Text.Bytes
import WalletLedger.Proofs.Text.Blank
import WalletLedger.Proofs.Wallet.IdentifierText
import WalletLedger.Proofs.Wallet.Normalization
import WalletLedger.Proofs.Rpc.Credentials
import WalletLedger.Proofs.Api.Unnamed
