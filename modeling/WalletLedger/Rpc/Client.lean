import WalletLedger.Engine.Basic
import WalletLedger.Rpc.AddressCache
import WalletLedger.Rpc.Exchange
import WalletLedger.Wallet.EntryCodec

/-!
# The remote engine

An engine that is reached by remote calls.  Single calls and the pieces of a batch take
their ids from one counter.  Labels and addresses are looked up in batches; labels fall back
to single calls when a batch fails, and addresses come from a cache where it has them.
-/

namespace WalletLedger
namespace Rpc

open Json (Codec)

structure Client (π : Type) where
  peer : π
  nextId : UInt64
  cache : AddressCache

structure Access (π : Type) where
  peer : Peer π
  credentials : Option Credentials
  /-- How many calls a batch may have. -/
  chunkSize : Nat
  chunkSize_pos : 0 < chunkSize

/-!
# Results of the methods
-/

namespace Result

def height : Codec UInt64 :=
  .record "HeightResult" (.cons (.required "height" .uint64) .nil)
    (fun (height, _) => height) (fun height => (height, ()))

def network : Codec Network :=
  .record "NetworkResult" (.cons (.required "nettype" Network.codec) .nil)
    (fun (network, _) => network) (fun network => (network, ()))

def payments {α : Type} (ledger : Codec (List α)) : Codec (List α) :=
  .record "PaymentsResult" (.cons (.orElse "payments" ledger []) .nil)
    (fun (payments, _) => payments) (fun payments => (payments, ()))

def transfers {α : Type} (ledger : Codec (List α)) : Codec (List α) :=
  .record "TransfersResult" (.cons (.orElse "transfers" ledger []) .nil)
    (fun (transfers, _) => transfers) (fun transfers => (transfers, ()))

def label : Codec String :=
  .record "LabelResult" (.cons (.orElse "label" .string "") .nil)
    (fun (label, _) => label) (fun label => (label, ()))

def address : Codec String :=
  .record "AddressResult" (.cons (.required "address" .string) .nil)
    (fun (address, _) => address) (fun address => (address, ()))

end Result

/-!
# Calls
-/

namespace Call

def height : Call := ⟨"get_height", []⟩

def network : Call := ⟨"get_network_type", []⟩

def windowParams (w : HeightWindow) : List Json :=
  [.unsigned w.minHeight, .unsigned w.maxHeight]

def incoming (w : HeightWindow) : Call := ⟨"get_payments", windowParams w⟩

def outgoing (w : HeightWindow) : Call := ⟨"get_payments_out", windowParams w⟩

def pending : Call := ⟨"get_unconfirmed_payments_out", []⟩

def pool : Call := ⟨"get_unconfirmed_payments", []⟩

def label (index : SubaddressIndex) : Call :=
  ⟨"get_subaddress_label", [.unsigned index.major.toUInt64, .unsigned index.minor.toUInt64]⟩

def address (key : RenderKey) : Call :=
  ⟨"get_destination_address",
    [Destination.codec.encodeValue key.destination, Network.codec.encodeValue key.network,
      Identifier.codec.encodeValue key.paymentId]⟩

end Call

/-!
# Ids and the cache of a client
-/

namespace Client

variable {π : Type}

def start (peer : π) (firstId : UInt64) : Client π :=
  ⟨peer, firstId, .empty⟩

/-- Takes ids from the counter, which wraps around. -/
def reserve (count : Nat) : Act (Client π) UInt64 := do
  let start ← Act.look nextId
  Act.change fun c => { c with nextId := start + UInt64.ofNat count }
  return start

def withCache {α : Type} (f : AddressCache → α × AddressCache) : Act (Client π) α := fun c =>
  let (x, cache) := f c.cache
  ⟨.ok x, [], { c with cache }⟩

def keep (key : RenderKey) (address : String) : Act (Client π) Unit :=
  withCache fun cache => ((), cache.put key address)

def keepAll : List (RenderKey × Json) → Act (Client π) (List String)
  | [] => return []
  | (key, raw) :: rest => do
      let address ← Act.ofExcept (decodeResult Result.address "get_destination_address" raw)
      keep key address
      let others ← keepAll rest
      return address :: others

end Client

/-- Puts values into the blanks of a list in their order; a blank without a value goes. -/
def fillBlanks {α : Type} : List (Option α) → List α → List α
  | [], _ => []
  | some x :: rest, fresh => x :: fillBlanks rest fresh
  | none :: rest, x :: fresh => x :: fillBlanks rest fresh
  | none :: rest, [] => fillBlanks rest []

def misses (keys : List RenderKey) (found : List (Option String)) : List RenderKey :=
  (keys.zip found).filterMap fun (key, address) =>
    if address.isNone then some key else none

/-!
# Exchanges
-/

namespace Access

variable {π : Type} (a : Access π)

def exchange (body : String) : Act (Client π) Delivery := fun c =>
  let (delivery, peer) := a.peer ⟨a.credentials, body⟩ c.peer
  ⟨.ok delivery, [], { c with peer }⟩

def single (call : Call) : Act (Client π) Json := do
  let id ← Client.reserve 1
  let delivery ← a.exchange (Request.body ⟨id, call⟩)
  Act.ofExcept (readSingle delivery)

def batch (calls : List Call) : Act (Client π) (List Json) := do
  let start ← Client.reserve calls.length
  let delivery ← a.exchange (batchBody (requestsFrom start calls))
  Act.ofExcept (readBatch start calls.length delivery)

/-- Makes several calls in batches of the greatest size allowed, all sent together. -/
def batches (calls : List Call) : Act (Client π) (List Json) := do
  let parts ← Act.allTogether true a.batch (chunksOf a.chunkSize calls)
  return parts.flatten

def ask {α : Type} (c : Codec α) (call : Call) : Act (Client π) α := do
  let raw ← a.single call
  Act.ofExcept (decodeResult c call.method raw)

/-!
# Labels
-/

def label (index : SubaddressIndex) : Act (Client π) String :=
  a.ask Result.label (.label index)

def labels (indices : List SubaddressIndex) : Act (Client π) (List String) := fun c =>
  let calls := indices.map Call.label
  let made := a.batches calls c
  match made.answer with
  | .ok raws =>
      ⟨raws.mapM (decodeResult Result.label "get_subaddress_label"), made.notices, made.state⟩
  | .error e =>
      let oneByOne := labelsInTurn a.label indices made.state
      ⟨oneByOne.answer,
        made.notices ++ .labelsOneByOne indices.length e :: oneByOne.notices,
        oneByOne.state⟩

/-!
# Addresses
-/

def address (key : RenderKey) : Act (Client π) String := do
  match ← Client.withCache fun cache => cache.get key with
  | some address => return address
  | none => do
      let address ← a.ask Result.address (.address key)
      Client.keep key address
      return address

def addresses (keys : List RenderKey) : Act (Client π) (List String) := do
  let found ← Client.withCache fun cache => cache.getAll keys
  let missing := misses keys found
  if missing.isEmpty then
    return fillBlanks found []
  else
    let raws ← a.batches (missing.map Call.address)
    let fresh ← Client.keepAll (missing.zip raws)
    return fillBlanks found fresh

/-!
# The engine
-/

def engine : Engine (Client π) where
  overlapping := true
  height := a.ask Result.height .height
  network := a.ask Result.network .network
  incoming w := a.ask (Result.payments incomingCodec) (.incoming w)
  outgoing w := a.ask (Result.transfers outgoingCodec) (.outgoing w)
  pending := a.ask (Result.transfers pendingCodec) .pending
  pool := a.ask (Result.payments poolCodec) .pool
  label := a.label
  labels := a.labels
  address d n p := a.address ⟨d, n, p⟩
  addresses requests n := a.addresses (requests.map fun (d, p) => ⟨d, n, p⟩)

end Access
end Rpc
end WalletLedger
