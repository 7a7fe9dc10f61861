import WalletLedger.Engine.Basic
import WalletLedger.Wallet.EntryCodec

/-!
# Snapshots

A snapshot is a document with everything a refresh reads from a wallet.  As an engine it
answers from the document alone and reports nothing but addresses that it cannot give.
-/

namespace WalletLedger

open Json (Codec Field Fields)

/-!
# Labels

A snapshot lists labels in any order and may list several for one subaddress.  An engine
enters them into a table, where the later one stands.
-/

structure LabelEntry where
  index : SubaddressIndex
  label : String
  deriving DecidableEq

def LabelEntry.codec : Codec LabelEntry :=
  .record "LabelEntry"
    (.cons (.required "index" SubaddressIndex.codec) (.cons (.required "label" .string) .nil))
    (fun (index, label, _) => ⟨index, label⟩)
    (fun e => (e.index, e.label, ()))

/-- Labels by subaddress, at most one for each. -/
structure LabelTable where
  entries : List (SubaddressIndex × String)
  nodup : (entries.map Prod.fst).Nodup

namespace LabelTable

def empty : LabelTable := ⟨[], List.nodup_nil⟩

def get? (t : LabelTable) (index : SubaddressIndex) : Option String :=
  t.entries.lookup index

def label (t : LabelTable) (index : SubaddressIndex) : String :=
  (t.get? index).getD ""

/-- Enters a label, in the place of one that is there. -/
def insert (t : LabelTable) (e : LabelEntry) : LabelTable where
  entries := (e.index, e.label) :: t.entries.filter fun old => old.1 != e.index
  nodup := by
    have hrest : ((t.entries.filter fun old => old.1 != e.index).map Prod.fst).Nodup :=
      (List.filter_sublist.map Prod.fst).nodup t.nodup
    refine List.nodup_cons.mpr ⟨?_, hrest⟩
    intro hmem
    rcases List.mem_map.mp hmem with ⟨old, hold, hindex⟩
    exact bne_iff_ne.mp (List.mem_filter.mp hold).2 hindex

/-- Enters labels in turn, with a notice for each that takes the place of another. -/
def insertAll (t : LabelTable) : List LabelEntry → LabelTable × List Notice
  | [] => (t, [])
  | e :: rest =>
      let (table, notices) := (t.insert e).insertAll rest
      (table, (if (t.get? e.index).isSome then [.labelReplaced e.index] else []) ++ notices)

end LabelTable

/-!
# The document
-/

structure Snapshot where
  height : UInt64
  network : Network
  incoming : IncomingLedger
  outgoing : OutgoingLedger
  pendingOutgoing : PendingLedger
  pool : PoolLedger
  labels : List LabelEntry
  deriving DecidableEq

namespace Snapshot

def fields : Fields [UInt64, Network, IncomingLedger, OutgoingLedger, PendingLedger, PoolLedger,
    List LabelEntry] :=
  .cons (.required "height" .uint64) <|
  .cons (.required "network" Network.codec) <|
  .cons (.orElse "incoming" incomingCodec []) <|
  .cons (.orElse "outgoing" outgoingCodec []) <|
  .cons (.orElse "unconfirmed_outgoing" pendingCodec []) <|
  .cons (.orElse "pool" poolCodec []) <|
  .cons (.orElse "labels" (.list LabelEntry.codec) []) .nil

def codec : Codec Snapshot :=
  .record "WalletSnapshot" fields
    (fun (height, network, incoming, outgoing, pendingOutgoing, pool, labels, _) =>
      { height, network, incoming, outgoing, pendingOutgoing, pool, labels })
    (fun s => (s.height, s.network, s.incoming, s.outgoing, s.pendingOutgoing, s.pool,
      s.labels, ()))

def ofText (text : String) : Except CoreError Snapshot :=
  (codec.decode text).mapError fun why => .snapshot why.message

def labelTable (s : Snapshot) : LabelTable :=
  (LabelTable.empty.insertAll s.labels).1

def label (s : Snapshot) (index : SubaddressIndex) : String :=
  s.labelTable.label index

def openingNotices (s : Snapshot) : List Notice :=
  (LabelTable.empty.insertAll s.labels).2

/-!
# The engine
-/

/-- The address that the sender entered, empty and reported when it was not kept. -/
def addressOf {σ : Type} (d : Destination) : Act σ String :=
  match d.original with
  | some address => pure address
  | none => do
      Act.report [.addressBlank d.spendKey d.amount]
      return ""

def engine (s : Snapshot) {σ : Type} : Engine σ :=
  let table := s.labelTable
  { overlapping := false
    height := pure s.height
    network := pure s.network
    incoming := fun window =>
      pure (s.incoming.filter fun (_, p) => window.contains p.blockHeight)
    outgoing := fun window =>
      pure (s.outgoing.filter fun (_, t) => window.contains t.blockHeight)
    pending := pure s.pendingOutgoing
    pool := pure s.pool
    label := fun index => pure (table.label index)
    labels := labelsInTurn fun index => pure (table.label index)
    address := fun d _ _ => addressOf d
    addresses := addressesInTurn fun d _ _ => addressOf d }

def ofFile (path : String) (content : Except String String) :
    Except CoreError Snapshot × List Notice :=
  match content with
  | .error reason => (.error (.io reason), [])
  | .ok text =>
      match ofText text with
      | .error e => (.error e, [])
      | .ok s => (.ok s, s.openingNotices ++ [.snapshotLoaded path s.height s.network])

end Snapshot
end WalletLedger
