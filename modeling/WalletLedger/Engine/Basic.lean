import WalletLedger.Engine.Act

/-!
# Engines

An engine keeps the ledgers of a wallet and answers what a refresh asks for.  It may answer
differently from call to call, so every answer comes with a new state.
-/

namespace WalletLedger

structure Engine (σ : Type) where
  /-- Whether requests that are made together are all under way before a reply is seen. -/
  overlapping : Bool
  height : Act σ UInt64
  network : Act σ Network
  incoming : HeightWindow → Act σ IncomingLedger
  outgoing : HeightWindow → Act σ OutgoingLedger
  pending : Act σ PendingLedger
  pool : Act σ PoolLedger
  /-- The label of a subaddress, empty when it has none. -/
  label : SubaddressIndex → Act σ String
  labels : List SubaddressIndex → Act σ (List String)
  /-- A destination as an address of a network, with a payment id for integrated ones. -/
  address : Destination → Network → PaymentId → Act σ String
  addresses : List (Destination × PaymentId) → Network → Act σ (List String)

def labelsInTurn {σ : Type} (label : SubaddressIndex → Act σ String)
    (indices : List SubaddressIndex) : Act σ (List String) :=
  Act.inTurn label indices

def addressesInTurn {σ : Type} (address : Destination → Network → PaymentId → Act σ String)
    (requests : List (Destination × PaymentId)) (network : Network) : Act σ (List String) :=
  Act.inTurn (fun (destination, paymentId) => address destination network paymentId) requests

namespace Engine

variable {σ : Type}

def lookingUpInTurn (e : Engine σ) : Engine σ :=
  { e with
    labels := labelsInTurn e.label
    addresses := addressesInTurn e.address }

def within {τ : Type} (e : Engine σ) (get : τ → σ) (set : σ → τ → τ) : Engine τ where
  overlapping := e.overlapping
  height := e.height.within get set
  network := e.network.within get set
  incoming window := (e.incoming window).within get set
  outgoing window := (e.outgoing window).within get set
  pending := e.pending.within get set
  pool := e.pool.within get set
  label index := (e.label index).within get set
  labels indices := (e.labels indices).within get set
  address destination network paymentId :=
    (e.address destination network paymentId).within get set
  addresses requests network := (e.addresses requests network).within get set

end Engine
end WalletLedger
