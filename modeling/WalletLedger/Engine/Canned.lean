import WalletLedger.Engine.Basic

/-!
# Canned engines

An engine for rehearsals.  It serves ledgers that are put into it, which can change between
calls, and can be told to fail.
-/

namespace WalletLedger

structure Canned where
  height : UInt64 := 1000
  network : Network := .testnet
  incoming : IncomingLedger := []
  outgoing : OutgoingLedger := []
  pending : PendingLedger := []
  pool : PoolLedger := []
  /-- The latest label of a subaddress comes first. -/
  labels : List (SubaddressIndex × String) := []
  failing : Bool := false
  ledgerFetches : Nat := 0

namespace Canned

def withLabel (c : Canned) (index : SubaddressIndex) (label : String) : Canned :=
  { c with labels := (index, label) :: c.labels }

def pushPool (c : Canned) (paymentId : PaymentId) (p : Payment) : Canned :=
  { c with pool := c.pool ++ [(paymentId, ⟨p, false⟩)] }

def renderAddress (d : Destination) (network : Network) (paymentId : PaymentId) : String :=
  match d.original with
  | some address => address
  | none => s!"{network.name}:{d.spendKey.toHex}:{paymentId.toHex}"

def answer {α : Type} (x : Act Canned α) : Act Canned α := fun c =>
  if c.failing then
    Act.fail (.engine (.unavailable (.text "mock engine set to fail"))) c
  else
    x c

def addressOf (d : Destination) (network : Network) (paymentId : PaymentId) :
    Act Canned String :=
  answer (pure (renderAddress d network paymentId))

def labelOf (index : SubaddressIndex) : Act Canned String :=
  answer (Act.look fun c => (c.labels.lookup index).getD "")

def engine : Engine Canned where
  overlapping := false
  height := answer (Act.look height)
  network := answer (Act.look network)
  incoming window := answer do
    Act.change fun c => { c with ledgerFetches := c.ledgerFetches + 1 }
    Act.look fun c => c.incoming.filter fun (_, p) => window.contains p.blockHeight
  outgoing window := answer <|
    Act.look fun c => c.outgoing.filter fun (_, t) => window.contains t.blockHeight
  pending := answer (Act.look pending)
  pool := answer (Act.look pool)
  label := labelOf
  labels := labelsInTurn labelOf
  address := addressOf
  addresses := addressesInTurn addressOf

end Canned
end WalletLedger
