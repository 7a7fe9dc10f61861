import WalletLedger.Wallet.Entry

/-!
# The address cache

Addresses that an engine has rendered, of which the most recently used are kept.  An
address depends on its key alone, so it is never out of date.
-/

namespace WalletLedger
namespace Rpc

structure RenderKey where
  destination : Destination
  network : Network
  paymentId : PaymentId
  deriving DecidableEq

/-- Rendered addresses, the most recently used first. -/
structure AddressCache where
  entries : List (RenderKey × String)

namespace AddressCache

def capacity : Nat := 10000

def empty : AddressCache := ⟨[]⟩

def find? (c : AddressCache) (key : RenderKey) : Option String :=
  c.entries.lookup key

def without (c : AddressCache) (key : RenderKey) : List (RenderKey × String) :=
  c.entries.filter fun e => e.1 != key

/-- Looks an address up, which is a use of it. -/
def get (c : AddressCache) (key : RenderKey) : Option String × AddressCache :=
  match c.find? key with
  | some address => (some address, ⟨(key, address) :: c.without key⟩)
  | none => (none, c)

/-- Puts an address in; if there is no room for it, the least recently used one goes. -/
def put (c : AddressCache) (key : RenderKey) (address : String) : AddressCache :=
  ⟨((key, address) :: c.without key).take capacity⟩

def getAll (c : AddressCache) : List RenderKey → List (Option String) × AddressCache
  | [] => ([], c)
  | key :: rest =>
      let (found, c) := c.get key
      let (others, c) := c.getAll rest
      (found :: others, c)

end AddressCache
end Rpc
end WalletLedger
