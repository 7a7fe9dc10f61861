import WalletLedger.Rpc.Client
import WalletLedger.Url.Basic

/-!
# Connections

What has to be settled before an engine is called: the size of batches, the credentials,
the address of the engine and the rate of exchanges.  They are checked in this order.
-/

namespace WalletLedger
namespace Rpc

/-!
# Endpoints
-/

/-- Where an engine is, as it was given and as a URL. -/
structure Endpoint where
  given : String
  url : Url.WebUrl

namespace Endpoint

def ofText (text : String) : Except EndpointError Endpoint :=
  match Url.parse text with
  | .error fault => .error (.notUrl text fault)
  | .ok (.other scheme) => .error (.wrongScheme scheme)
  | .ok (.web url) =>
      if url.scheme = "http" ∨ url.scheme = "https" then .ok ⟨text, url⟩
      else .error (.wrongScheme url.scheme)

def unreachable {π : Type} (e : Endpoint) : Peer π := fun _ p =>
  (.failed s!"error sending request for url ({e.url.text})", p)

end Endpoint

/-!
# Settings
-/

structure Settings where
  url : String
  user : Option String
  pass : Option String
  cookie : Option CookieFile
  requestsPerSecond : Option UInt32
  chunkSize : Nat

/-- Settings that have passed every check. -/
structure Connection where
  endpoint : Endpoint
  credentials : Option Credentials
  requestsPerSecond : Option UInt32
  chunkSize : Nat
  chunkSize_pos : 0 < chunkSize

namespace Connection

def ofSettings (s : Settings) : Except CoreError Connection :=
  if h : s.chunkSize = 0 then .error (.invalidData .zeroChunk)
  else do
    let credentials ← (Credentials.resolve s.user s.pass s.cookie).mapError fun e =>
      .invalidData (.credentials e)
    let endpoint ← (Endpoint.ofText s.url).mapError fun e => .invalidData (.endpoint e)
    if s.requestsPerSecond = some 0 then .error (.invalidData .zeroRate)
    else
      .ok ⟨endpoint, credentials, s.requestsPerSecond, s.chunkSize, Nat.pos_of_ne_zero h⟩

def access {π : Type} (c : Connection) (peer : Peer π) : Access π :=
  ⟨peer, c.credentials, c.chunkSize, c.chunkSize_pos⟩

end Connection
end Rpc
end WalletLedger
