import WalletLedger.Http.Status
import WalletLedger.Json.Mismatch
import WalletLedger.Text.Digits

/-!
# Errors

Every way in which reading a wallet can fail, as a cause, and the words for each.  Causes
that an engine makes up by itself carry their own text.
-/

namespace WalletLedger

/-!
# Causes
-/

inductive CredentialError where
  /-- A user without a password or the other way round. -/
  | incomplete
  | unreadable (path : String) (reason : String)
  | malformed (path : String)
  deriving DecidableEq, Repr

inductive UrlFault where
  | relativeWithoutBase
  | emptyHost
  | badPort
  | badIpv4
  | badIpv6
  | badDomain
  /-- A character that the host of a scheme outside the web cannot have. -/
  | badDomainCharacter
  deriving DecidableEq, Repr

inductive EndpointError where
  | notUrl (text : String) (fault : UrlFault)
  | wrongScheme (scheme : String)
  deriving DecidableEq, Repr

/-- Data that is refused without any talk to the engine being at fault. -/
inductive InvalidData where
  | credentials (e : CredentialError)
  | endpoint (e : EndpointError)
  | zeroChunk
  | zeroRate
  /-- Replies to the lookups of a refresh that are not as many as the questions. -/
  | lookupCount (labels labelKeys addresses addressKeys : Nat)
  | text (s : String)

inductive InvalidResponse where
  | undecodable (what : String) (why : Json.Mismatch) (status : Http.Status)
  | badResult (method : String) (why : Json.Mismatch)
  | badItemId (id : Json)
  | badItemIdText (why : Text.NumeralError)
  | oddError (error : Json)
  | text (s : String)

inductive Unavailable where
  | bare (status : Http.Status) (what : String)
  | text (s : String)

inductive EngineError where
  | transport (reason : String)
  | server (code : Int) (message : String)
  | invalidResponse (why : InvalidResponse)
  | missingItem (id : UInt64)
  | unavailable (why : Unavailable)

inductive CoreError where
  | engine (e : EngineError)
  | invalidData (why : InvalidData)
  | snapshot (reason : String)
  | io (reason : String)

/-!
# Words
-/

def CredentialError.message : CredentialError → String
  | .incomplete => "both engine user and engine pass must be set together"
  | .unreadable path reason => s!"failed to read engine cookie file {path}: {reason}"
  | .malformed path =>
      s!"engine cookie file {path} must contain non-empty `username:password`"

def UrlFault.message : UrlFault → String
  | .relativeWithoutBase => "relative URL without a base"
  | .emptyHost => "empty host"
  | .badPort => "invalid port number"
  | .badIpv4 => "invalid IPv4 address"
  | .badIpv6 => "invalid IPv6 address"
  | .badDomain => "invalid international domain name"
  | .badDomainCharacter => "invalid domain character"

def EndpointError.message : EndpointError → String
  | .notUrl text fault => s!"invalid engine url `{text}`: expected HTTP(S) URL ({fault.message})"
  | .wrongScheme scheme =>
      s!"unsupported engine url scheme `{scheme}`; expected http or https"

def InvalidData.message : InvalidData → String
  | .credentials e => e.message
  | .endpoint e => e.message
  | .zeroChunk => "engine batch chunk size must be at least 1"
  | .zeroRate => "requests_per_second must be at least 1"
  | .lookupCount labels labelKeys addresses addressKeys =>
      s!"engine returned {labels} labels for {labelKeys} indices and " ++
        s!"{addresses} addresses for {addressKeys} destinations"
  | .text s => s

def InvalidResponse.message : InvalidResponse → String
  | .undecodable what why status =>
      s!"decode {what}: {why.message}; status={status.message}"
  | .badResult method why => s!"invalid {method} result: {why.message}"
  | .badItemId id => s!"invalid batch response id: {id.render}"
  | .badItemIdText why => s!"invalid batch response id string: {why.message}"
  | .oddError error => s!"non-standard JSON-RPC error: {error.render}"
  | .text s => s

def Unavailable.message : Unavailable → String
  | .bare status what => s!"HTTP {status.message} without a {what}"
  | .text s => s

def EngineError.message : EngineError → String
  | .transport reason => s!"transport error: {reason}"
  | .server code message => s!"engine returned error {code}: {message}"
  | .invalidResponse why => s!"invalid engine response: {why.message}"
  | .missingItem id => s!"missing batch response item for id {id}"
  | .unavailable why => s!"engine unavailable: {why.message}"

def CoreError.message : CoreError → String
  | .engine e => s!"wallet engine failure: {e.message}"
  | .invalidData why => s!"invalid data: {why.message}"
  | .snapshot reason => s!"snapshot parse error: {reason}"
  | .io reason => reason

end WalletLedger
