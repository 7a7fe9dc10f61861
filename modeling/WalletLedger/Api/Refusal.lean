import WalletLedger.Error
import WalletLedger.Http.Message

/-!
# Refusals

Why the service does not give what was asked for, and the response that says so.
-/

namespace WalletLedger
namespace Api

inductive Refusal where
  | badToken
  | badIndex (text : String)
  | noRecordAt (index : Int)
  | noRecordOf (hash : String)
  | noRoute
  /-- A parameter that is no text once it is decoded. -/
  | badParameter (name : String)
  /-- The engine failed, or gave what cannot be used. -/
  | engineFailed (error : CoreError)
  /-- The service itself failed. -/
  | failed (error : CoreError)

namespace Refusal

def ofError (e : CoreError) : Refusal :=
  match e with
  | .engine _ | .invalidData _ => .engineFailed e
  | .snapshot _ | .io _ => .failed e

def status : Refusal → Http.Status
  | .badToken => .unauthorized
  | .badIndex _ | .badParameter _ => .badRequest
  | .noRecordAt _ | .noRecordOf _ | .noRoute => .notFound
  | .engineFailed _ => .badGateway
  | .failed _ => .internalError

def message : Refusal → String
  | .badToken => "invalid or missing X-API-Token"
  | .badIndex text => s!"invalid index: {text}"
  | .noRecordAt index => s!"no transaction at index {index}"
  | .noRecordOf hash => s!"transaction not found: {hash}"
  | .noRoute => "API route not found"
  | .badParameter name => s!"Invalid URL: Invalid UTF-8 in `{name}`"
  | .engineFailed e => s!"history refresh failed: {e.message}"
  | .failed e => e.message

/-- The response; a parameter that cannot be decoded is refused in plain text. -/
def response (r : Refusal) : Http.Response :=
  match r with
  | .badParameter _ => .text r.status r.message
  | _ => .json r.status (.object [("error", .string r.message)])

end Refusal
end Api
end WalletLedger
