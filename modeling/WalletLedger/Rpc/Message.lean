import WalletLedger.Error
import WalletLedger.Json.Fields

/-!
# Messages of a remote call

A call names a method and its parameters.  It is sent as a request with an id, and answered
by a response with that id and with either a result or an error.
-/

namespace WalletLedger
namespace Rpc

open Json (Codec Field Fields)

structure Call where
  method : String
  params : List Json

structure Request where
  id : UInt64
  call : Call

namespace Request

def toJson (r : Request) : Json :=
  .object [("jsonrpc", .string "2.0"), ("id", .unsigned r.id),
    ("method", .string r.call.method), ("params", .array r.call.params)]

def body (r : Request) : String :=
  r.toJson.render

end Request

def batchBody (requests : List Request) : String :=
  (Json.array (requests.map Request.toJson)).render

/-!
# Responses
-/

structure Response where
  /-- Null when the response has none. -/
  id : Json
  result : Option Json
  error : Option Json

namespace Response

def codec : Codec Response :=
  .record "JsonRpcResponse"
    (.cons (.orElse "id" .json .null) (.cons (.perhaps "result" .json)
      (.cons (.perhaps "error" .json) .nil)))
    (fun (id, result, error, _) => ⟨id, result, error⟩)
    (fun r => (r.id, r.result, r.error, ()))

end Response

structure Failure where
  code : Int
  message : String

namespace Failure

def codec : Codec Failure :=
  .record "JsonRpcError"
    (.cons (.required "code" .int64) (.cons (.required "message" .string) .nil))
    (fun (code, message, _) => ⟨code, message⟩)
    (fun f => (f.code, f.message, ()))

end Failure

/-- What an error member stands for; one of another form than the usual is kept as it is. -/
def errorOf (error : Json) : CoreError :=
  match Failure.codec.decodeValue error with
  | .ok f => .engine (.server f.code f.message)
  | .error _ => .engine (.invalidResponse (.oddError error))

/-- What a response says: an error counts before any result, and no result is null. -/
def Response.outcome (r : Response) : Except CoreError Json :=
  match r.error with
  | some error => .error (errorOf error)
  | none => .ok (r.result.getD .null)

/-- The id that a response carries as a number or as the numeral of one. -/
def itemId : Json → Except CoreError UInt64
  | .unsigned n => .ok n
  | .string s =>
      match Text.readNat (2 ^ 64 - 1) s.toList with
      | .ok n => .ok (UInt64.ofNat n)
      | .error why => .error (.engine (.invalidResponse (.badItemIdText why)))
  | id => .error (.engine (.invalidResponse (.badItemId id)))

def decodeResult {α : Type} (c : Codec α) (method : String) (raw : Json) : Except CoreError α :=
  (c.decodeValue raw).mapError fun why => .engine (.invalidResponse (.badResult method why))

end Rpc
end WalletLedger
