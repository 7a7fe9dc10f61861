import WalletLedger.Api.Call
import WalletLedger.Api.Refusal
import WalletLedger.Api.Resource
import WalletLedger.Time.Instant
import WalletLedger.Url.Percent

/-!
# The service

How requests are answered.  Everything but the health of the service wants its token.  A
browser may use the service from one origin, which is compared as it stands.
-/

namespace WalletLedger
namespace Api

open Http (Request Response)

structure Server where
  token : String
  origin : String

namespace Server

def openingNotices (server : Server) : List Notice :=
  if Http.isPlainValue server.origin then [] else [.originRefused server.origin]

/-!
# The token
-/

/-- The token of a request; a missing or unreadable one is empty. -/
def tokenOf (r : Request) : String :=
  match r.header? "x-api-token" with
  | some value => if Http.isPlainValue value then value else ""
  | none => ""

def authorizes (server : Server) (r : Request) : Bool :=
  tokenOf r == server.token

/-!
# Answers
-/

def refuse (r : Refusal) : Program Response :=
  .done r.response

def answer (v : Json) : Program Response :=
  .done (.json .ok v)

def answerRecord (found : Option Record) (otherwise : Refusal) : Program Response :=
  match found with
  | some record => answer (Record.codec.toJson record)
  | none => refuse otherwise

def count (n : Nat) : Json :=
  Json.Codec.count.toJson (UInt64.ofNat n)

def listHistory : Program Response :=
  .ask .all fun records =>
    answer (.object [("count", count records.length),
      ("transactions", (Json.Codec.list Record.codec).toJson records)])

def getCount : Program Response :=
  .ask .count fun n => answer (.object [("count", count n)])

def getByIndex (text : String) : Program Response :=
  match Text.readInt64 text.toList with
  | .error _ => refuse (.badIndex text)
  | .ok index => .ask (.byIndex index) fun found => answerRecord found (.noRecordAt index)

def getByHash (hash : String) : Program Response :=
  .ask (.byHash hash) fun found => answerRecord found (.noRecordOf hash)

def refresh : Program Response :=
  .ask .refresh fun
    | .ok stats => answer (RefreshStats.codec.toJson stats)
    | .error e => refuse (.ofError e)

/-- The last refresh is asked for first and the number of records after it. -/
def getStatus : Program Response :=
  .ask .lastRefresh fun stats? =>
    .ask .count fun n =>
      let refreshedAt := stats?.bind fun stats => Time.instantText? stats.completedAt
      answer (.object [("count", count n),
        ("last_refresh", (Json.Codec.optional RefreshStats.codec).toJson stats?),
        ("refreshed_at", (Json.Codec.optional .string).toJson refreshedAt)])

/-!
# Handlers
-/

def guarded (server : Server) (r : Request) (handler : Program Response) : Program Response :=
  if server.authorizes r then handler else refuse .badToken

/-- Decodes a parameter, which is done before the token is looked at. -/
def withParameter (name parameter : String) (next : String → Program Response) :
    Program Response :=
  match Url.percentText? parameter.toList with
  | some text => next text
  | none => refuse (.badParameter name)

def handle (server : Server) (r : Request) : Resource → Program Response
  | .health => answer (.object [("status", .string "ok")])
  | .unknown => refuse .noRoute
  | .history => server.guarded r listHistory
  | .count => server.guarded r getCount
  | .status => server.guarded r getStatus
  | .refresh => server.guarded r refresh
  | .byIndex parameter =>
      withParameter "index" parameter fun text => server.guarded r (getByIndex text)
  | .byHash parameter =>
      withParameter "hash" parameter fun hash => server.guarded r (getByHash hash)

/-!
# Browsers of other origins
-/

def varying : String :=
  "origin, access-control-request-method, access-control-request-headers"

/-- Names the origin of the request if it is the one that is let in. -/
def allowOrigin (server : Server) (r : Request) (reply : Response) : Response :=
  match r.header? "origin" with
  | some origin =>
      if Http.isPlainValue server.origin && origin == server.origin then
        reply.withHeader "access-control-allow-origin" origin
      else
        reply
  | none => reply

def withAllow (resource : Option Resource) (reply : Response) : Response :=
  match resource.bind Resource.methods? with
  | some methods => reply.withHeader "allow" (Http.Method.listed methods)
  | none => reply

/-- The answer to a browser that asks what it may do; no resource is asked. -/
def preflight (resource : Option Resource) : Response :=
  withAllow resource <|
    ((Response.bare .ok).withHeader "access-control-allow-methods"
      (Http.Method.listed [.get, .post, .options])).withHeader
        "access-control-allow-headers" "content-type,x-api-token"

/-!
# Routing
-/

def route (server : Server) (r : Request) : Program Response :=
  let resource := Resource.ofPath? r.path
  if r.method = .options then .done (preflight resource)
  else
    match resource with
    | none => .done (.bare .notFound)
    | some found =>
        if found.accepts r.method then server.handle r found
        else .done (withAllow resource (.bare .methodNotAllowed))

def finish (server : Server) (r : Request) (reply : Response) : Response :=
  let reply := (server.allowOrigin r reply).withHeader "vary" varying
  if r.method = .head then reply.headOnly else reply

def respond (server : Server) (r : Request) : Program Response :=
  (server.route r).map (server.finish r)

end Server
end Api
end WalletLedger
