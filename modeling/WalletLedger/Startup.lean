import WalletLedger.Api.Server
import WalletLedger.Command.Line
import WalletLedger.Engine.Snapshot
import WalletLedger.Rpc.Connection

/-!
# Starting up

From arguments to a service: the engine is set up and asked for its network and height, the
window is checked, and the history is made for the first time.  The first failure ends it.
-/

namespace WalletLedger

open Command (Arguments)

/-!
# Failures
-/

inductive StartupError where
  | snapshotRefused (path : String) (error : CoreError)
  | clientRefused (error : CoreError)
  | engineSilent (url : String) (error : CoreError)
  | heightUnknown (error : CoreError)
  | windowEmpty (minHeight maxHeight : UInt64)
  | refreshFailed (error : CoreError)
  | notBound (reason : String)

def hasWithin (part : List Char) : List Char → Bool
  | [] => part.isEmpty
  | c :: rest => part.isPrefixOf (c :: rest) || hasWithin part rest

def connectHint? (error : String) : Option String :=
  let mentions (part : String) : Bool := hasWithin part.toList error.toList
  if mentions "dns error" || mentions "Could not resolve host" then
    some "hint: hostname resolution failed; verify the engine hostname"
  else if mentions "Connection refused" || mentions "connect" then
    some "hint: nothing is listening there; start the wallet RPC or pass --snapshot"
  else if mentions "401" || mentions "403" then
    some "hint: authentication failed; verify --engine-user/--engine-pass or the cookie file"
  else if mentions "404" then
    some "hint: endpoint path is invalid; the JSON-RPC path is usually /json_rpc"
  else
    none

def connectReport (url error : String) : String :=
  String.intercalate "\n" <|
    [s!"could not reach wallet engine at `{url}`", s!"engine error: {error}"] ++
      (connectHint? error).toList

def CoreError.chain (e : CoreError) : List String :=
  match e with
  | .engine (.transport reason) => [e.message, (EngineError.transport reason).message, reason]
  | .engine inner => [e.message, inner.message]
  | _ => [e.message]

namespace StartupError

def chain : StartupError → List String
  | .snapshotRefused path e => s!"load wallet snapshot {path}" :: e.chain
  | .clientRefused e => "configure wallet engine client" :: e.chain
  | .engineSilent url e =>
      ["while attempting to connect to the wallet engine", connectReport url e.message]
  | .heightUnknown e => "read wallet blockchain height" :: e.chain
  | .windowEmpty minHeight maxHeight =>
      [s!"--min-height ({minHeight}) must be below --max-height ({maxHeight})"]
  | .refreshFailed e => "initial transaction history refresh" :: e.chain
  | .notBound reason => ["bind TCP listener", reason]

def indented (first others text : String) : String :=
  first ++ String.intercalate ("\n" ++ others) (text.splitOn "\n")

/-- The causes below what failed; several ones are numbered. -/
def causes : List String → List String
  | [] => []
  | [cause] => ["", "Caused by:", indented "    " "    " cause]
  | several =>
      ["", "Caused by:"] ++
        several.zipIdx.map fun (cause, n) => indented s!"   {n}: " "      " cause

def report (e : StartupError) : String :=
  match e.chain with
  | [] => "Error: "
  | head :: below => String.intercalate "\n" (s!"Error: {head}" :: causes below)

end StartupError

/-!
# Surroundings
-/

structure Surroundings (π : Type) where
  file : String → Except String String
  /-- What answers at an endpoint. -/
  peer : Rpc.Endpoint → Rpc.Peer π
  listen : String → Except String Unit
  token : String
  timing : Timing
  firstId : UInt64

variable {π : Type}

namespace Command.Arguments

def settings (a : Arguments) (w : Surroundings π) : Rpc.Settings where
  url := a.engineUrl
  user := a.engineUser
  pass := a.enginePass
  cookie := a.engineCookieFile.map fun path => ⟨path, w.file path⟩
  requestsPerSecond := a.engineRequestsPerSecond
  chunkSize := a.engineBatchChunkSize

/-- The engine: a snapshot if there is one, else the remote engine. -/
def engine (a : Arguments) (w : Surroundings π) :
    Except StartupError (Engine (Rpc.Client π)) × List Notice :=
  match a.snapshot with
  | some path =>
      let (snapshot, notices) := Snapshot.ofFile path (w.file path)
      ((snapshot.map fun s => s.engine).mapError (.snapshotRefused path), notices)
  | none =>
      let connection := Rpc.Connection.ofSettings (a.settings w)
      ((connection.map fun c => (c.access (w.peer c.endpoint)).engine).mapError .clientRefused,
        [])

def window (a : Arguments) : HeightWindow :=
  ⟨a.minHeight, a.maxHeight.getD 0xffffffffffffffff⟩

def address (a : Arguments) : String :=
  s!"{a.bind}:{a.port}"

def banner (a : Arguments) (token : String) : List String :=
  ["", "  Tally is running:", s!"    URL:       http://{a.address}/api/v1/history",
   s!"    API token: {token}", ""]

def servingNotices (a : Arguments) : List Notice :=
  if a.bind = "0.0.0.0" then [.openToNetwork] else []

end Command.Arguments

/-!
# Starting
-/

structure Running (π : Type) where
  service : Api.Service (Rpc.Client π)
  server : Api.Server
  session : Session (Rpc.Client π)

structure Started (π : Type) where
  outcome : Except StartupError (Running π)
  banner : List String
  notices : List Notice

namespace Started

def failed (e : StartupError) (notices : List Notice) : Started π :=
  ⟨.error e, [], notices⟩

def after (notices : List Notice) (s : Started π) : Started π :=
  { s with notices := notices ++ s.notices }

def step {σ α : Type} (made : Outcome σ α) (wrap : CoreError → StartupError)
    (next : α → σ → Started π) : Started π :=
  match made.answer with
  | .error e => failed (wrap e) made.notices
  | .ok x => (next x made.state).after made.notices

end Started

def serve (a : Arguments) (w : Surroundings π) (running : Running π) : Started π :=
  let notices :=
    (if 0 < a.refreshIntervalSecs then [] else [.refreshDisabled]) ++
      running.server.openingNotices ++ a.servingNotices
  match w.listen a.address with
  | .error reason => ⟨.error (.notBound reason), a.banner w.token, notices⟩
  | .ok () => ⟨.ok running, a.banner w.token, notices ++ [.listening a.address]⟩

def startWith (a : Arguments) (w : Surroundings π) (engine : Engine (Rpc.Client π)) (p : π) :
    Started π :=
  let service : Api.Service (Rpc.Client π) := ⟨engine, a.window, w.timing⟩
  let server : Api.Server := ⟨w.token, s!"http://{a.address}"⟩
  Started.step (engine.network (.start p w.firstId)) (.engineSilent a.engineUrl)
    fun network client =>
  Started.step (engine.height client) .heightUnknown fun height client =>
  Started.after [.connected network height] <|
  if a.window.minHeight < a.window.maxHeight then
    Started.step (History.refresh engine a.window w.timing ⟨.empty, client⟩) .refreshFailed
      fun _ session => serve a w ⟨service, server, session⟩
  else
    Started.failed (.windowEmpty a.window.minHeight a.window.maxHeight) []

def start (a : Arguments) (w : Surroundings π) (p : π) : Started π :=
  match a.engine w with
  | (.error e, notices) => .failed e notices
  | (.ok engine, notices) => (startWith a w engine p).after notices

end WalletLedger
