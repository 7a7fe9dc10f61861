import WalletLedger.Text.Digits

/-!
# Settings of the command line

The options of the program, in the order in which its help lists them, with what each one
takes.  Some can also be set by a variable of the environment.
-/

namespace WalletLedger
namespace Command

inductive Setting where
  | engineUrl
  | engineUser
  | enginePass
  | engineCookieFile
  | engineRequestsPerSecond
  | engineBatchChunkSize
  | snapshot
  | minHeight
  | maxHeight
  | refreshIntervalSecs
  | bind
  | port
  deriving DecidableEq, Repr

inductive ValueKind where
  | text
  /-- A text that is not empty. -/
  | path
  /-- A natural number of 64 bits. -/
  | word
  /-- A whole number that is read with a sign and has to lie between zero and a limit. -/
  | upTo (limit : Nat)
  deriving DecidableEq, Repr

namespace Setting

def all : List Setting :=
  [.engineUrl, .engineUser, .enginePass, .engineCookieFile, .engineRequestsPerSecond,
   .engineBatchChunkSize, .snapshot, .minHeight, .maxHeight, .refreshIntervalSecs, .bind, .port]

def flag : Setting → String
  | .engineUrl => "engine-url"
  | .engineUser => "engine-user"
  | .enginePass => "engine-pass"
  | .engineCookieFile => "engine-cookie-file"
  | .engineRequestsPerSecond => "engine-requests-per-second"
  | .engineBatchChunkSize => "engine-batch-chunk-size"
  | .snapshot => "snapshot"
  | .minHeight => "min-height"
  | .maxHeight => "max-height"
  | .refreshIntervalSecs => "refresh-interval-secs"
  | .bind => "bind"
  | .port => "port"

def ofFlag? (name : String) : Option Setting :=
  all.find? fun s => s.flag == name

def kind : Setting → ValueKind
  | .engineUrl | .engineUser | .enginePass | .bind => .text
  | .engineCookieFile | .snapshot => .path
  | .engineBatchChunkSize | .minHeight | .maxHeight | .refreshIntervalSecs => .word
  | .engineRequestsPerSecond => .upTo (2 ^ 32 - 1)
  | .port => .upTo (2 ^ 16 - 1)

/-- The variable of the environment that counts when the option is not given. -/
def envName? : Setting → Option String
  | .engineUrl => some "TALLY_ENGINE_URL"
  | .engineUser => some "TALLY_ENGINE_USER"
  | .enginePass => some "TALLY_ENGINE_PASS"
  | .engineCookieFile => some "TALLY_ENGINE_COOKIE_FILE"
  | .snapshot => some "TALLY_SNAPSHOT"
  | _ => none

def explanation : Setting → String
  | .engineUrl => "Wallet engine JSON-RPC URL"
  | .engineUser => "Engine RPC username"
  | .enginePass => "Engine RPC password"
  | .engineCookieFile => "Cookie file holding `username:password` for the engine RPC"
  | .engineRequestsPerSecond =>
      "Maximum outbound engine requests per second (unlimited if omitted)"
  | .engineBatchChunkSize => "Maximum calls per JSON-RPC batch request"
  | .snapshot => "Serve history from a JSON wallet snapshot instead of a live engine"
  | .minHeight => "Only include confirmed entries above this height"
  | .maxHeight => "Only include confirmed entries at or below this height"
  | .refreshIntervalSecs => "Seconds between background refreshes; 0 disables them"
  | .bind => "Address to bind the web server to"
  | .port => "Port to listen on"

/-- The option with a name for its value, as messages show it. -/
def shown (s : Setting) : String :=
  let valueName := s.flag.toList.map fun c => if c == '-' then '_' else c.toUpper
  s!"--{s.flag} <{String.ofList valueName}>"

def excludes : Setting → Setting → Bool
  | .snapshot, .engineUser | .engineUser, .snapshot => true
  | _, _ => false

end Setting
end Command
end WalletLedger
