import WalletLedger.Command.Setting

/-!
# Arguments

What the program is told to do, and what it does when nothing is said.
-/

namespace WalletLedger
namespace Command

structure Arguments where
  engineUrl : String := "http://127.0.0.1:18082/json_rpc"
  engineUser : Option String := none
  enginePass : Option String := none
  engineCookieFile : Option String := none
  engineRequestsPerSecond : Option UInt32 := none
  engineBatchChunkSize : Nat := 50
  snapshot : Option String := none
  minHeight : UInt64 := 0
  maxHeight : Option UInt64 := none
  refreshIntervalSecs : UInt64 := 30
  bind : String := "127.0.0.1"
  port : UInt16 := 3090
  deriving DecidableEq, Repr

def Arguments.usual : Arguments := {}

/-- The text of the value that counts when a setting is not given. -/
def Setting.usual? : Setting → Option String
  | .engineUrl => some Arguments.usual.engineUrl
  | .engineBatchChunkSize => some (toString Arguments.usual.engineBatchChunkSize)
  | .minHeight => some (toString Arguments.usual.minHeight)
  | .refreshIntervalSecs => some (toString Arguments.usual.refreshIntervalSecs)
  | .bind => some Arguments.usual.bind
  | .port => some (toString Arguments.usual.port)
  | _ => none

end Command
end WalletLedger
