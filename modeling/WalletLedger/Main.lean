import WalletLedger.Http.Wire
import WalletLedger.Startup

/-!
# The program

Starts from the command line and then serves one connection, which is made of the standard
input and output, as a service does that is run by a superserver.
-/

namespace WalletLedger
namespace Main

open Command (Setting)

def settingVariables : IO (List (String × String)) := do
  let found ← (Setting.all.filterMap Setting.envName?).mapM fun name => do
    return (← IO.getEnv name).map fun text => (name, text)
  return found.filterMap id

def content (path : String) : IO (Except String String) := do
  try
    return .ok (← IO.FS.readFile path)
  catch e =>
    return .error (toString e)

def contents (a : Command.Arguments) : IO (List (String × Except String String)) :=
  (a.snapshot.toList ++ a.engineCookieFile.toList).mapM fun path => do
    return (path, ← content path)

def shownNotice (n : Notice) : String :=
  s!"{n.severity.name} {n.message}" ++
    String.join (n.fields.map fun (name, value) => s!" {name}={value}")

def log (notices : List Notice) : IO Unit :=
  notices.forM fun n => IO.eprintln (shownNotice n)

/-- The lines up to an empty one or the end of the input. -/
partial def readHead (input : IO.FS.Stream) : IO (List String) := do
  let line ← input.getLine
  let text := String.ofList (Text.trimBlank line.toList)
  if text.isEmpty then return [] else return text :: (← readHead input)

/-- Answers requests until the input ends. -/
partial def serve (running : Running Unit) (input output : IO.FS.Stream) : IO Unit := do
  match Http.Request.ofLines? (← readHead input) with
  | none => return
  | some request =>
      let answered := (running.server.respond request).run running.service running.session
      log answered.notices
      output.putStr answered.result.wireText
      output.flush
      serve { running with session := answered.session } input output

/--
What the program finds around it, given what has been read from there.  No engine is within
reach of it, and its clock stands still.
-/
def surroundings (files : List (String × Except String String)) (token : ByteArray) :
    Surroundings Unit where
  file path := (files.lookup path).getD (.error "file not read")
  peer := Rpc.Endpoint.unreachable
  listen _ := .ok ()
  token := String.ofList (Text.hexOfBytes token.toList)
  timing := ⟨0, 0⟩
  firstId := 1

def run (a : Command.Arguments) : IO UInt32 := do
  let w := surroundings (← contents a) (← IO.getRandomBytes 16)
  let started := start a w ()
  log started.notices
  started.banner.forM IO.println
  match started.outcome with
  | .error e =>
      IO.eprintln e.report
      return 1
  | .ok running =>
      serve running (← IO.getStdin) (← IO.getStdout)
      return 0

end Main
end WalletLedger

open WalletLedger in
def main (arguments : List String) : IO UInt32 := do
  let environment ← Main.settingVariables
  match Command.parse arguments fun name => environment.lookup name with
  | .ok a => Main.run a
  | .error .help =>
      IO.println Command.helpText
      return 0
  | .error .version =>
      IO.println Command.versionText
      return 0
  | .error (.usage e) =>
      IO.eprintln e.message
      return 2
