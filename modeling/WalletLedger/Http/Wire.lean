import WalletLedger.Http.Message
import WalletLedger.Json.Render
import WalletLedger.Text.Blank

/-!
# Messages as lines

The head of a request as lines, and a response as text.
-/

namespace WalletLedger
namespace Http

/-- A header from its line; one without a colon is left out. -/
def headerOfLine? (line : String) : Option (String × String) :=
  let cs := line.toList
  match cs.takeWhile (· != ':'), cs.dropWhile (· != ':') with
  | name, ':' :: value => some (String.ofList name, String.ofList (Text.trimBlank value))
  | _, _ => none

def Request.ofLines? : List String → Option Request
  | [] => none
  | first :: headers =>
      match (first.toList.splitOn ' ').map String.ofList with
      | method :: target :: _ =>
          some ⟨.ofName method, target, headers.filterMap headerOfLine?⟩
      | _ => none

def Body.wireText : Body → String
  | .empty => ""
  | .json v => v.render
  | .text s => s

def Response.wireText (r : Response) : String :=
  let body := r.body.wireText
  let headers := r.headers ++ [("content-length", toString body.utf8ByteSize)]
  s!"HTTP/1.1 {r.status.message}\r\n" ++
    String.join (headers.map fun (name, value) => s!"{name}: {value}\r\n") ++ "\r\n" ++ body

end Http
end WalletLedger
