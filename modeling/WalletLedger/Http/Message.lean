import WalletLedger.Http.Status
import WalletLedger.Json.Value
import WalletLedger.Text.Digits

/-!
# Requests and responses

The parts of HTTP messages that the service looks at and makes.
-/

namespace WalletLedger
namespace Http

inductive Method where
  | get
  | head
  | post
  | options
  | other (name : String)
  deriving DecidableEq, Repr

namespace Method

/-- The method of a name; case counts. -/
def ofName : String → Method
  | "GET" => .get
  | "HEAD" => .head
  | "POST" => .post
  | "OPTIONS" => .options
  | name => .other name

def name : Method → String
  | .get => "GET"
  | .head => "HEAD"
  | .post => "POST"
  | .options => "OPTIONS"
  | .other name => name

def listed (methods : List Method) : String :=
  String.intercalate "," (methods.map name)

end Method

/-!
# Requests
-/

structure Request where
  method : Method
  /-- What the request line names: a path, or a whole address. -/
  target : String
  headers : List (String × String)

/-- The part of an address behind its scheme and authority. -/
def pathOfAddress : List Char → List Char
  | ':' :: '/' :: '/' :: rest =>
      match rest.dropWhile fun c => !(c == '/' || c == '?' || c == '#') with
      | '/' :: rest => '/' :: rest
      | _ => ['/']
  | _ :: rest => pathOfAddress rest
  | [] => []

namespace Request

/-- The path, still encoded, without query and fragment. -/
def path (r : Request) : String :=
  let cs := r.target.toList
  let located :=
    match cs with
    | '/' :: _ | ['*'] => cs
    | _ => pathOfAddress cs
  String.ofList (located.takeWhile fun c => !(c == '?' || c == '#'))

def sameName (a b : String) : Bool :=
  a.toList.map Text.asciiLower == b.toList.map Text.asciiLower

/-- The first value of a header, whose name is read without regard to case. -/
def header? (r : Request) (name : String) : Option String :=
  (r.headers.find? fun h => sameName h.1 name).map Prod.snd

end Request

/-- Whether a header value is made of visible characters of ASCII, blanks and tabs. -/
def isPlainValue (value : String) : Bool :=
  value.toList.all fun c => c == '\t' || (0x20 ≤ c.toNat && c.toNat < 0x7f)

/-!
# Responses
-/

inductive Body where
  | empty
  | json (v : Json)
  | text (s : String)

structure Response where
  status : Status
  headers : List (String × String)
  body : Body

namespace Response

def bare (status : Status) : Response :=
  ⟨status, [], .empty⟩

def json (status : Status) (v : Json) : Response :=
  ⟨status, [("content-type", "application/json")], .json v⟩

def text (status : Status) (s : String) : Response :=
  ⟨status, [("content-type", "text/plain; charset=utf-8")], .text s⟩

def withHeader (r : Response) (name value : String) : Response :=
  { r with headers := r.headers ++ [(name, value)] }

def headOnly (r : Response) : Response :=
  { r with body := .empty }

end Response
end Http
end WalletLedger
