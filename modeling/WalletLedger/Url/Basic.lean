import WalletLedger.Url.Host

/-!
# URLs

A URL is read leniently, as browsers do: blanks at the ends and line breaks anywhere are
dropped, backslashes are slashes for the schemes of the web, and characters that cannot stand
are percent-encoded.  Only URLs of the web are kept in parts; of other ones no more than the
scheme counts, once the host has been checked.
-/

namespace WalletLedger
namespace Url

/-- A URL of the web, without name and password. -/
structure WebUrl where
  scheme : String
  host : Host
  /-- The port, unless it is the usual one for the scheme. -/
  port : Option Nat
  path : List String
  query : Option String
  fragment : Option String
  deriving DecidableEq, Repr

inductive Parsed where
  | web (u : WebUrl)
  | other (scheme : String)
  deriving DecidableEq, Repr

/-!
# Schemes
-/

def webSchemes : List (String × Nat) :=
  [("http", 80), ("https", 443), ("ws", 80), ("wss", 443), ("ftp", 21)]

def isSchemeChar (c : Char) : Bool :=
  c.isAlphanum || c == '+' || c == '-' || c == '.'

def splitScheme? (cs : List Char) : Option (String × List Char) :=
  match cs.takeWhile isSchemeChar, cs.dropWhile isSchemeChar with
  | c :: scheme, ':' :: rest =>
      if c.isAlpha then some (String.ofList ((c :: scheme).map Text.asciiLower), rest) else none
  | _, _ => none

/-!
# The authority
-/

def endsAuthority (isWeb : Bool) (c : Char) : Bool :=
  c == '/' || c == '?' || c == '#' || (isWeb && c == '\\')

/-- What stands behind the last at sign, with whether there is one. -/
def dropUserinfo (authority : List Char) : List Char × Bool :=
  let host := (authority.reverse.takeWhile (· != '@')).reverse
  (host, authority.contains '@')

/-- The host and what follows its colon, if it has one outside of brackets. -/
def splitPort : (inBrackets : Bool) → List Char → List Char × Option (List Char)
  | _, [] => ([], none)
  | inBrackets, c :: rest =>
      if c == ':' && !inBrackets then ([], some rest)
      else
        let inBrackets := c == '[' || (inBrackets && c != ']')
        let (host, port) := splitPort inBrackets rest
        (c :: host, port)

/-- The port that digits stand for; no digits stand for none. -/
def portOf : Option (List Char) → Except UrlFault (Option Nat)
  | none | some [] => .ok none
  | some digits =>
      match Text.readDigits 65535 .tooLarge 0 digits with
      | .ok n => .ok (some n)
      | .error _ => .error .badPort

/-!
# The path and what follows it
-/

def isEncodedInFragment (c : Char) : Bool :=
  c.toNat ≤ 0x20 || c == '"' || c == '<' || c == '>' || c == '\x60'

def isEncodedInPath (c : Char) : Bool :=
  isEncodedInFragment c || c == '#' || c == '?' || c == '\x7b' || c == '\x7d'

def isEncodedInQuery (c : Char) : Bool :=
  c.toNat ≤ 0x20 || c == '"' || c == '#' || c == '<' || c == '>' || c == '\''

def plainDots : List Char → List Char
  | '%' :: '2' :: 'e' :: rest | '%' :: '2' :: 'E' :: rest => '.' :: plainDots rest
  | c :: rest => c :: plainDots rest
  | [] => []

/--
Adds a segment to those before it, of which the latest comes first.  One dot stands for
nothing and two dots for the removal of a segment.
-/
def addSegment (before : List String) (isLast : Bool) (segment : List Char) : List String :=
  let ending := if isLast then [""] else []
  match plainDots segment with
  | ['.'] => ending ++ before
  | ['.', '.'] => ending ++ before.drop 1
  | _ => String.ofList (percentEncode isEncodedInPath segment) :: before

def addSegments : List String → List (List Char) → List String
  | before, [] => before
  | before, [last] => addSegment before true last
  | before, segment :: rest => addSegments (addSegment before false segment) rest

def pathOf (cs : List Char) : List String :=
  let slashes := cs.map fun c => if c == '\\' then '/' else c
  let segments := if slashes.head? = some '/' then slashes.drop 1 else slashes
  (addSegments [] (segments.splitOn '/')).reverse

def behind? (mark : Char) (cs : List Char) : Option (List Char) :=
  match cs.dropWhile (· != mark) with
  | [] => none
  | _ :: rest => some rest

/-!
# Whole URLs
-/

/-- Drops blanks and controls at the ends, and tabs and line breaks everywhere. -/
def cleaned (cs : List Char) : List Char :=
  let blank (c : Char) : Bool := c.toNat ≤ 0x20
  let trimmed := ((cs.dropWhile blank).reverse.dropWhile blank).reverse
  trimmed.filter fun c => !(c == '\t' || c == '\n' || c == '\r')

def parseWeb (scheme : String) (usualPort : Nat) (rest : List Char) :
    Except UrlFault WebUrl := do
  let rest := rest.dropWhile fun c => c == '/' || c == '\\'
  let authority := rest.takeWhile fun c => !endsAuthority true c
  let rest := rest.dropWhile fun c => !endsAuthority true c
  let (host, port) := splitPort false (dropUserinfo authority).1
  if host.isEmpty then .error .emptyHost
  let host ← Host.ofText host
  let port ← portOf port
  let beforeFragment := rest.takeWhile (· != '#')
  let encoded (set : Char → Bool) (cs : List Char) := String.ofList (percentEncode set cs)
  return {
    scheme := scheme
    host := host
    port := if port = some usualPort then none else port
    path := pathOf (beforeFragment.takeWhile (· != '?'))
    query := (behind? '?' beforeFragment).map (encoded isEncodedInQuery)
    fragment := (behind? '#' rest).map (encoded isEncodedInFragment) }

/-- Whether a file URL names a drive where others have a host. -/
def isDriveLetter : List Char → Bool
  | [c, d] => c.isAlpha && (d == ':' || d == '|')
  | _ => false

def checkFile (rest : List Char) : Except UrlFault Unit :=
  let slash (c : Char) : Bool := c == '/' || c == '\\'
  match rest with
  | a :: b :: rest =>
      let host := rest.takeWhile fun c => !endsAuthority true c
      if slash a && slash b && !host.isEmpty && !isDriveLetter host then
        (Host.ofText host).map fun _ => ()
      else
        .ok ()
  | _ => .ok ()

/-- Checks the authority of a URL of any scheme but those of the web and of files. -/
def checkOther (rest : List Char) : Except UrlFault Unit :=
  match rest with
  | '/' :: '/' :: rest => do
      let authority := rest.takeWhile fun c => !endsAuthority false c
      let ended := !(rest.dropWhile fun c => !endsAuthority false c).isEmpty
      let (behindAt, hasAt) := dropUserinfo authority
      let (host, port) := splitPort false behindAt
      Host.checkOpaque host
      let named := 1 < authority.length - behindAt.length
      if host.isEmpty && (port.isSome || named || (hasAt && ended)) then .error .emptyHost
      let _ ← portOf port
      .ok ()
  | _ => .ok ()

def parse (text : String) : Except UrlFault Parsed :=
  match splitScheme? (cleaned text.toList) with
  | none => .error .relativeWithoutBase
  | some (scheme, rest) =>
      match webSchemes.lookup scheme with
      | some usualPort => (parseWeb scheme usualPort rest).map .web
      | none =>
          if scheme = "file" then (checkFile rest).map fun _ => .other scheme
          else (checkOther rest).map fun _ => .other scheme

namespace WebUrl

def text (u : WebUrl) : String :=
  let port := match u.port with
    | some n => ":" ++ String.ofList (Text.decimal n)
    | none => ""
  let marked (mark : String) : Option String → String
    | some s => mark ++ s
    | none => ""
  u.scheme ++ "://" ++ String.ofList u.host.text ++ port ++ "/" ++
    String.intercalate "/" u.path ++ marked "?" u.query ++ marked "#" u.fragment

end WebUrl
end Url
end WalletLedger
