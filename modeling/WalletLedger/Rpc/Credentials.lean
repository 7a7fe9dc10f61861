import WalletLedger.Error
import WalletLedger.Text.Blank

/-!
# Credentials

The name and password for an engine.  They are given together, or stand in the first line of
a cookie file with a colon between them, or there are none.
-/

namespace WalletLedger
namespace Rpc

structure Credentials where
  user : String
  pass : String
  deriving DecidableEq, Repr

/-- A file that may hold credentials, with its content or the reason why it has none. -/
structure CookieFile where
  path : String
  content : Except String String

namespace Credentials

def basic (c : Credentials) : String :=
  c.user ++ ":" ++ c.pass

def firstLine (cs : List Char) : List Char :=
  cs.takeWhile (· != '\n')

/-- Splits a text at its first colon, of which both sides need a character. -/
def ofPair? (cs : List Char) : Option Credentials :=
  match cs.takeWhile (· != ':'), cs.dropWhile (· != ':') with
  | u :: user, ':' :: p :: pass => some ⟨String.ofList (u :: user), String.ofList (p :: pass)⟩
  | _, _ => none

def ofContent? (content : String) : Option Credentials :=
  ofPair? (Text.trimBlank (firstLine content.toList))

def ofCookie (file : CookieFile) : Except CredentialError Credentials :=
  match file.content with
  | .error reason => .error (.unreadable file.path reason)
  | .ok content =>
      match ofContent? content with
      | some c => .ok c
      | none => .error (.malformed file.path)

/-- Settles credentials; a file is not looked at when a name or a password is given. -/
def resolve (user pass : Option String) (cookie : Option CookieFile) :
    Except CredentialError (Option Credentials) :=
  match user, pass, cookie with
  | some user, some pass, _ => .ok (some ⟨user, pass⟩)
  | some _, none, _ | none, some _, _ => .error .incomplete
  | none, none, none => .ok none
  | none, none, some file => (ofCookie file).map some

end Credentials
end Rpc
end WalletLedger
