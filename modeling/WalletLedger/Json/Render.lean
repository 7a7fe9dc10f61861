import WalletLedger.Json.Value
import WalletLedger.Number.Shortest
import WalletLedger.Text.Digits

/-!
# Writing JSON

The compact text of a value.  Members are written in the order in which they stand.  Each
writer takes the text that is to follow.
-/

namespace WalletLedger
namespace Json

/-!
# Strings
-/

/-- A character between quotes; only quotes, backslashes and control characters are escaped. -/
def escapeChar (c : Char) : List Char :=
  if c = '"' then ['\\', '"']
  else if c = '\\' then ['\\', '\\']
  else if c = '\x08' then ['\\', 'b']
  else if c = '\t' then ['\\', 't']
  else if c = '\n' then ['\\', 'n']
  else if c = '\x0c' then ['\\', 'f']
  else if c = '\r' then ['\\', 'r']
  else if c.toNat < 0x20 then
    ['\\', 'u', '0', '0', Text.hexDigit (c.toNat / 16), Text.hexDigit (c.toNat % 16)]
  else [c]

def escapeAppend : List Char → List Char → List Char
  | [], rest => rest
  | c :: cs, rest => escapeChar c ++ escapeAppend cs rest

def stringAppend (s : String) (rest : List Char) : List Char :=
  '"' :: escapeAppend s.toList ('"' :: rest)

/-!
# Values
-/

mutual

def renderAppend : Json → List Char → List Char
  | .null, rest => 'n' :: 'u' :: 'l' :: 'l' :: rest
  | .bool true, rest => 't' :: 'r' :: 'u' :: 'e' :: rest
  | .bool false, rest => 'f' :: 'a' :: 'l' :: 's' :: 'e' :: rest
  | .unsigned n, rest => Text.decimal n.toNat ++ rest
  | .negative n, rest => Text.decimalInt n ++ rest
  | .binary x, rest => x.render ++ rest
  | .string s, rest => stringAppend s rest
  | .array items, rest => '[' :: renderItems items (']' :: rest)
  | .object members, rest => '\x7b' :: renderMembers members ('\x7d' :: rest)

def renderItems : List Json → List Char → List Char
  | [], rest => rest
  | [v], rest => renderAppend v rest
  | v :: w :: vs, rest => renderAppend v (',' :: renderItems (w :: vs) rest)

def renderMembers : List (String × Json) → List Char → List Char
  | [], rest => rest
  | [(key, v)], rest => stringAppend key (':' :: renderAppend v rest)
  | (key, v) :: m :: ms, rest =>
      stringAppend key (':' :: renderAppend v (',' :: renderMembers (m :: ms) rest))

end

def render (v : Json) : String :=
  String.ofList (renderAppend v [])

end Json
end WalletLedger
