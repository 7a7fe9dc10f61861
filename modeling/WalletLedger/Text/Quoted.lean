import WalletLedger.Text.Digits
import WalletLedger.Text.Printable

/-!
# Quoted text in messages

A message quotes what it was given so that a reader can see every character: quotes and
backslashes are marked, and what cannot be printed is written by its number.
-/

namespace WalletLedger
namespace Text

/-- A character by its number, as in `\u` followed by hexadecimal digits in braces. -/
def byNumber (c : Char) : List Char :=
  '\\' :: 'u' :: '\x7b' :: (hexNumeral c.toNat ++ ['\x7d'])

/-- One character between two marks `quote`, of which the mark itself is escaped. -/
def quotedChar (quote c : Char) : List Char :=
  if c = '\x00' then ['\\', '0']
  else if c = '\t' then ['\\', 't']
  else if c = '\r' then ['\\', 'r']
  else if c = '\n' then ['\\', 'n']
  else if c = '\\' ∨ c = quote then ['\\', c]
  else if isPrintable c then [c]
  else byNumber c

def quoted (s : String) : String :=
  String.ofList ('"' :: (s.toList.flatMap (quotedChar '"') ++ ['"']))

def quotedSingle (c : Char) : String :=
  String.ofList ('\'' :: (quotedChar '\'' c ++ ['\'']))

end Text
end WalletLedger
