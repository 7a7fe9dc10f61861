import WalletLedger.Text.Digits

/-!
# Percent encoding

A percent sign and two hexadecimal digits stand for one byte.  A text is encoded through
its bytes, and only where its characters belong to a given set.
-/

namespace WalletLedger
namespace Url

def percentByte (b : UInt8) : List Char :=
  '%' :: (Text.hexPair b).map Char.toUpper

/-- Encodes the characters of a set and every character that is not of ASCII. -/
def percentEncode (set : Char → Bool) (cs : List Char) : List Char :=
  cs.flatMap fun c =>
    if set c || 0x7f ≤ c.toNat then (Text.utf8 [c]).flatMap percentByte else [c]

/-- The bytes of a text; a percent sign that no two digits follow stands for itself. -/
def percentDecode : List Char → List UInt8
  | [] => []
  | '%' :: a :: b :: rest =>
      match Text.hexValue? a, Text.hexValue? b with
      | some high, some low => UInt8.ofNat (high * 16 + low) :: percentDecode rest
      | _, _ => Text.utf8 ['%'] ++ percentDecode (a :: b :: rest)
  | c :: rest => Text.utf8 [c] ++ percentDecode rest

/-- The text that an encoded one stands for, if its bytes are one in UTF-8. -/
def percentText? (cs : List Char) : Option String :=
  String.fromUTF8? (percentDecode cs).toByteArray

end Url
end WalletLedger
