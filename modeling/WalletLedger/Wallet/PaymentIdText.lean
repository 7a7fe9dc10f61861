import WalletLedger.Wallet.Identifier

/-!
# The text of a payment id

A short payment id fills the first eight bytes of an identifier and leaves the others
zero.  Its text is then cut to the sixteen digits that say something.
-/

namespace WalletLedger

def shortDigits : Nat := 16

/-- The text before and behind a number of bytes, unless that is inside a character. -/
def splitAtByte : List Char → Nat → Option (List Char × List Char)
  | cs, 0 => some ([], cs)
  | [], _ + 1 => none
  | c :: cs, n + 1 =>
      if c.utf8Size ≤ n + 1 then
        (splitAtByte cs (n + 1 - c.utf8Size)).map fun (front, back) => (c :: front, back)
      else
        none

/-- Lowers a text and cuts it to sixteen bytes where only zeros follow. -/
def normalizeChars (cs : List Char) : List Char :=
  let lower := cs.map Text.asciiLower
  match splitAtByte lower shortDigits with
  | some (front, back) => if back.all (· == '0') then front else lower
  | none => lower

def normalizePaymentId (s : String) : String :=
  String.ofList (normalizeChars s.toList)

def PaymentId.text (p : PaymentId) : String :=
  normalizePaymentId p.toHex

end WalletLedger
