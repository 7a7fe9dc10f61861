/-!
# Digits

Decimal and hexadecimal digits as characters, the bytes of a text, and the reading of
whole numbers from a text.  Readers name the first thing that is wrong, looking from
the left.
-/

namespace WalletLedger

/-- Powers of numbers are those of the core library, whatever other instances there are. -/
@[default_instance 20000]
instance (priority := 2000) corePow : Pow Nat Nat := instPowNat

namespace Text

/-!
# Decimal numerals
-/

def decimal (n : Nat) : List Char :=
  Nat.toDigits 10 n

def decimalInt : Int → List Char
  | .ofNat n => decimal n
  | .negSucc n => '-' :: decimal (n + 1)

def digitValue (c : Char) : Nat :=
  c.toNat - '0'.toNat

inductive NumeralError where
  | empty
  | invalidDigit
  | tooLarge
  | tooSmall
  deriving DecidableEq, Repr

namespace NumeralError

def message : NumeralError → String
  | .empty => "cannot parse integer from empty string"
  | .invalidDigit => "invalid digit found in string"
  | .tooLarge => "number too large to fit in target type"
  | .tooSmall => "number too small to fit in target type"

end NumeralError

/--
Reads digits on top of a value read so far.  A digit that would carry the value above
`limit` is reported before any character behind it is looked at.
-/
def readDigits (limit : Nat) (overflow : NumeralError) :
    Nat → List Char → Except NumeralError Nat
  | value, [] => .ok value
  | value, c :: rest =>
      if c.isDigit then
        let next := value * 10 + digitValue c
        if next ≤ limit then readDigits limit overflow next rest else .error overflow
      else
        .error .invalidDigit

/--
Reads a natural number up to `limit`.  One plus sign may stand in front; a minus sign
is a character like any other that is no digit.
-/
def readNat (limit : Nat) : List Char → Except NumeralError Nat
  | [] => .error .empty
  | ['+'] => .error .invalidDigit
  | '+' :: rest => readDigits limit .tooLarge 0 rest
  | cs => readDigits limit .tooLarge 0 cs

def readInt64 : List Char → Except NumeralError Int
  | [] => .error .empty
  | ['+'] | ['-'] => .error .invalidDigit
  | '+' :: rest => (readDigits (2 ^ 63 - 1) .tooLarge 0 rest).map Int.ofNat
  | '-' :: rest => (readDigits (2 ^ 63) .tooSmall 0 rest).map fun n => -(Int.ofNat n)
  | cs => (readDigits (2 ^ 63 - 1) .tooLarge 0 cs).map Int.ofNat

/-!
# Hexadecimal digits and bytes
-/

def hexValue? (c : Char) : Option Nat :=
  if c.isDigit then some (c.toNat - '0'.toNat)
  else if 'a' ≤ c ∧ c ≤ 'f' then some (c.toNat - 'a'.toNat + 10)
  else if 'A' ≤ c ∧ c ≤ 'F' then some (c.toNat - 'A'.toNat + 10)
  else none

def hexDigit (n : Nat) : Char :=
  Nat.digitChar n

/-- The two lowercase hexadecimal digits of a byte, high half first. -/
def hexPair (b : UInt8) : List Char :=
  [hexDigit (b.toNat / 16), hexDigit (b.toNat % 16)]

def hexOfBytes (bytes : List UInt8) : List Char :=
  bytes.flatMap hexPair

def hexNumeral (n : Nat) : List Char :=
  Nat.toDigits 16 n

def utf8 (cs : List Char) : List UInt8 :=
  cs.flatMap String.utf8EncodeChar

def utf8Size (cs : List Char) : Nat :=
  (utf8 cs).length

def asciiLower (c : Char) : Char :=
  if 'A' ≤ c ∧ c ≤ 'Z' then Char.ofNat (c.toNat + 32) else c

end Text
end WalletLedger
