import WalletLedger.Text.Digits

/-!
# Binary floating point numbers

The finite numbers of the 64-bit binary format, as exact data.  A magnitude is a whole
mantissa times a power of two; the exponent counts upward from the power `2 ^ (-1074)`.
Every operation computes an exact ratio of natural numbers and rounds it once, to the
nearest magnitude, ties to the even mantissa.
-/

namespace WalletLedger
namespace Number

/-- A finite magnitude, `mantissa * 2 ^ (exponent - 1074)`. -/
structure Magnitude where
  mantissa : Nat
  exponent : Nat
  deriving DecidableEq, Repr

/-- A finite number with a sign; zero has two. -/
structure Binary64 where
  negative : Bool
  magnitude : Magnitude
  deriving DecidableEq, Repr

/-!
# Rounding
-/

/-- The whole number nearest to `num / den`, of two equally near the even one. -/
def roundRatio (num den : Nat) : Nat :=
  let whole := num / den
  let twice := 2 * (num % den)
  if twice < den then whole
  else if den < twice then whole + 1
  else if whole % 2 = 0 then whole else whole + 1

namespace Magnitude

def zero : Magnitude := ⟨0, 0⟩

/-- A mantissa has at most 53 bits. -/
def mantissaBits : Nat := 53

def greatestExponent : Nat := 2045

def unitDen : Nat := 2 ^ 1074

def excessBits (n : Nat) : Nat :=
  if n = 0 then 0 else n.log2 + 1 - mantissaBits

/--
The magnitude nearest to `num / den`, or nothing when that lies beyond the greatest.
-/
def ofRatio? (num den : Nat) : Option Magnitude :=
  let scaled := num * unitDen
  let exponent := excessBits (scaled / den)
  let mantissa := roundRatio scaled (den * 2 ^ exponent)
  let rounded :=
    if mantissa = 2 ^ mantissaBits then ⟨2 ^ (mantissaBits - 1), exponent + 1⟩
    else (⟨mantissa, exponent⟩ : Magnitude)
  if rounded.exponent ≤ greatestExponent then some rounded else none

def units (x : Magnitude) : Nat :=
  x.mantissa * 2 ^ x.exponent

def mul? (x y : Magnitude) : Option Magnitude :=
  ofRatio? (x.units * y.units) (unitDen * unitDen)

/-- The quotient of two magnitudes; a divisor above one never overflows it. -/
def div? (x y : Magnitude) : Option Magnitude :=
  ofRatio? x.units y.units

end Magnitude

/-!
# Reading a decimal

A decimal is read in two roundings, first its digits and then the product or quotient with
a rounded power of ten, so the result can differ from the nearest number in its last bit.
-/

def greatestTenPower : Nat := 308

namespace Magnitude

/-- Divides by a power of ten, at most `10 ^ 308` at a time, until nothing is left of it. -/
def divTenPower : Nat → Magnitude → Nat → Option Magnitude
  | 0, x, _ => some x
  | fuel + 1, x, power =>
      if power ≤ greatestTenPower then
        (ofRatio? (10 ^ power) 1).bind x.div?
      else if x.mantissa = 0 then
        some x
      else
        ((ofRatio? (10 ^ greatestTenPower) 1).bind x.div?).bind fun y =>
          divTenPower fuel y (power - greatestTenPower)

def ofDecimal? (digits : Nat) (exponent : Int) : Option Magnitude :=
  (ofRatio? digits 1).bind fun x =>
    match exponent with
    | .ofNat power =>
        if power ≤ greatestTenPower then (ofRatio? (10 ^ power) 1).bind x.mul?
        else if x.mantissa = 0 then some x
        else none
    | .negSucc n => divTenPower 4 x (n + 1)

end Magnitude
end Number
end WalletLedger
