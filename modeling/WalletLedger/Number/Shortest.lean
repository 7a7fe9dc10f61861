import WalletLedger.Number.Binary64
import WalletLedger.Text.Digits

/-!
# The shortest decimal of a magnitude

The decimal with the fewest digits that still rounds to a given magnitude, and of those with
that many digits the nearest one.  The search walks over decimal grids from coarse to fine;
on each grid only the two neighbours of the value have to be tried.
-/

namespace WalletLedger
namespace Number

/-- A positive decimal, `digits * 10 ^ exponent`. -/
structure Decimal where
  digits : Nat
  exponent : Int
  deriving DecidableEq, Repr

namespace Magnitude

/-!
# The interval that rounds to a magnitude

All quantities are measured in quarters of the least magnitude above zero, so that the
midpoints between neighbours are whole numbers.
-/

def quarters (x : Magnitude) : Nat :=
  4 * x.units

def upperMidpoint (x : Magnitude) : Nat :=
  x.quarters + 2 * 2 ^ x.exponent

/-- The midpoint to the next smaller magnitude, which is nearer below a power of two. -/
def lowerMidpoint (x : Magnitude) : Nat :=
  if x.mantissa = 2 ^ (mantissaBits - 1) ∧ 0 < x.exponent then x.quarters - 2 ^ x.exponent
  else x.quarters - 2 * 2 ^ x.exponent

/-- Whether `num / den` quarters round to the magnitude; the ends do when it is even. -/
def covers (x : Magnitude) (num den : Nat) : Bool :=
  if x.mantissa % 2 = 0 then
    x.lowerMidpoint * den ≤ num && num ≤ x.upperMidpoint * den
  else
    x.lowerMidpoint * den < num && num < x.upperMidpoint * den

/-!
# Grids
-/

/-- The spacing `10 ^ exponent` of a grid in quarters, as a ratio. -/
def gridRatio (exponent : Int) : Nat × Nat :=
  match exponent with
  | .ofNat n => (10 ^ n * (4 * unitDen), 1)
  | .negSucc n => (4 * unitDen, 10 ^ (n + 1))

/-- The better of the two grid points around the magnitude that round to it, if any does. -/
def onGrid? (x : Magnitude) (exponent : Int) : Option Nat :=
  let (num, den) := gridRatio exponent
  let below := x.quarters * den / num
  let remainder := x.quarters * den - below * num
  let fits (point : Nat) : Bool := x.covers (point * num) den
  match fits below && 0 < below, fits (below + 1) with
  | true, true =>
      if 2 * remainder < num then some below
      else if num < 2 * remainder then some (below + 1)
      else if below % 2 = 0 then some below else some (below + 1)
  | true, false => some below
  | false, true => some (below + 1)
  | false, false => none

def leadingExponent (x : Magnitude) : Int :=
  let whole := x.units / unitDen
  if whole = 0 then
    -- Enough places are added that the digits of the fraction show up in front.
    let places : Nat := 330
    let fraction := x.units * 10 ^ places / unitDen
    ((Text.decimal fraction).length : Int) - 1 - places
  else
    ((Text.decimal whole).length : Int) - 1

def shortestFrom (x : Magnitude) (leading : Int) : Nat → Nat → Decimal
  | 0, _ => ⟨x.units, 0⟩
  | fuel + 1, count =>
      let exponent := leading + 1 - count
      match x.onGrid? exponent with
      | some digits => ⟨digits, exponent⟩
      | none => shortestFrom x leading fuel (count + 1)

/-- The shortest decimal; seventeen digits always suffice. -/
def shortest (x : Magnitude) : Decimal :=
  shortestFrom x x.leadingExponent 17 1

end Magnitude

/-!
# Writing
-/

namespace Decimal

def trimZeros : Nat → Decimal → Decimal
  | 0, d => d
  | fuel + 1, d =>
      if d.digits % 10 = 0 ∧ d.digits ≠ 0 then trimZeros fuel ⟨d.digits / 10, d.exponent + 1⟩
      else d

/--
Writes a decimal by the place of its point relative to its first digit.  It is positional
with the point from five places before to sixteen places behind, and shows at least one
digit on either side of it; otherwise one digit stands in front of the point and the
exponent carries a sign.
-/
def render (d : Decimal) : List Char :=
  let digits := Text.decimal d.digits
  let count : Int := digits.length
  let point := count + d.exponent
  if 0 ≤ d.exponent ∧ point ≤ 16 then
    digits ++ List.replicate d.exponent.toNat '0' ++ ['.', '0']
  else if 0 < point ∧ point ≤ 16 then
    digits.take point.toNat ++ '.' :: digits.drop point.toNat
  else if -5 < point ∧ point ≤ 0 then
    '0' :: '.' :: (List.replicate (-point).toNat '0' ++ digits)
  else
    let exponent := point - 1
    let sign := if 0 ≤ exponent then '+' else '-'
    let tail := 'e' :: sign :: Text.decimal exponent.natAbs
    match digits with
    | first :: second :: rest => first :: '.' :: second :: (rest ++ tail)
    | short => short ++ tail

end Decimal

namespace Binary64

def render (x : Binary64) : List Char :=
  let body :=
    if x.magnitude.mantissa = 0 then ['0', '.', '0']
    else (Decimal.trimZeros 17 x.magnitude.shortest).render
  if x.negative then '-' :: body else body

end Binary64
end Number
end WalletLedger
