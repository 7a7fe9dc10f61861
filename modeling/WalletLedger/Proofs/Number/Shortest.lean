import WalletLedger.Number.Shortest
import WalletLedger.Proofs.Number.Rounding

/-!
# Decimals that are written

A magnitude is written with one to seventeen digits: on the grid of seventeen digits the
spacing is less than the width of the interval that rounds to the magnitude, so one of the
two neighbours of the magnitude lies in it.  What is written is not beyond the greatest
decimal that can be read.
-/

namespace WalletLedger

namespace Text

theorem length_decimal_bounds {n : Nat} (h : 0 < n) :
    10 ^ ((decimal n).length - 1) ≤ n ∧ n < 10 ^ (decimal n).length := by
  have hpos : 0 < (decimal n).length := Nat.length_toDigits_pos
  refine ⟨?_, (Nat.length_toDigits_le_iff (by decide) hpos).mp (Nat.le_refl _)⟩
  rcases Nat.eq_zero_or_pos ((decimal n).length - 1) with hone | hmore
  · rw [hone]
    exact h
  · by_contra hlt
    have hle := (Nat.length_toDigits_le_iff (by decide) hmore).mpr (Nat.not_le.mp hlt)
    change (decimal n).length ≤ _ at hle
    omega

end Text

namespace Number
namespace Magnitude

/-!
# Grids

The spacing of a grid as a fraction, in quarters of a unit.
-/

def spacing (exponent : Int) : ℚ :=
  10 ^ exponent * (4 * unitDen)

theorem spacing_pos (exponent : Int) : 0 < spacing exponent := by
  have hunit : (0 : ℚ) < unitDen := Nat.cast_pos.mpr unitDen_pos
  unfold spacing
  positivity

theorem spacing_add (exponent : Int) (n : Nat) :
    spacing (exponent + n) = 10 ^ n * spacing exponent := by
  unfold spacing
  rw [zpow_add₀ (by norm_num), zpow_natCast]
  ring

theorem gridRatio_pos (exponent : Int) :
    0 < (gridRatio exponent).1 ∧ 0 < (gridRatio exponent).2 := by
  have hunit : 0 < 4 * unitDen := Nat.mul_pos (by decide) unitDen_pos
  cases exponent with
  | ofNat n => exact ⟨Nat.mul_pos (Nat.pow_pos (by decide)) hunit, Nat.one_pos⟩
  | negSucc n => exact ⟨hunit, Nat.pow_pos (by decide)⟩

theorem gridRatio_fst (exponent : Int) :
    ((gridRatio exponent).1 : ℚ) = spacing exponent * (gridRatio exponent).2 := by
  cases exponent with
  | ofNat n =>
      change ((10 ^ n * (4 * unitDen) : Nat) : ℚ) = 10 ^ (n : Int) * (4 * unitDen) * ((1 : Nat) : ℚ)
      rw [zpow_natCast]
      push_cast
      ring
  | negSucc n =>
      change ((4 * unitDen : Nat) : ℚ) =
        10 ^ (Int.negSucc n) * (4 * unitDen) * ((10 ^ (n + 1) : Nat) : ℚ)
      have hpow : (10 : ℚ) ^ (n + 1) ≠ 0 := by positivity
      rw [zpow_negSucc, mul_right_comm, Nat.cast_pow, Nat.cast_ofNat, inv_mul_cancel₀ hpow,
        one_mul, Nat.cast_mul, Nat.cast_ofNat]

theorem point_le_iff (point bound : Nat) (exponent : Int) :
    point * (gridRatio exponent).1 ≤ bound * (gridRatio exponent).2 ↔
      (point : ℚ) * spacing exponent ≤ bound := by
  have hden : (0 : ℚ) < (gridRatio exponent).2 := Nat.cast_pos.mpr (gridRatio_pos exponent).2
  rw [← Nat.cast_le (α := ℚ), Nat.cast_mul, Nat.cast_mul, gridRatio_fst, ← mul_assoc,
    mul_le_mul_iff_of_pos_right hden]

theorem le_point_iff (point bound : Nat) (exponent : Int) :
    bound * (gridRatio exponent).2 ≤ point * (gridRatio exponent).1 ↔
      (bound : ℚ) ≤ point * spacing exponent := by
  have hden : (0 : ℚ) < (gridRatio exponent).2 := Nat.cast_pos.mpr (gridRatio_pos exponent).2
  rw [← Nat.cast_le (α := ℚ), Nat.cast_mul, Nat.cast_mul, gridRatio_fst, ← mul_assoc,
    mul_le_mul_iff_of_pos_right hden]

/-!
# One grid
-/

def below (x : Magnitude) (exponent : Int) : Nat :=
  x.quarters * (gridRatio exponent).2 / (gridRatio exponent).1

theorem below_le (x : Magnitude) (exponent : Int) :
    (x.below exponent : ℚ) * spacing exponent ≤ x.quarters :=
  (point_le_iff _ _ _).mp (Nat.div_mul_le_self _ _)

theorem lt_below_succ (x : Magnitude) (exponent : Int) :
    (x.quarters : ℚ) < ((x.below exponent + 1 : Nat) : ℚ) * spacing exponent := by
  rw [← not_le, ← point_le_iff, not_le]
  exact Nat.lt_mul_of_div_lt (Nat.lt_succ_self _) (gridRatio_pos exponent).1

/-- The magnitude is what a grid point is rounded to. -/
def Fits (x : Magnitude) (exponent : Int) (point : Nat) : Prop :=
  x.covers (point * (gridRatio exponent).1) (gridRatio exponent).2 = true

theorem Fits.le_upperMidpoint {x : Magnitude} {exponent : Int} {point : Nat}
    (h : x.Fits exponent point) : (point : ℚ) * spacing exponent ≤ x.upperMidpoint := by
  unfold Fits covers at h
  rw [← point_le_iff]
  split at h
  · rw [Bool.and_eq_true, decide_eq_true_iff, decide_eq_true_iff] at h
    exact h.2
  · rw [Bool.and_eq_true, decide_eq_true_iff, decide_eq_true_iff] at h
    exact Nat.le_of_lt h.2

theorem fits_of_lt {x : Magnitude} {exponent : Int} {point : Nat}
    (hlower : (x.lowerMidpoint : ℚ) < point * spacing exponent)
    (hupper : (point : ℚ) * spacing exponent < x.upperMidpoint) : x.Fits exponent point := by
  rw [← not_le, ← point_le_iff, not_le] at hlower
  rw [← not_le, ← le_point_iff, not_le] at hupper
  unfold Fits covers
  split
  · rw [Bool.and_eq_true, decide_eq_true_iff, decide_eq_true_iff]
    exact ⟨Nat.le_of_lt hlower, Nat.le_of_lt hupper⟩
  · rw [Bool.and_eq_true, decide_eq_true_iff, decide_eq_true_iff]
    exact ⟨hlower, hupper⟩

def FitsBeside (x : Magnitude) (exponent : Int) (point : Nat) : Prop :=
  x.Fits exponent point ∧
    (point = x.below exponent ∧ 0 < x.below exponent ∨ point = x.below exponent + 1)

/-- A grid gives one of the two neighbours of the magnitude, if one of them fits. -/
theorem onGrid?_spec (x : Magnitude) (exponent : Int) :
    (∀ digits, x.onGrid? exponent = some digits → x.FitsBeside exponent digits) ∧
      (x.onGrid? exponent = none → ∀ digits, ¬ x.FitsBeside exponent digits) := by
  unfold FitsBeside Fits below onGrid?
  generalize gridRatio exponent = ratio
  rcases ratio with ⟨num, den⟩
  simp only
  generalize x.quarters * den / num = below
  generalize hlow : (x.covers (below * num) den && decide (0 < below)) = low
  generalize hhigh : x.covers ((below + 1) * num) den = high
  have hbelow : low = true ↔ x.covers (below * num) den = true ∧ 0 < below := by
    rw [← hlow, Bool.and_eq_true, decide_eq_true_iff]
  cases low <;> cases high
  · refine ⟨fun digits h => absurd h.symm (Option.some_ne_none digits), fun _ digits hbeside => ?_⟩
    rcases hbeside with ⟨hfits, ⟨rfl, hpos⟩ | rfl⟩
    · exact Bool.false_ne_true (hbelow.mpr ⟨hfits, hpos⟩)
    · exact Bool.false_ne_true (hhigh.symm.trans hfits)
  · refine ⟨fun digits h => ?_, fun h => absurd h (Option.some_ne_none _)⟩
    cases h
    exact ⟨hhigh, .inr rfl⟩
  · refine ⟨fun digits h => ?_, fun h => absurd h (Option.some_ne_none _)⟩
    cases h
    exact ⟨(hbelow.mp rfl).1, .inl ⟨rfl, (hbelow.mp rfl).2⟩⟩
  · simp only
    split_ifs
    all_goals refine ⟨fun digits h => ?_, False.elim⟩
    all_goals cases h
    · exact ⟨(hbelow.mp rfl).1, .inl ⟨rfl, (hbelow.mp rfl).2⟩⟩
    · exact ⟨hhigh, .inr rfl⟩
    · exact ⟨(hbelow.mp rfl).1, .inl ⟨rfl, (hbelow.mp rfl).2⟩⟩
    · exact ⟨hhigh, .inr rfl⟩

theorem onGrid?_eq_some {x : Magnitude} {exponent : Int} {digits : Nat}
    (h : x.onGrid? exponent = some digits) :
    0 < digits ∧ digits ≤ x.below exponent + 1 ∧ x.Fits exponent digits := by
  rcases (x.onGrid?_spec exponent).1 digits h with ⟨hfits, ⟨heq, hpos⟩ | heq⟩
  · exact ⟨heq ▸ hpos, heq ▸ Nat.le_succ _, hfits⟩
  · exact ⟨heq ▸ Nat.succ_pos _, Nat.le_of_eq heq, hfits⟩

/-- A grid that is narrower than the interval of the magnitude has a point in it. -/
theorem exists_onGrid? {x : Magnitude} {exponent : Int}
    (hpos : spacing exponent ≤ x.quarters) (hlower : x.lowerMidpoint ≤ x.quarters)
    (hwidth : (x.lowerMidpoint : ℚ) + spacing exponent < x.upperMidpoint) :
    ∃ digits, x.onGrid? exponent = some digits := by
  cases hgrid : x.onGrid? exponent with
  | some digits => exact ⟨digits, rfl⟩
  | none =>
      have hnone := (x.onGrid?_spec exponent).2 hgrid
      have hle := x.below_le exponent
      have hlt := x.lt_below_succ exponent
      have hquarters : (x.lowerMidpoint : ℚ) ≤ x.quarters := Nat.cast_le.mpr hlower
      have hupper : (x.quarters : ℚ) < x.upperMidpoint := Nat.cast_lt.mpr
        (Nat.lt_add_of_pos_right (Nat.mul_pos Nat.two_pos (Nat.two_pow_pos _)))
      rw [Nat.cast_succ, add_mul, one_mul] at hlt
      by_cases hbelow : (x.lowerMidpoint : ℚ) < x.below exponent * spacing exponent
      · have hnonzero : 0 < x.below exponent := by
          by_contra hzero
          rw [Nat.eq_zero_of_not_pos hzero, Nat.cast_zero, zero_mul] at hlt
          linarith
        exact absurd ⟨fits_of_lt hbelow (lt_of_le_of_lt hle hupper), .inl ⟨rfl, hnonzero⟩⟩ (hnone _)
      · refine absurd ⟨fits_of_lt ?_ ?_, .inr rfl⟩ (hnone (x.below exponent + 1))
        · rw [Nat.cast_succ, add_mul, one_mul]
          linarith
        · rw [Nat.cast_succ, add_mul, one_mul]
          linarith

/-!
# The first digit
-/

theorem spacing_natCast (n : Nat) : spacing n = 10 ^ n * (4 * unitDen) := by
  unfold spacing
  rw [zpow_natCast]

/-- The digits in front tell how great a magnitude is, however many places are added. -/
theorem bounds_of_digits {x : Magnitude} {places : Nat}
    (h : 0 < x.units * 10 ^ places / unitDen) {leading : Int}
    (hleading : leading =
      ((Text.decimal (x.units * 10 ^ places / unitDen)).length : Int) - 1 - places) :
    spacing leading ≤ x.quarters ∧ (x.quarters : ℚ) < spacing (leading + 1) := by
  have hpos : 0 < (Text.decimal (x.units * 10 ^ places / unitDen)).length :=
    Nat.length_toDigits_pos
  rcases Text.length_decimal_bounds h with ⟨hlow, hhigh⟩
  generalize (Text.decimal (x.units * 10 ^ places / unitDen)).length = count at *
  have hunit : (0 : ℚ) < unitDen := Nat.cast_pos.mpr unitDen_pos
  have hpow : (0 : ℚ) < 10 ^ places := by positivity
  have hle := Nat.cast_le (α := ℚ).mpr ((Nat.le_div_iff_mul_le unitDen_pos).mp hlow)
  have hlt := Nat.cast_lt (α := ℚ).mpr ((Nat.div_lt_iff_lt_mul unitDen_pos).mp hhigh)
  rw [Nat.cast_mul, Nat.cast_mul, Nat.cast_pow, Nat.cast_pow, Nat.cast_ofNat] at hle hlt
  have hquarters : (x.quarters : ℚ) = 4 * x.units := Nat.cast_mul 4 x.units
  have hfirst : 10 ^ places * spacing leading = 10 ^ (count - 1) * (4 * unitDen) := by
    have hplace : leading + places = ((count - 1 : Nat) : Int) := by omega
    rw [← spacing_add, hplace, spacing_natCast]
  have hsecond : 10 ^ places * spacing (leading + 1) = 10 ^ count * (4 * unitDen) := by
    have hplace : leading + 1 + places = (count : Int) := by omega
    rw [← spacing_add, hplace, spacing_natCast]
  -- The unit is only a name from here on, so that nobody tries to compute it.
  generalize (unitDen : ℚ) = unit at hle hlt hfirst hsecond hunit
  constructor
  · rw [← mul_le_mul_iff_of_pos_left hpow, hfirst, hquarters]
    linarith only [hle]
  · rw [← mul_lt_mul_iff_of_pos_left hpow, hsecond, hquarters]
    linarith only [hlt]

theorem two_pow_le_ten_pow {k m : Nat} (n : Nat) (hk : k ≤ 109 * n) (hm : 33 * n ≤ m) :
    2 ^ k ≤ 10 ^ m :=
  calc 2 ^ k ≤ 2 ^ (109 * n) := Nat.pow_le_pow_right (by decide) hk
    _ ≤ 10 ^ (33 * n) := by
        rw [Nat.pow_mul, Nat.pow_mul]
        exact Nat.pow_le_pow_left (by decide) n
    _ ≤ 10 ^ m := Nat.pow_le_pow_right (by decide) hm

/-- A magnitude has its first digit where the leading exponent says. -/
theorem leadingExponent_bounds {x : Magnitude} (h : 0 < x.mantissa) :
    spacing x.leadingExponent ≤ x.quarters ∧
      (x.quarters : ℚ) < spacing (x.leadingExponent + 1) := by
  have hunits : 0 < x.units := Nat.mul_pos h (Nat.two_pow_pos _)
  by_cases hwhole : x.units / unitDen = 0
  · -- Every magnitude has a digit among so many places.
    have hplaces : unitDen ≤ 10 ^ 330 := two_pow_le_ten_pow 10 (by decide) (by decide)
    have hfraction : 0 < x.units * 10 ^ 330 / unitDen :=
      Nat.div_pos (Nat.le_trans hplaces (Nat.le_mul_of_pos_left _ hunits)) unitDen_pos
    refine bounds_of_digits hfraction ?_
    unfold leadingExponent
    simp only
    rw [if_pos hwhole]
  · have hsame : x.units * 10 ^ 0 = x.units := Nat.mul_one _
    have hpos : 0 < x.units * 10 ^ 0 / unitDen := by
      rw [hsame]
      exact Nat.pos_of_ne_zero hwhole
    refine bounds_of_digits hpos ?_
    unfold leadingExponent
    simp only
    rw [if_neg hwhole, hsame, Nat.cast_zero, Int.sub_zero]

/-!
# The search
-/

theorem shortestFrom_eq {x : Magnitude} {leading : Int} {fuel count last : Nat}
    (hcount : count ≤ last) (hlast : last < count + fuel)
    (h : ∃ digits, x.onGrid? (leading + 1 - last) = some digits) :
    ∃ k ≤ last, x.onGrid? (leading + 1 - k) =
        some (x.shortestFrom leading fuel count).digits ∧
      (x.shortestFrom leading fuel count).exponent = leading + 1 - k := by
  induction fuel generalizing count with
  | zero => omega
  | succ fuel ih =>
      rw [shortestFrom]
      cases hgrid : x.onGrid? (leading + 1 - count) with
      | some digits => exact ⟨count, hcount, hgrid, rfl⟩
      | none =>
          rcases Nat.lt_or_eq_of_le hcount with hlt | heq
          · exact ih hlt (by omega)
          · rcases h with ⟨digits, hdigits⟩
            rw [heq, hdigits] at hgrid
            cases hgrid

theorem quarters_eq (x : Magnitude) : (x.quarters : ℚ) = 4 * x.mantissa * 2 ^ x.exponent := by
  unfold quarters units
  push_cast
  ring

theorem upperMidpoint_eq (x : Magnitude) :
    (x.upperMidpoint : ℚ) = x.quarters + 2 * 2 ^ x.exponent := by
  unfold upperMidpoint
  push_cast
  ring

/-- The interval reaches half a step down, or a quarter of one below a power of two. -/
theorem lowerMidpoint_eq {x : Magnitude} (h : 0 < x.mantissa) :
    (x.mantissa = 2 ^ (mantissaBits - 1) ∧
        (x.lowerMidpoint : ℚ) = x.quarters - 2 ^ x.exponent) ∨
      (x.lowerMidpoint : ℚ) = x.quarters - 2 * 2 ^ x.exponent := by
  have hle : 2 * 2 ^ x.exponent ≤ x.quarters := by
    calc 2 * 2 ^ x.exponent ≤ 4 * 2 ^ x.exponent := Nat.mul_le_mul_right _ (by decide)
      _ ≤ 4 * (x.mantissa * 2 ^ x.exponent) :=
        Nat.mul_le_mul_left 4 (Nat.le_mul_of_pos_left _ h)
  unfold lowerMidpoint
  split
  · next hpower =>
      refine .inl ⟨hpower.1, ?_⟩
      rw [Nat.cast_sub (by omega)]
      push_cast
      rfl
  · refine .inr ?_
    rw [Nat.cast_sub hle]
    push_cast
    rfl

/-- The interval of a magnitude is wider than the grid of seventeen digits. -/
theorem exists_seventeen {x : Magnitude} (hx : x.Canonical) (h : 0 < x.mantissa) :
    ∃ digits, x.onGrid? (x.leadingExponent + 1 - (17 : Nat)) = some digits := by
  have hgap := spacing_pos (x.leadingExponent + 1 - (17 : Nat))
  have hleading : 10 ^ 16 * spacing (x.leadingExponent + 1 - (17 : Nat)) ≤ x.quarters := by
    have hplace : x.leadingExponent + 1 - (17 : Nat) + (16 : Nat) = x.leadingExponent := by omega
    rw [← spacing_add, hplace]
    exact (leadingExponent_bounds h).1
  have hstep : (0 : ℚ) < 2 ^ x.exponent := by positivity
  have hlower : x.lowerMidpoint ≤ x.quarters := by
    unfold lowerMidpoint
    split <;> exact Nat.sub_le _ _
  refine exists_onGrid? (by linarith only [hgap, hleading]) hlower ?_
  rw [upperMidpoint_eq]
  rw [quarters_eq] at hleading
  generalize spacing (x.leadingExponent + 1 - (17 : Nat)) = gap at hleading ⊢
  rcases lowerMidpoint_eq h with ⟨hmantissa, heq⟩ | heq
  · rw [hmantissa, mantissaBits] at hleading
    norm_num at hleading
    rw [heq]
    linarith only [hleading, hstep]
  · have hmantissa : (x.mantissa : ℚ) ≤ 2 ^ 53 := by
      exact_mod_cast Nat.le_of_lt hx.mantissa_lt
    have hbound := mul_le_mul_of_nonneg_right hmantissa (le_of_lt hstep)
    rw [heq]
    linarith only [hleading, hstep, hbound]

theorem below_lt {x : Magnitude} (h : 0 < x.mantissa) (count : Nat) :
    x.below (x.leadingExponent + 1 - count) < 10 ^ count := by
  have hplace : x.leadingExponent + 1 - count + count = x.leadingExponent + 1 := by omega
  have hlt : (x.below (x.leadingExponent + 1 - count) : ℚ) *
        spacing (x.leadingExponent + 1 - count) <
      10 ^ count * spacing (x.leadingExponent + 1 - count) := by
    rw [← spacing_add, hplace]
    exact lt_of_le_of_lt (x.below_le _) (leadingExponent_bounds h).2
  exact_mod_cast lt_of_mul_lt_mul_right hlt (le_of_lt (spacing_pos _))

/-- What a magnitude is written as: at most seventeen digits, and not beyond its interval. -/
theorem shortest_spec {x : Magnitude} (hx : x.Canonical) (h : 0 < x.mantissa) :
    x.shortest.digits ≤ 10 ^ 17 ∧
      (x.shortest.digits : ℚ) * spacing x.shortest.exponent ≤ x.upperMidpoint := by
  have hsearch : ∃ k : Nat, k ≤ 17 ∧ x.onGrid? (x.leadingExponent + 1 - k) = some x.shortest.digits ∧
      x.shortest.exponent = x.leadingExponent + 1 - k :=
    shortestFrom_eq (by decide) (by decide) (exists_seventeen hx h)
  rcases hsearch with ⟨k, hk, hgrid, hexponent⟩
  rcases onGrid?_eq_some hgrid with ⟨_, hle, hfits⟩
  rw [hexponent]
  refine ⟨?_, hfits.le_upperMidpoint⟩
  calc x.shortest.digits ≤ x.below (x.leadingExponent + 1 - k) + 1 := hle
    _ ≤ 10 ^ k := below_lt h k
    _ ≤ 10 ^ 17 := Nat.pow_le_pow_right (by decide) hk

theorem shortestFrom_pos {x : Magnitude} (h : 0 < x.units) (leading : Int) (fuel count : Nat) :
    0 < (x.shortestFrom leading fuel count).digits := by
  induction fuel generalizing count with
  | zero => exact h
  | succ fuel ih =>
      rw [shortestFrom]
      cases hgrid : x.onGrid? (leading + 1 - count) with
      | some digits => exact (onGrid?_eq_some hgrid).1
      | none => exact ih (count + 1)

/-!
# The greatest magnitude

Its decimal is the greatest that can be read.  The intervals of all others end below that.
-/

theorem shortest_greatest :
    (⟨2 ^ mantissaBits - 1, greatestExponent⟩ : Magnitude).shortest =
      ⟨17976931348623157, 292⟩ := by
  decide +kernel

theorem upperMidpoint_le {x : Magnitude} (hx : x.Canonical)
    (hne : x ≠ ⟨2 ^ mantissaBits - 1, greatestExponent⟩) :
    x.upperMidpoint ≤ greatestDecimal * (4 * unitDen) := by
  have hlast : (4 * (2 ^ mantissaBits - 2) + 2) * 2 ^ greatestExponent ≤
      greatestDecimal * (4 * unitDen) := by decide +kernel
  refine Nat.le_trans ?_ hlast
  have hmidpoint : x.upperMidpoint = (4 * x.mantissa + 2) * 2 ^ x.exponent := by
    unfold upperMidpoint quarters units
    rw [Nat.add_mul, Nat.mul_assoc]
  have hmantissa := hx.mantissa_lt
  rw [hmidpoint]
  rcases Nat.lt_or_eq_of_le hx.exponent_le with hlt | heq
  · -- One exponent further down even the greatest mantissa stays below.
    have hhalf : 4 * x.mantissa + 2 ≤ (4 * (2 ^ mantissaBits - 2) + 2) * 2 := by
      unfold mantissaBits at hmantissa ⊢
      omega
    calc (4 * x.mantissa + 2) * 2 ^ x.exponent
        ≤ (4 * (2 ^ mantissaBits - 2) + 2) * 2 * 2 ^ x.exponent := Nat.mul_le_mul_right _ hhalf
      _ = (4 * (2 ^ mantissaBits - 2) + 2) * 2 ^ (x.exponent + 1) := by
          rw [Nat.mul_assoc, Nat.pow_succ']
      _ ≤ (4 * (2 ^ mantissaBits - 2) + 2) * 2 ^ greatestExponent :=
          Nat.mul_le_mul_left _ (Nat.pow_le_pow_right Nat.two_pos hlt)
  · have hmantissa : 4 * x.mantissa + 2 ≤ 4 * (2 ^ mantissaBits - 2) + 2 := by
      have hne' : x.mantissa ≠ 2 ^ mantissaBits - 1 := by
        intro hmax
        apply hne
        rcases x with ⟨mantissa, exponent⟩
        cases heq
        cases hmax
        rfl
      omega
    rw [heq]
    exact Nat.mul_le_mul_right _ hmantissa

theorem shortest_le {x : Magnitude} (hx : x.Canonical) (h : 0 < x.mantissa) :
    (x.shortest.digits : ℚ) * spacing x.shortest.exponent ≤
      (greatestDecimal * (4 * unitDen) : Nat) := by
  by_cases hgreatest : x = ⟨2 ^ mantissaBits - 1, greatestExponent⟩
  · have hgrid : ∀ digits n : Nat,
        (digits : ℚ) * spacing n ≤ (digits * 10 ^ n * (4 * unitDen) : Nat) := by
      intro digits n
      rw [spacing_natCast, Nat.mul_assoc]
      push_cast
      rfl
    rw [hgreatest, shortest_greatest]
    unfold greatestDecimal
    exact hgrid 17976931348623157 292
  · exact le_trans (shortest_spec hx h).2 (Nat.cast_le.mpr (upperMidpoint_le hx hgreatest))

end Magnitude

/-!
# Zeros at the end
-/

namespace Decimal

open Magnitude (spacing spacing_add greatestDecimal unitDen)

theorem trimZeros_pos (fuel : Nat) {d : Decimal} (h : 0 < d.digits) :
    0 < (trimZeros fuel d).digits := by
  induction fuel generalizing d with
  | zero => exact h
  | succ fuel ih =>
      rw [trimZeros]
      split
      · next hzero => exact ih (Nat.div_pos (Nat.le_of_dvd h (Nat.dvd_of_mod_eq_zero hzero.1)) (by decide))
      · exact h

theorem trimZeros_le (fuel : Nat) (d : Decimal) : (trimZeros fuel d).digits ≤ d.digits := by
  induction fuel generalizing d with
  | zero => exact Nat.le_refl _
  | succ fuel ih =>
      rw [trimZeros]
      split
      · exact Nat.le_trans (ih _) (Nat.div_le_self _ _)
      · exact Nat.le_refl _

theorem trimZeros_value (fuel : Nat) (d : Decimal) :
    ((trimZeros fuel d).digits : ℚ) * spacing (trimZeros fuel d).exponent =
      d.digits * spacing d.exponent := by
  induction fuel generalizing d with
  | zero => rfl
  | succ fuel ih =>
      rw [trimZeros]
      split
      · next hzero =>
          have hdigits : d.digits = d.digits / 10 * 10 :=
            (Nat.div_mul_cancel (Nat.dvd_of_mod_eq_zero hzero.1)).symm
          have hspacing : spacing (d.exponent + 1) = 10 ^ 1 * spacing d.exponent :=
            spacing_add d.exponent 1
          rw [ih, hspacing]
          nth_rewrite 2 [hdigits]
          rw [Nat.cast_mul]
          push_cast
          ring
      · rfl

end Decimal

def Magnitude.written (x : Magnitude) : Decimal :=
  Decimal.trimZeros 17 x.shortest

namespace Magnitude

theorem written_pos {x : Magnitude} (h : x.mantissa ≠ 0) : 0 < x.written.digits :=
  Decimal.trimZeros_pos 17 (shortestFrom_pos
    (Nat.mul_pos (Nat.pos_of_ne_zero h) (Nat.two_pow_pos _)) _ _ _)

theorem written_le {x : Magnitude} (hx : x.Canonical) (h : x.mantissa ≠ 0) :
    x.written.digits ≤ 10 ^ 17 :=
  Nat.le_trans (Decimal.trimZeros_le _ _) (shortest_spec hx (Nat.pos_of_ne_zero h)).1

theorem written_value_le {x : Magnitude} (hx : x.Canonical) (h : x.mantissa ≠ 0) {power : Nat}
    (hpower : x.written.exponent = power) : x.written.digits * 10 ^ power ≤ greatestDecimal := by
  have hle := shortest_le hx (Nat.pos_of_ne_zero h)
  rw [← Decimal.trimZeros_value 17] at hle
  change (x.written.digits : ℚ) * spacing x.written.exponent ≤ _ at hle
  have hunit : 0 < 4 * unitDen := Nat.mul_pos (by decide) unitDen_pos
  rw [hpower, ← point_le_iff] at hle
  change x.written.digits * (10 ^ power * (4 * unitDen)) ≤ greatestDecimal * (4 * unitDen) * 1 at hle
  rw [← Nat.mul_assoc, Nat.mul_one] at hle
  exact Nat.le_of_mul_le_mul_right hle hunit

end Magnitude
end Number
end WalletLedger
