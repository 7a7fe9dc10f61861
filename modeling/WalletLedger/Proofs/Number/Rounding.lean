import Mathlib
import WalletLedger.Number.Binary64

/-!
# Rounding keeps the order

A greater ratio is never rounded to a smaller magnitude.  So where the rounding of some
ratio is not beyond the greatest magnitude, that of a smaller one is not either, and the
few ratios that have to be rounded to know this are fixed numbers.
-/

namespace WalletLedger
namespace Number

/-!
# Whole numbers
-/

section

variable {num den num' den' k : Nat}

theorem le_roundRatio (hden : 0 < den) (h : k * den ≤ num) : k ≤ roundRatio num den := by
  have hwhole : k ≤ num / den := (Nat.le_div_iff_mul_le hden).mpr h
  unfold roundRatio
  simp only
  split_ifs <;> omega

theorem div_le_roundRatio (num den : Nat) : num / den ≤ roundRatio num den := by
  unfold roundRatio
  simp only
  split_ifs <;> omega

theorem roundRatio_le_succ (num den : Nat) : roundRatio num den ≤ num / den + 1 := by
  unfold roundRatio
  simp only
  split_ifs <;> omega

theorem roundRatio_le (hden : 0 < den) (h : num ≤ k * den) : roundRatio num den ≤ k := by
  rcases Nat.lt_or_eq_of_le h with hlt | heq
  · have hwhole : num / den < k := (Nat.div_lt_iff_lt_mul hden).mpr hlt
    exact Nat.le_trans (roundRatio_le_succ num den) hwhole
  · unfold roundRatio
    rw [heq, Nat.mul_mod_left, Nat.mul_div_cancel k hden, if_pos (by omega)]

theorem roundRatio_mono (hden : 0 < den) (hden' : 0 < den') (h : num * den' ≤ num' * den) :
    roundRatio num den ≤ roundRatio num' den' := by
  have hwhole : num / den ≤ num' / den' := by
    rw [Nat.le_div_iff_mul_le hden']
    refine Nat.le_of_mul_le_mul_right ?_ hden
    calc num / den * den' * den = num / den * den * den' := Nat.mul_right_comm ..
      _ ≤ num * den' := Nat.mul_le_mul_right den' (Nat.div_mul_le_self num den)
      _ ≤ num' * den := h
  rcases Nat.lt_or_eq_of_le hwhole with hlt | heq
  · exact Nat.le_trans (roundRatio_le_succ num den)
      (Nat.le_trans hlt (div_le_roundRatio num' den'))
  · have htwice : 2 * (num % den) * den' ≤ 2 * (num' % den') * den := by
      have hsum : num / den * den * den' + num % den * den' ≤
          num / den * den * den' + num' % den' * den := by
        calc num / den * den * den' + num % den * den'
            = num * den' := by rw [← Nat.add_mul, Nat.div_add_mod']
          _ ≤ num' * den := h
          _ = (num' / den' * den' + num' % den') * den := by rw [Nat.div_add_mod']
          _ = num / den * den * den' + num' % den' * den := by
              rw [Nat.add_mul, ← heq, Nat.mul_right_comm]
      rw [Nat.mul_assoc, Nat.mul_assoc]
      exact Nat.mul_le_mul_left 2 (Nat.le_of_add_le_add_left hsum)
    have hlt : den < 2 * (num % den) → den' < 2 * (num' % den') := by
      intro hup
      refine Nat.lt_of_mul_lt_mul_right (a := den) (Nat.lt_of_lt_of_le ?_ htwice)
      rw [Nat.mul_comm]
      exact Nat.mul_lt_mul_of_pos_right hup hden'
    have hle : den ≤ 2 * (num % den) → den' ≤ 2 * (num' % den') := by
      intro hup
      refine Nat.le_of_mul_le_mul_right (Nat.le_trans ?_ htwice) hden
      rw [Nat.mul_comm]
      exact Nat.mul_le_mul_right den' hup
    unfold roundRatio
    simp only [← heq]
    split_ifs <;> omega

end

/-!
# Magnitudes
-/

namespace Magnitude

theorem unitDen_pos : 0 < unitDen := by
  -- For any exponent, so that nobody tries to compute the power.
  have hpos : ∀ k : Nat, 0 < 2 ^ k := Nat.two_pow_pos
  exact hpos 1074

def shift (num den : Nat) : Nat :=
  excessBits (num * unitDen / den)

/-- The mantissa of a ratio before a carry is moved into its exponent. -/
def roundedMantissa (num den : Nat) : Nat :=
  roundRatio (num * unitDen) (den * 2 ^ shift num den)

/-- The magnitude that a ratio is rounded to, however great. -/
def rounded (num den : Nat) : Magnitude :=
  if roundedMantissa num den = 2 ^ mantissaBits then
    ⟨2 ^ (mantissaBits - 1), shift num den + 1⟩
  else
    ⟨roundedMantissa num den, shift num den⟩

def greatestUnits : Nat := (2 ^ mantissaBits - 1) * 2 ^ greatestExponent

/-- The mantissa has at most 53 bits, and fewer only at the least exponent. -/
structure Canonical (x : Magnitude) : Prop where
  mantissa_lt : x.mantissa < 2 ^ mantissaBits
  exponent_le : x.exponent ≤ greatestExponent
  le_mantissa : 0 < x.exponent → 2 ^ (mantissaBits - 1) ≤ x.mantissa

theorem Canonical.units_le {x : Magnitude} (h : x.Canonical) : x.units ≤ greatestUnits :=
  Nat.mul_le_mul (Nat.le_pred_of_lt h.mantissa_lt)
    (Nat.pow_le_pow_right Nat.two_pos h.exponent_le)

theorem lt_two_pow_excessBits (n : Nat) : n < 2 ^ (mantissaBits + excessBits n) := by
  unfold excessBits
  split
  · next hzero =>
      rw [hzero]
      exact Nat.two_pow_pos _
  · next hne =>
      refine (Nat.log2_lt hne).mp ?_
      omega

theorem two_pow_excessBits_le {n : Nat} (h : 0 < excessBits n) :
    2 ^ (mantissaBits - 1 + excessBits n) ≤ n := by
  unfold excessBits at h ⊢
  split at h
  · exact absurd h (Nat.lt_irrefl 0)
  · next hne =>
      rw [if_neg hne]
      refine (Nat.le_log2 hne).mp ?_
      unfold mantissaBits at h ⊢
      omega

theorem excessBits_mono {n m : Nat} (h : n ≤ m) : excessBits n ≤ excessBits m := by
  by_contra hnot
  have hlt := Nat.not_le.mp hnot
  have hn := two_pow_excessBits_le (Nat.lt_of_le_of_lt (Nat.zero_le _) hlt)
  have hm := lt_two_pow_excessBits m
  have hpow : 2 ^ (mantissaBits + excessBits m) ≤ 2 ^ (mantissaBits - 1 + excessBits n) :=
    Nat.pow_le_pow_right Nat.two_pos (by unfold mantissaBits; omega)
  omega

section

variable {num den num' den' : Nat}

theorem roundedMantissa_le (hden : 0 < den) : roundedMantissa num den ≤ 2 ^ mantissaBits := by
  have hpos : 0 < den * 2 ^ shift num den := Nat.mul_pos hden (Nat.two_pow_pos _)
  refine roundRatio_le hpos (Nat.le_of_lt ?_)
  have hlt := (Nat.div_lt_iff_lt_mul hden).mp (lt_two_pow_excessBits (num * unitDen / den))
  rw [Nat.pow_add] at hlt
  calc num * unitDen < 2 ^ mantissaBits * 2 ^ shift num den * den := hlt
    _ = 2 ^ mantissaBits * (den * 2 ^ shift num den) := by rw [Nat.mul_assoc, Nat.mul_comm den]

theorem le_roundedMantissa (hden : 0 < den) (hshift : 0 < shift num den) :
    2 ^ (mantissaBits - 1) ≤ roundedMantissa num den := by
  have hpos : 0 < den * 2 ^ shift num den := Nat.mul_pos hden (Nat.two_pow_pos _)
  refine le_roundRatio hpos ?_
  have hle := (Nat.le_div_iff_mul_le hden).mp (two_pow_excessBits_le hshift)
  rw [Nat.pow_add] at hle
  calc 2 ^ (mantissaBits - 1) * (den * 2 ^ shift num den)
      = 2 ^ (mantissaBits - 1) * 2 ^ shift num den * den := by
        rw [Nat.mul_assoc, Nat.mul_comm den]
    _ ≤ num * unitDen := hle

theorem shift_mono (hden : 0 < den) (hden' : 0 < den') (h : num * den' ≤ num' * den) :
    shift num den ≤ shift num' den' := by
  refine excessBits_mono ((Nat.le_div_iff_mul_le hden').mpr ?_)
  refine Nat.le_of_mul_le_mul_right ?_ hden
  calc num * unitDen / den * den' * den = num * unitDen / den * den * den' :=
        Nat.mul_right_comm ..
    _ ≤ num * unitDen * den' := Nat.mul_le_mul_right den' (Nat.div_mul_le_self _ den)
    _ = num * den' * unitDen := Nat.mul_right_comm ..
    _ ≤ num' * den * unitDen := Nat.mul_le_mul_right unitDen h
    _ = num' * unitDen * den := Nat.mul_right_comm ..

theorem units_rounded (num den : Nat) :
    (rounded num den).units = roundedMantissa num den * 2 ^ shift num den := by
  unfold rounded
  split
  · next hcarry =>
      rw [hcarry]
      change 2 ^ (mantissaBits - 1) * 2 ^ (shift num den + 1) = _
      rw [← Nat.pow_add, ← Nat.pow_add]
      congr 1
      unfold mantissaBits
      omega
  · rfl

theorem mantissa_rounded_lt (hden : 0 < den) :
    (rounded num den).mantissa < 2 ^ mantissaBits := by
  unfold rounded
  split
  · exact Nat.pow_lt_pow_right (by decide) (by decide)
  · next hcarry => exact Nat.lt_of_le_of_ne (roundedMantissa_le hden) hcarry

theorem le_mantissa_rounded (hden : 0 < den) (hexponent : 0 < (rounded num den).exponent) :
    2 ^ (mantissaBits - 1) ≤ (rounded num den).mantissa := by
  unfold rounded at hexponent ⊢
  split at hexponent
  · next hcarry =>
      rw [if_pos hcarry]
  · next hcarry =>
      rw [if_neg hcarry]
      exact le_roundedMantissa hden hexponent

/-- Rounding keeps the order of ratios. -/
theorem units_rounded_mono (hden : 0 < den) (hden' : 0 < den') (h : num * den' ≤ num' * den) :
    (rounded num den).units ≤ (rounded num' den').units := by
  rw [units_rounded, units_rounded]
  rcases Nat.lt_or_eq_of_le (shift_mono hden hden' h) with hlt | heq
  · -- The greater ratio has the greater exponent, and its mantissa is at least half of any.
    have hmantissa : 2 ^ (mantissaBits - 1) ≤ roundedMantissa num' den' :=
      le_roundedMantissa hden' (Nat.lt_of_le_of_lt (Nat.zero_le _) hlt)
    calc roundedMantissa num den * 2 ^ shift num den
        ≤ 2 ^ mantissaBits * 2 ^ shift num den := Nat.mul_le_mul_right _ (roundedMantissa_le hden)
      _ = 2 ^ (mantissaBits - 1) * 2 ^ (shift num den + 1) := by
          rw [← Nat.pow_add, ← Nat.pow_add]
          congr 1
          unfold mantissaBits
          omega
      _ ≤ roundedMantissa num' den' * 2 ^ shift num' den' :=
          Nat.mul_le_mul hmantissa (Nat.pow_le_pow_right Nat.two_pos hlt)
  · unfold roundedMantissa
    rw [← heq]
    refine Nat.mul_le_mul_right _ (roundRatio_mono ?_ ?_ ?_)
    · exact Nat.mul_pos hden (Nat.two_pow_pos _)
    · exact Nat.mul_pos hden' (Nat.two_pow_pos _)
    · calc num * unitDen * (den' * 2 ^ shift num den)
          = num * den' * (unitDen * 2 ^ shift num den) := Nat.mul_mul_mul_comm ..
        _ ≤ num' * den * (unitDen * 2 ^ shift num den) := Nat.mul_le_mul_right _ h
        _ = num' * unitDen * (den * 2 ^ shift num den) := Nat.mul_mul_mul_comm ..

theorem ofRatio?_eq (num den : Nat) : ofRatio? num den =
    if (rounded num den).exponent ≤ greatestExponent then some (rounded num den) else none := rfl

/-- A magnitude beyond the greatest exponent is greater than the greatest magnitude. -/
theorem exponent_rounded_le_iff (hden : 0 < den) :
    (rounded num den).exponent ≤ greatestExponent ↔ (rounded num den).units ≤ greatestUnits := by
  constructor
  · intro h
    exact Nat.mul_le_mul (Nat.le_pred_of_lt (mantissa_rounded_lt hden))
      (Nat.pow_le_pow_right Nat.two_pos h)
  · intro h
    by_contra hnot
    have hlt : greatestExponent + 1 ≤ (rounded num den).exponent := Nat.not_le.mp hnot
    have hmantissa := le_mantissa_rounded hden (Nat.lt_of_lt_of_le (Nat.succ_pos _) hlt)
    have hle : 2 ^ (mantissaBits - 1) * 2 ^ (greatestExponent + 1) ≤ (rounded num den).units :=
      Nat.mul_le_mul hmantissa (Nat.pow_le_pow_right Nat.two_pos hlt)
    have hgreatest : ∀ e : Nat,
        (2 ^ mantissaBits - 1) * 2 ^ e < 2 ^ (mantissaBits - 1) * 2 ^ (e + 1) := by
      intro e
      rw [Nat.pow_succ', ← Nat.mul_assoc]
      exact Nat.mul_lt_mul_of_pos_right (by decide) (Nat.two_pow_pos e)
    exact absurd (Nat.le_trans hle h) (Nat.not_le.mpr (hgreatest greatestExponent))

theorem ofRatio?_eq_some (hden : 0 < den) {x : Magnitude} (h : ofRatio? num den = some x) :
    x.Canonical ∧ x = rounded num den := by
  rw [ofRatio?_eq] at h
  split at h
  · next hexponent =>
      cases h
      exact ⟨⟨mantissa_rounded_lt hden, hexponent, le_mantissa_rounded hden⟩, rfl⟩
  · cases h

theorem isSome_ofRatio?_iff (hden : 0 < den) :
    (ofRatio? num den).isSome ↔ (rounded num den).units ≤ greatestUnits := by
  rw [ofRatio?_eq, ← exponent_rounded_le_iff hden]
  split
  · next h => exact iff_of_true rfl h
  · next h => exact iff_of_false Bool.false_ne_true h

theorem ofRatio?_of_le (hden : 0 < den) (hden' : 0 < den') (h : num * den' ≤ num' * den)
    {bound : Magnitude} (hbound : ofRatio? num' den' = some bound) :
    ∃ x, ofRatio? num den = some x ∧ x.Canonical ∧ x.units ≤ bound.units := by
  have hmono := units_rounded_mono hden hden' h
  rcases ofRatio?_eq_some hden' hbound with ⟨hcanonical, rfl⟩
  have hsome := (isSome_ofRatio?_iff hden).mpr (Nat.le_trans hmono hcanonical.units_le)
  rcases Option.isSome_iff_exists.mp hsome with ⟨x, hx⟩
  rcases ofRatio?_eq_some hden hx with ⟨hx', rfl⟩
  exact ⟨_, hx, hx', hmono⟩

end

/-!
# Decimals that are read

Digits that make a word are rounded, and so is every power of ten up to the greatest.  A
quotient by a power of ten is never beyond the greatest magnitude.  A product is not while the
decimal is at most the greatest one here; the next one with seventeen digits is beyond it.
-/

def greatestDecimal : Nat := 17976931348623157 * 10 ^ 292

/-- The ratios that are rounded in order to know the others. -/
theorem fixed_ratios :
    (rounded 1 1).units = unitDen ∧ (ofRatio? (10 ^ greatestTenPower) 1).isSome ∧
      (ofRatio? greatestUnits unitDen).isSome := by
  decide +kernel

theorem exists_tenPower {power : Nat} (h : power ≤ greatestTenPower) :
    ∃ y, ofRatio? (10 ^ power) 1 = some y ∧ y.Canonical ∧ unitDen ≤ y.units := by
  rcases fixed_ratios with ⟨hone, hgreatest, _⟩
  rcases Option.isSome_iff_exists.mp hgreatest with ⟨bound, hbound⟩
  have hle : 10 ^ power * 1 ≤ 10 ^ greatestTenPower * 1 :=
    Nat.mul_le_mul_right 1 (Nat.pow_le_pow_right (by decide) h)
  rcases ofRatio?_of_le Nat.one_pos Nat.one_pos hle hbound with ⟨y, hy, hcanonical, _⟩
  refine ⟨y, hy, hcanonical, ?_⟩
  rw [(ofRatio?_eq_some Nat.one_pos hy).2, ← hone]
  refine units_rounded_mono Nat.one_pos Nat.one_pos (Nat.mul_le_mul_right 1 ?_)
  exact Nat.one_le_pow _ _ (by decide)

theorem exists_div? {x y : Magnitude} (hx : x.units ≤ greatestUnits) (hy : unitDen ≤ y.units) :
    ∃ z, x.div? y = some z ∧ z.Canonical := by
  rcases Option.isSome_iff_exists.mp fixed_ratios.2.2 with ⟨bound, hbound⟩
  have hpos : 0 < y.units := Nat.lt_of_lt_of_le unitDen_pos hy
  rcases ofRatio?_of_le hpos unitDen_pos (Nat.mul_le_mul hx hy) hbound with ⟨z, hz, hcanonical, _⟩
  exact ⟨z, hz, hcanonical⟩

theorem exists_divTenPower (fuel : Nat) {x : Magnitude} (hx : x.Canonical) (power : Nat) :
    ∃ z, divTenPower fuel x power = some z ∧ z.Canonical := by
  induction fuel generalizing x power with
  | zero => exact ⟨x, rfl, hx⟩
  | succ fuel ih =>
      rw [divTenPower]
      by_cases hle : power ≤ greatestTenPower
      · rcases exists_tenPower hle with ⟨y, hy, _, hunits⟩
        rw [if_pos hle, hy, Option.bind_some]
        exact exists_div? hx.units_le hunits
      · rw [if_neg hle]
        by_cases hzero : x.mantissa = 0
        · rw [if_pos hzero]
          exact ⟨x, rfl, hx⟩
        · rcases exists_tenPower (Nat.le_refl greatestTenPower) with ⟨y, hy, _, hunits⟩
          rcases exists_div? hx.units_le hunits with ⟨z, hz, hcanonical⟩
          rw [if_neg hzero, hy, Option.bind_some, hz, Option.bind_some]
          exact ih hcanonical _

theorem exists_word {digits : Nat} (h : digits < 2 ^ 64) :
    ∃ x, ofRatio? digits 1 = some x ∧ x.Canonical := by
  rcases exists_tenPower (show 64 ≤ greatestTenPower by decide) with ⟨bound, hbound, _⟩
  have hle : digits ≤ 10 ^ 64 :=
    Nat.le_trans (Nat.le_of_lt h) (Nat.pow_le_pow_left (by decide) 64)
  rcases ofRatio?_of_le Nat.one_pos Nat.one_pos (Nat.mul_le_mul_right 1 hle) hbound with
    ⟨x, hx, hcanonical, _⟩
  exact ⟨x, hx, hcanonical⟩

theorem ofDecimal?_natCast (digits power : Nat) :
    ofDecimal? digits power = (ofRatio? digits 1).bind fun x =>
      if power ≤ greatestTenPower then (ofRatio? (10 ^ power) 1).bind x.mul?
      else if x.mantissa = 0 then some x
      else none := rfl

theorem ofDecimal?_negSucc (digits n : Nat) :
    ofDecimal? digits (.negSucc n) = (ofRatio? digits 1).bind fun x => divTenPower 4 x (n + 1) :=
  rfl

theorem canonical_ofDecimal? {digits : Nat} {exponent : Int} {x : Magnitude}
    (h : ofDecimal? digits exponent = some x) : x.Canonical := by
  cases exponent with
  | ofNat power =>
      rw [Int.ofNat_eq_natCast, ofDecimal?_natCast] at h
      rcases Option.bind_eq_some_iff.mp h with ⟨y, hy, h⟩
      by_cases hle : power ≤ greatestTenPower
      · rw [if_pos hle] at h
        rcases Option.bind_eq_some_iff.mp h with ⟨z, _, h⟩
        exact (ofRatio?_eq_some (Nat.mul_pos unitDen_pos unitDen_pos) h).1
      · rw [if_neg hle] at h
        by_cases hzero : y.mantissa = 0
        · rw [if_pos hzero] at h
          cases h
          exact (ofRatio?_eq_some Nat.one_pos hy).1
        · rw [if_neg hzero] at h
          cases h
  | negSucc n =>
      rw [ofDecimal?_negSucc] at h
      rcases Option.bind_eq_some_iff.mp h with ⟨y, hy, h⟩
      rcases exists_divTenPower 4 (ofRatio?_eq_some Nat.one_pos hy).1 (n + 1) with ⟨z, hz, hz'⟩
      cases hz.symm.trans h
      exact hz'

theorem exists_ofDecimal?_of_neg {digits : Nat} (hdigits : digits < 2 ^ 64) {exponent : Int}
    (h : exponent < 0) : ∃ x, ofDecimal? digits exponent = some x := by
  rcases exists_word hdigits with ⟨y, hy, hcanonical⟩
  cases exponent with
  | ofNat power => exact absurd h (Int.not_lt.mpr (Int.natCast_nonneg power))
  | negSucc n =>
      rcases exists_divTenPower 4 hcanonical (n + 1) with ⟨z, hz, _⟩
      rw [ofDecimal?_negSucc, hy]
      exact ⟨z, hz⟩

/-- A decimal can be read if one with more digits and a greater exponent can. -/
theorem exists_ofDecimal?_of_le {digits power digits' power' : Nat} (hdigits : digits ≤ digits')
    (hpower : power ≤ power') (hgreatest : power' ≤ greatestTenPower)
    (h : (ofDecimal? digits' power').isSome) : ∃ x, ofDecimal? digits power = some x := by
  have hpow : 10 ^ power * 1 ≤ 10 ^ power' * 1 :=
    Nat.mul_le_mul_right 1 (Nat.pow_le_pow_right (by decide) hpower)
  rcases Option.isSome_iff_exists.mp h with ⟨z', h⟩
  rw [ofDecimal?_natCast] at h
  rcases Option.bind_eq_some_iff.mp h with ⟨x', hx', h⟩
  rw [if_pos hgreatest] at h
  rcases Option.bind_eq_some_iff.mp h with ⟨y', hy', h⟩
  rcases ofRatio?_of_le Nat.one_pos Nat.one_pos (Nat.mul_le_mul_right 1 hdigits) hx' with
    ⟨x, hx, _, hxle⟩
  rcases ofRatio?_of_le Nat.one_pos Nat.one_pos hpow hy' with ⟨y, hy, _, hyle⟩
  have hpos : 0 < unitDen * unitDen := Nat.mul_pos unitDen_pos unitDen_pos
  rcases ofRatio?_of_le hpos hpos (Nat.mul_le_mul_right _ (Nat.mul_le_mul hxle hyle)) h with
    ⟨z, hz, _, _⟩
  refine ⟨z, ?_⟩
  rw [ofDecimal?_natCast, hx, Option.bind_some, if_pos (Nat.le_trans hpower hgreatest), hy,
    Option.bind_some]
  exact hz

/-- The greatest decimals of seventeen digits or fewer that can be read. -/
theorem fixed_decimals : (ofDecimal? (10 ^ 17) 291).isSome ∧ ∀ k : Fin 17,
    (ofDecimal? (greatestDecimal / 10 ^ (292 + k.val)) ((292 + k.val : Nat) : Int)).isSome := by
  decide +kernel

theorem exists_ofDecimal? {digits power : Nat} (hpos : 0 < digits) (hdigits : digits ≤ 10 ^ 17)
    (h : digits * 10 ^ power ≤ greatestDecimal) : ∃ x, ofDecimal? digits power = some x := by
  have hpower : power ≤ greatestTenPower := by
    by_contra hnot
    have hbeyond : ∀ n : Nat, n + 17 ≤ power → 17976931348623157 * 10 ^ n < 10 ^ power := by
      intro n hn
      refine Nat.lt_of_lt_of_le ?_ (Nat.pow_le_pow_right (by decide) hn)
      rw [Nat.pow_add, Nat.mul_comm]
      exact Nat.mul_lt_mul_of_pos_left (by decide) (Nat.pow_pos (by decide))
    have hle : 10 ^ power ≤ greatestDecimal := Nat.le_trans (Nat.le_mul_of_pos_left _ hpos) h
    unfold greatestDecimal at hle
    exact absurd hle (Nat.not_le.mpr (hbeyond 292 (Nat.not_le.mp hnot)))
  by_cases hsmall : power ≤ 291
  · exact exists_ofDecimal?_of_le hdigits hsmall (by decide) fixed_decimals.1
  · have hle : digits ≤ greatestDecimal / 10 ^ power :=
      (Nat.le_div_iff_mul_le (Nat.pow_pos (by decide))).mpr h
    have hk := fixed_decimals.2 ⟨power - 292, by unfold greatestTenPower at hpower; omega⟩
    rw [show 292 + (power - 292) = power by omega] at hk
    exact exists_ofDecimal?_of_le hle (Nat.le_refl power) hpower hk

end Magnitude
end Number
end WalletLedger
