import WalletLedger.Proofs.Json.Leaves

/-!
# Numbers that were written

A number is written as digits, perhaps with a point and an exponent behind them.  Both
scanners find the end of such a text, and the reader makes its value of all the digits and
of where the point stands.
-/

namespace WalletLedger
namespace Json

/-!
# Ends
-/

/-- The text is at its end or goes on with a separator. -/
def EndsValue : List Char → Prop
  | [] => True
  | c :: _ => c = ',' ∨ c = ']' ∨ c = '\x7d'

theorem endsValue_comma (rest : List Char) : EndsValue (',' :: rest) := .inl rfl

theorem endsValue_bracket (rest : List Char) : EndsValue (']' :: rest) := .inr (.inl rfl)

theorem endsValue_brace (rest : List Char) : EndsValue ('\x7d' :: rest) := .inr (.inr rfl)

theorem startsWithDigit_of_ends {rest : List Char} (h : EndsValue rest) :
    startsWithDigit rest = false := by
  cases rest with
  | nil => rfl
  | cons c rest => rcases h with rfl | rfl | rfl <;> rfl

theorem startsExponent_of_ends {rest : List Char} (h : EndsValue rest) :
    startsExponent rest = false := by
  cases rest with
  | nil => rfl
  | cons c rest => rcases h with rfl | rfl | rfl <;> rfl

/-!
# Runs of digits
-/

section

variable {ds rest : List Char}

theorem gatherDigits_append {n : Nat} (hdigits : ∀ d ∈ ds, d.isDigit = true)
    (hlimit : Nat.ofDigitChars 10 ds n ≤ wordLimit) (hrest : startsWithDigit rest = false) :
    gatherDigits n (ds ++ rest) = (Nat.ofDigitChars 10 ds n, rest) := by
  induction ds generalizing n with
  | nil =>
      cases rest with
      | nil => rfl
      | cons c rest =>
          have hc : c.isDigit = false := hrest
          simp [gatherDigits, hc]
  | cons d ds ih =>
      rw [Nat.ofDigitChars_cons] at hlimit ⊢
      have hd := hdigits d List.mem_cons_self
      have hle := Nat.le_trans (Text.le_ofDigitChars ds _) hlimit
      rw [Nat.mul_comm] at hle hlimit ⊢
      rw [List.cons_append, gatherDigits, if_pos]
      · exact ih (fun c hc => hdigits c (List.mem_cons_of_mem d hc)) hlimit
      · rw [hd, Bool.true_and]
        exact decide_eq_true hle

theorem span_digits_none (hrest : startsWithDigit rest = false) :
    rest.takeWhile Char.isDigit = [] ∧ dropDigits rest = rest := by
  cases rest with
  | nil => exact ⟨rfl, rfl⟩
  | cons c rest =>
      have hc : ¬ c.isDigit = true := Bool.eq_false_iff.mp hrest
      exact ⟨List.takeWhile_cons_of_neg hc, List.dropWhile_cons_of_neg hc⟩

theorem span_digits_append (hdigits : ∀ d ∈ ds, d.isDigit = true)
    (hrest : startsWithDigit rest = false) :
    (ds ++ rest).takeWhile Char.isDigit = ds ∧ dropDigits (ds ++ rest) = rest := by
  rcases span_digits_none hrest with ⟨htake, hdrop⟩
  constructor
  · rw [List.takeWhile_append_of_pos hdigits, htake, List.append_nil]
  · unfold dropDigits at hdrop ⊢
    rw [List.dropWhile_append_of_pos hdigits, hdrop]

theorem startsWithDigit_append (hne : ds ≠ []) (hdigits : ∀ d ∈ ds, d.isDigit = true) :
    startsWithDigit (ds ++ rest) = true := by
  cases ds with
  | nil => exact absurd rfl hne
  | cons d ds => exact hdigits d List.mem_cons_self

end

/-!
# Numerals
-/

structure Numeral where
  whole : List Char
  /-- The digits behind the point; without any there is no point. -/
  places : List Char := []
  /-- The digits of the exponent, and whether it is below zero. -/
  exponent : Option (Bool × List Char) := none

namespace Numeral

/-- What follows the digits, in front of `rest`. -/
def tail (n : Numeral) (rest : List Char) : List Char :=
  match n.exponent with
  | none => rest
  | some (down, digits) => 'e' :: (if down then '-' else '+') :: (digits ++ rest)

def behindWhole (n : Numeral) (rest : List Char) : List Char :=
  if n.places = [] then n.tail rest else '.' :: (n.places ++ n.tail rest)

def text (n : Numeral) (rest : List Char) : List Char :=
  n.whole ++ n.behindWhole rest

/-- Only digits, and some where there have to be any; no zero in front of other digits. -/
structure WellFormed (n : Numeral) : Prop where
  whole : ∀ c ∈ n.whole, c.isDigit = true
  leading : ∃ c ds, n.whole = c :: ds ∧ (c = '0' → ds = [])
  places : ∀ c ∈ n.places, c.isDigit = true
  exponent : ∀ down digits, n.exponent = some (down, digits) →
    digits ≠ [] ∧ ∀ c ∈ digits, c.isDigit = true

def digits (n : Numeral) : Nat :=
  Nat.ofDigitChars 10 (n.whole ++ n.places) 0

/-- How far the exponent moves the point. -/
def shift (n : Numeral) : Int :=
  match n.exponent with
  | none => 0
  | some (false, digits) => Nat.ofDigitChars 10 digits 0
  | some (true, digits) => -Nat.ofDigitChars 10 digits 0

def power (n : Numeral) : Int :=
  n.shift - n.places.length

variable {n : Numeral} {rest : List Char}

theorem startsWithDigit_tail (hrest : EndsValue rest) :
    startsWithDigit (n.tail rest) = false := by
  unfold tail
  split
  · exact startsWithDigit_of_ends hrest
  · rfl

theorem startsExponent_tail {e : Bool × List Char} (h : n.exponent = some e) :
    startsExponent (n.tail rest) = true := by
  rcases e with ⟨down, ds⟩
  rw [tail, h]
  rfl

theorem startsWithDigit_behindWhole (hrest : EndsValue rest) :
    startsWithDigit (n.behindWhole rest) = false := by
  unfold behindWhole
  split
  · exact startsWithDigit_tail hrest
  · rfl

theorem signedDigits {digits : List Char} (hne : digits ≠ [])
    (hdigits : ∀ c ∈ digits, c.isDigit = true) (hrest : EndsValue rest) :
    startsWithDigit (digits ++ rest) = true ∧ (digits ++ rest).isEmpty = false ∧
      (digits ++ rest).takeWhile Char.isDigit = digits ∧ dropDigits (digits ++ rest) = rest := by
  have hspan := span_digits_append hdigits (startsWithDigit_of_ends hrest)
  refine ⟨startsWithDigit_append hne hdigits, ?_, hspan.1, hspan.2⟩
  cases digits with
  | nil => exact absurd rfl hne
  | cons c cs => rfl

/-!
# Skipping
-/

theorem skip_tail (h : n.WellFormed) (hrest : EndsValue rest) :
    (if startsExponent (n.tail rest) then skipExponent ((n.tail rest).drop 1)
      else .ok (n.tail rest)) = .ok rest := by
  unfold tail
  split
  · rw [startsExponent_of_ends hrest, if_neg Bool.false_ne_true]
  · next down digits hexponent =>
      rcases h.exponent down digits hexponent with ⟨hne, hdigits⟩
      rcases signedDigits hne hdigits hrest with ⟨hstarts, _, _, hdrop⟩
      -- The sign is looked at and passed over, whichever it is.
      cases down
      all_goals
        change (if startsWithDigit (digits ++ rest) then Except.ok (dropDigits (digits ++ rest))
          else _) = _
        rw [if_pos hstarts, hdrop]

/-- Behind the whole part stands a point with places, or what stands behind all digits. -/
theorem behindWhole_cases (n : Numeral) (rest : List Char) :
    (n.places = [] ∧ n.behindWhole rest = n.tail rest) ∨
      (n.places ≠ [] ∧ n.behindWhole rest = '.' :: (n.places ++ n.tail rest)) := by
  unfold behindWhole
  split
  · next h => exact .inl ⟨h, rfl⟩
  · next h => exact .inr ⟨h, rfl⟩

theorem tail_ne_point (n : Numeral) (hrest : EndsValue rest) (cs : List Char) :
    n.tail rest ≠ '.' :: cs := by
  unfold tail
  split
  · intro heq
    rw [heq] at hrest
    rcases hrest with h | h | h <;> exact absurd h (by decide)
  · exact fun heq => absurd (List.cons.inj heq).1 (by decide)

theorem skip_behindWhole (h : n.WellFormed) (hrest : EndsValue rest) :
    skipUnsignedNumber.behindWhole (n.behindWhole rest) = .ok rest := by
  rcases n.behindWhole_cases rest with ⟨_, heq⟩ | ⟨hne, heq⟩
  · rw [heq, skipUnsignedNumber.behindWhole]
    · exact skip_tail h hrest
    · exact n.tail_ne_point hrest
  · have hspan := span_digits_append h.places (startsWithDigit_tail (n := n) hrest)
    rw [heq]
    change skipPlaces _ = _
    rw [skipPlaces, if_pos (startsWithDigit_append hne h.places), hspan.2]
    exact skip_tail h hrest

theorem skip_text (h : n.WellFormed) (hrest : EndsValue rest) :
    skipUnsignedNumber (n.text rest) = .ok rest := by
  have hbehind := startsWithDigit_behindWhole (n := n) hrest
  rcases h.leading with ⟨c, ds, hwhole, hzero⟩
  by_cases hc : c = '0'
  · have htext : n.text rest = '0' :: n.behindWhole rest := by
      rw [text, hwhole, hzero hc, hc]
      rfl
    rw [htext, skipUnsignedNumber, hbehind, if_neg Bool.false_ne_true]
    exact skip_behindWhole h hrest
  · have hdrop := (span_digits_append h.whole hbehind).2
    have hne : n.whole ≠ [] := hwhole ▸ List.cons_ne_nil c ds
    have hstarts : startsWithDigit (n.whole ++ n.behindWhole rest) = true :=
      startsWithDigit_append hne h.whole
    change skipUnsignedNumber (n.whole ++ n.behindWhole rest) = _
    rw [skipUnsignedNumber, if_pos hstarts, hdrop]
    · exact skip_behindWhole h hrest
    · intro cs heq
      rw [hwhole] at heq
      exact hc (List.cons.inj heq).1

/-!
# Reading

What the digits are rounded to does not matter here, and nobody should try to compute it.
-/

section

attribute [local irreducible] fraction

def With (rest : List Char) (r : Except Fault Json) : Except Fault (Json × List Char) := do
  let value ← r
  .ok (value, rest)

theorem readExponent_signed {ds : List Char} (hne : ds ≠ [])
    (hdigits : ∀ c ∈ ds, c.isDigit = true) (hrest : EndsValue rest) (isNegative : Bool)
    (digits : Nat) (power : Int) (down : Bool) :
    readExponent isNegative digits power ((if down then '-' else '+') :: (ds ++ rest)) =
      With rest (fraction isNegative digits
        (if down then power - Nat.ofDigitChars 10 ds 0 else power + Nat.ofDigitChars 10 ds 0)) := by
  rcases signedDigits hne hdigits hrest with ⟨hstarts, hempty, htake, hdrop⟩
  cases down
  · rw [if_neg Bool.false_ne_true, if_neg Bool.false_ne_true, readExponent]
    simp only [hempty, hstarts, htake, hdrop]
    rfl
  · rw [if_pos rfl, if_pos rfl, readExponent]
    simp only [hempty, hstarts, htake, hdrop]
    rfl

theorem shift_of_exponent {down : Bool} {ds : List Char} (h : n.exponent = some (down, ds))
    (power : Int) : power + n.shift =
      if down then power - Nat.ofDigitChars 10 ds 0 else power + Nat.ofDigitChars 10 ds 0 := by
  rw [shift, h]
  cases down with
  | false => rfl
  | true => exact (Int.sub_eq_add_neg ..).symm

theorem read_tail (h : n.WellFormed) (hrest : EndsValue rest) (isNegative : Bool) (digits : Nat)
    (power : Int) :
    (if startsExponent (n.tail rest) then
      readExponent isNegative digits power ((n.tail rest).drop 1)
    else
      With (n.tail rest) (fraction isNegative digits power)) =
      With rest (fraction isNegative digits (power + n.shift)) := by
  cases hexponent : n.exponent with
  | none =>
      have htail : n.tail rest = rest := by rw [tail, hexponent]
      have hshift : n.shift = 0 := by rw [shift, hexponent]
      rw [htail, hshift, startsExponent_of_ends hrest, if_neg Bool.false_ne_true, Int.add_zero]
  | some e =>
      rcases e with ⟨down, ds⟩
      rcases h.exponent down ds hexponent with ⟨hne, hdigits⟩
      have htail : n.tail rest = 'e' :: (if down then '-' else '+') :: (ds ++ rest) := by
        rw [tail, hexponent]
      rw [if_pos (startsExponent_tail hexponent), htail, List.drop_one, List.tail_cons,
        readExponent_signed hne hdigits hrest, shift_of_exponent hexponent]

theorem readPlaces_text (h : n.WellFormed) (hne : n.places ≠ []) (hrest : EndsValue rest)
    (isNegative : Bool) {digits : Nat} (hlimit : Nat.ofDigitChars 10 n.places digits ≤ wordLimit) :
    readPlaces isNegative digits 0 (n.places ++ n.tail rest) =
      With rest (fraction isNegative (Nat.ofDigitChars 10 n.places digits) n.power) := by
  have htail := startsWithDigit_tail (n := n) hrest
  have hgather := gatherDigits_append h.places hlimit htail
  have hstarts : startsWithDigit (n.places ++ n.tail rest) = true :=
    startsWithDigit_append hne h.places
  have hdrop := (span_digits_none htail).2
  have hplaces : (0 : Int) - (((n.places ++ n.tail rest).length : Int) - (n.tail rest).length) =
      -n.places.length := by
    rw [List.length_append]
    omega
  have hpower : n.power = -n.places.length + n.shift := by
    unfold power
    omega
  rw [hpower, ← read_tail h hrest]
  unfold readPlaces
  simp only [hgather, hdrop, hplaces]
  rw [if_pos hstarts]
  rfl

def value (n : Numeral) (isNegative : Bool) : Except Fault Json :=
  if n.places = [] ∧ n.exponent = none then wholeNumber isNegative n.digits
  else fraction isNegative n.digits n.power

theorem read_behindWhole (h : n.WellFormed) (hrest : EndsValue rest) (isNegative : Bool)
    (hlimit : n.digits ≤ wordLimit) :
    readUnsignedNumber.behindWhole isNegative (Nat.ofDigitChars 10 n.whole 0) (n.behindWhole rest)
      0 = With rest (n.value isNegative) := by
  unfold digits at hlimit
  rw [Nat.ofDigitChars_append] at hlimit
  unfold value digits
  rw [Nat.ofDigitChars_append]
  rcases n.behindWhole_cases rest with ⟨hnone, heq⟩ | ⟨hne, heq⟩
  · have hpower : n.power = 0 + n.shift := by
      unfold power
      rw [hnone, List.length_nil]
      omega
    rw [heq, hnone, Nat.ofDigitChars_nil, hpower, readUnsignedNumber.behindWhole]
    · cases hexponent : n.exponent with
      | none =>
          have htail : n.tail rest = rest := by rw [tail, hexponent]
          rw [htail, startsExponent_of_ends hrest, if_neg Bool.false_ne_true,
            if_neg (Nat.lt_irrefl 0), if_pos ⟨rfl, rfl⟩]
          rfl
      | some e =>
          have hboth : ¬ (([] : List Char) = [] ∧ some e = none) := fun h => Option.some_ne_none e h.2
          have hstarts : startsExponent (n.tail rest) = true := startsExponent_tail hexponent
          rw [if_neg hboth, ← read_tail h hrest, if_pos hstarts, if_pos hstarts]
          rfl
    · exact n.tail_ne_point hrest
  · rw [heq, if_neg fun hnone => hne hnone.1]
    exact readPlaces_text h hne hrest isNegative hlimit

/-- A number with digits for a word is read as its value, and nothing behind it is. -/
theorem read_text (h : n.WellFormed) (hrest : EndsValue rest) (isNegative : Bool)
    (hlimit : n.digits ≤ wordLimit) :
    readUnsignedNumber isNegative (n.text rest) = With rest (n.value isNegative) := by
  have hbehind := startsWithDigit_behindWhole (n := n) hrest
  have hread := read_behindWhole h hrest isNegative hlimit
  rcases h.leading with ⟨c, ds, hwhole, hzero⟩
  by_cases hc : c = '0'
  · have htext : n.text rest = '0' :: n.behindWhole rest := by
      rw [text, hwhole, hzero hc, hc]
      rfl
    have hnothing : Nat.ofDigitChars 10 n.whole 0 = 0 := by
      rw [hwhole, hzero hc, hc]
      rfl
    rw [hnothing] at hread
    rw [htext, readUnsignedNumber, hbehind, if_neg Bool.false_ne_true, hread]
  · have hlimit' : Nat.ofDigitChars 10 n.whole 0 ≤ wordLimit := by
      unfold digits at hlimit
      rw [Nat.ofDigitChars_append] at hlimit
      exact Nat.le_trans (Text.le_ofDigitChars _ _) hlimit
    have hgather := gatherDigits_append h.whole hlimit' hbehind
    have hdigit : c.isDigit = true := h.whole c (hwhole ▸ List.mem_cons_self)
    have hnone : leadingDigits (n.behindWhole rest) = 0 :=
      congrArg List.length (span_digits_none hbehind).1
    change readUnsignedNumber isNegative (n.whole ++ n.behindWhole rest) = _
    rw [hwhole, List.cons_append] at hgather ⊢
    rw [readUnsignedNumber, if_pos hdigit, hgather]
    · simp only [hnone]
      rw [if_neg (Nat.lt_irrefl 0), ← hwhole, hread]
    · exact hc

end

/-!
# Signs
-/

def signed (n : Numeral) (isNegative : Bool) (rest : List Char) : List Char :=
  if isNegative then '-' :: n.text rest else n.text rest

theorem text_ne_minus (h : n.WellFormed) (cs : List Char) : n.text rest ≠ '-' :: cs := by
  rcases h.leading with ⟨c, ds, hwhole, _⟩
  have hdigit : c.isDigit = true := h.whole c (hwhole ▸ List.mem_cons_self)
  rw [text, hwhole]
  intro heq
  rw [(List.cons.inj heq).1] at hdigit
  exact absurd hdigit (by decide)

theorem readNumber_signed (h : n.WellFormed) (hrest : EndsValue rest) (isNegative : Bool)
    (hlimit : n.digits ≤ wordLimit) :
    readNumber (n.signed isNegative rest) = With rest (n.value isNegative) := by
  cases isNegative with
  | false =>
      change readNumber (n.text rest) = _
      rw [readNumber]
      · exact read_text h hrest false hlimit
      · exact text_ne_minus h
  | true => exact read_text h hrest true hlimit

theorem skipNumber_signed (h : n.WellFormed) (hrest : EndsValue rest) (isNegative : Bool) :
    skipNumber (n.signed isNegative rest) = .ok rest := by
  cases isNegative with
  | false =>
      change skipNumber (n.text rest) = _
      rw [skipNumber]
      · exact skip_text h hrest
      · exact text_ne_minus h
  | true => exact skip_text h hrest

theorem text_append (n : Numeral) (rest : List Char) : n.text rest = n.text [] ++ rest := by
  unfold text behindWhole tail
  cases n.exponent with
  | none => split <;> simp
  | some e => split <;> simp

theorem signed_eq_cons (h : n.WellFormed) (isNegative : Bool) (rest : List Char) :
    ∃ c cs, n.signed isNegative rest = c :: (cs ++ rest) ∧ (c = '-' ∨ c.isDigit = true) := by
  rcases h.leading with ⟨c, ds, hwhole, _⟩
  have hdigit : c.isDigit = true := h.whole c (hwhole ▸ List.mem_cons_self)
  cases isNegative with
  | false =>
      refine ⟨c, ds ++ n.behindWhole [], ?_, .inr hdigit⟩
      change n.text rest = _
      rw [text_append, text, hwhole]
      rfl
  | true =>
      refine ⟨'-', n.text [], ?_, .inl rfl⟩
      rw [← text_append]
      rfl

end Numeral

/-!
# Whole numbers
-/

def Numeral.ofNat (n : Nat) : Numeral :=
  { whole := Text.decimal n }

theorem Numeral.wellFormed_ofNat (n : Nat) : (Numeral.ofNat n).WellFormed where
  whole c hc := Text.isDigit_of_mem_decimal hc
  leading := by
    cases n with
    | zero => exact ⟨'0', [], Nat.toDigits_zero 10, fun _ => rfl⟩
    | succ n =>
        cases hnumeral : Text.decimal (n + 1) with
        | nil => exact absurd hnumeral (Text.decimal_ne_nil _)
        | cons c ds =>
            have hhead := Text.head_decimal (Nat.succ_pos n)
            rw [hnumeral, List.head?_cons] at hhead
            exact ⟨c, ds, hnumeral, fun hc => absurd (congrArg some hc) hhead⟩
  places c hc := absurd hc List.not_mem_nil
  exponent _ _ h := absurd h (Option.some_ne_none _).symm

theorem Numeral.digits_ofNat (n : Nat) : (Numeral.ofNat n).digits = n := by
  change Nat.ofDigitChars 10 (Text.decimal n ++ []) 0 = n
  rw [List.append_nil, Text.ofDigitChars_decimal]

theorem Numeral.value_ofNat (n : Nat) (isNegative : Bool) :
    (Numeral.ofNat n).value isNegative = wholeNumber isNegative n := by
  unfold Numeral.value
  rw [if_pos ⟨rfl, rfl⟩, Numeral.digits_ofNat]

end Json
end WalletLedger
