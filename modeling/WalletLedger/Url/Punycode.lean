import WalletLedger.Text.Digits

/-!
# Punycode

The form in which labels with other characters than those of ASCII are written in ASCII.
The basic characters come first; then follow numerals that say, in the order of code points,
where each of the others goes.  The digits of a numeral count for more the further they
stand behind, by weights that follow the lengths of the numerals so far.
-/

namespace WalletLedger
namespace Url
namespace Punycode

def digit (n : Nat) : Char :=
  if n < 26 then Char.ofNat ('a'.toNat + n) else Char.ofNat ('0'.toNat + (n - 26))

def digitValue? (c : Char) : Option Nat :=
  if 'a' ≤ c ∧ c ≤ 'z' then some (c.toNat - 'a'.toNat)
  else if 'A' ≤ c ∧ c ≤ 'Z' then some (c.toNat - 'A'.toNat)
  else if c.isDigit then some (c.toNat - '0'.toNat + 26)
  else none

/-- The least digit at a place that another one follows. -/
def threshold (place bias : Nat) : Nat :=
  min 26 (max 1 (place - bias))

/-- Divides a step until it is small; a place is 36. -/
def adaptPlaces (delta : Nat) (places : Nat) : Nat :=
  if 455 < delta then adaptPlaces (delta / 35) (places + 36)
  else places + 36 * delta / (delta + 38)
termination_by delta

/-- The bias for the next numeral, after a step that made `count` characters. -/
def adapt (delta count : Nat) (first : Bool) : Nat :=
  let delta := if first then delta / 700 else delta / 2
  adaptPlaces (delta + delta / count) 0

/-!
# Reading
-/

/-- What has been read, with the numeral that is under way. -/
structure Reading where
  out : List Char
  code : Nat
  bias : Nat
  /-- Where the character before went, and where the next one would go. -/
  start : Nat
  position : Nat
  weight : Nat
  place : Nat

namespace Reading

def ofBasic (basic : List Char) : Reading where
  out := basic
  code := 128
  bias := 72
  start := 0
  position := 0
  weight := 1
  place := 36

def insert? (r : Reading) (position : Nat) : Option Reading :=
  let count := r.out.length + 1
  let code := r.code + position / count
  if code.isValidChar then
    some {
      out := r.out.insertIdx (position % count) (Char.ofNat code)
      code := code
      bias := adapt (position - r.start) count (r.start == 0)
      start := position % count + 1
      position := position % count + 1
      weight := 1
      place := 36 }
  else
    none

def step? (r : Reading) (c : Char) : Option Reading := do
  let d ← digitValue? c
  let position := r.position + d * r.weight
  let least := threshold r.place r.bias
  if d < least then r.insert? position
  else some { r with position, weight := r.weight * (36 - least), place := r.place + 36 }

end Reading

def splitBasic (cs : List Char) : List Char × List Char :=
  let numerals := (cs.reverse.takeWhile (· != '-')).reverse
  (cs.take (cs.length - numerals.length - 1), numerals)

def decode? (cs : List Char) : Option (List Char) := do
  let (basic, numerals) := splitBasic cs
  let r ← numerals.foldlM (fun r c => r.step? c) (Reading.ofBasic basic)
  if r.place = 36 then some r.out else none

/-!
# Writing
-/

def numeral (bias place n : Nat) : List Char :=
  let least := threshold place bias
  if n < least then [digit n]
  else digit (least + (n - least) % (36 - least)) ::
    numeral bias (place + 36) ((n - least) / (36 - least))
termination_by n
decreasing_by
  have : 1 ≤ threshold place bias := by unfold threshold; omega
  exact Nat.lt_of_le_of_lt (Nat.div_le_self _ _) (by omega)

/-- What has been written, with the step that is under way. -/
structure Writing where
  out : List Char
  delta : Nat
  bias : Nat
  count : Nat

/-- Passes one character while the code point `code` is written. -/
def Writing.pass (basicCount code : Nat) (w : Writing) (c : Char) : Writing :=
  if c.toNat < code then { w with delta := w.delta + 1 }
  else if c.toNat = code then
    { out := w.out ++ numeral w.bias 36 w.delta
      delta := 0
      bias := adapt w.delta (w.count + 1) (w.count == basicCount)
      count := w.count + 1 }
  else w

/-- Writes the code points, which ascend, each behind the one before. -/
def writeCodes (label : List Char) (basicCount : Nat) : Nat → List Nat → Writing → Writing
  | _, [], w => w
  | next, code :: rest, w =>
      let w := { w with delta := w.delta + (code - next) * (w.count + 1) }
      let w := label.foldl (fun w c => w.pass basicCount code c) w
      writeCodes label basicCount (code + 1) rest { w with delta := w.delta + 1 }

def encode (label : List Char) : List Char :=
  let basic := label.filter fun c => c.toNat < 128
  let codes := ((label.filter fun c => 128 ≤ c.toNat).map Char.toNat).mergeSort.eraseReps
  let start : Writing := ⟨[], 0, 72, basic.length⟩
  basic ++ (if basic.isEmpty then [] else ['-']) ++
    (writeCodes label basic.length 128 codes start).out

end Punycode
end Url
end WalletLedger
