import WalletLedger.Proofs.Text.Bytes
import WalletLedger.Proofs.Wallet.Identifier

/-!
# Texts of identifiers

Which texts are read as identifiers, and what is said of the others.  Lengths are numbers of
bytes and are looked at before any digit is; a digit of either case will do, so an identifier
has one text for each choice of cases and no other.
-/

namespace WalletLedger

/-!
# Digits as bytes
-/

namespace Text

def IsHexByte (b : UInt8) : Prop :=
  (0x30 ≤ b ∧ b ≤ 0x39) ∨ (0x41 ≤ b ∧ b ≤ 0x46) ∨ (0x61 ≤ b ∧ b ≤ 0x66)

instance (b : UInt8) : Decidable (IsHexByte b) :=
  inferInstanceAs (Decidable (_ ∨ _))

@[elab_as_elim]
theorem byte_cases {motive : UInt8 → Prop} (ofNat : ∀ k : Fin 256, motive (UInt8.ofNat k))
    (b : UInt8) : motive b := by
  have hat := ofNat ⟨b.toNat, b.toNat_lt⟩
  rwa [UInt8.ofNat_toNat] at hat

theorem lt_of_isHexByte {b : UInt8} (h : IsHexByte b) : b.toNat < 128 := by
  cases b using byte_cases with
  | ofNat k => decide +revert +kernel

theorem hexValue?_of_isHexByte {b : UInt8} (h : IsHexByte b) :
    ∃ n < 16, hexValue? (Char.ofNat b.toNat) = some n ∧
      hexDigit n = asciiLower (Char.ofNat b.toNat) := by
  cases b using byte_cases with
  | ofNat k => decide +revert +kernel

theorem hexValue?_of_not_isHexByte {b : UInt8} (h : ¬ IsHexByte b) :
    hexValue? (Char.ofNat b.toNat) = none := by
  cases b using byte_cases with
  | ofNat k => decide +revert +kernel

theorem hexPair_ofNat {high low : Nat} (hhigh : high < 16) (hlow : low < 16) :
    hexPair (UInt8.ofNat (high * 16 + low)) = [hexDigit high, hexDigit low] := by
  have hvalue : (UInt8.ofNat (high * 16 + low)).toNat = high * 16 + low :=
    UInt8.toNat_ofNat_of_lt' (Nat.lt_of_lt_of_le (by omega : high * 16 + low < 256) (by decide))
  have hfirst : (high * 16 + low) / 16 = high := by omega
  have hsecond : (high * 16 + low) % 16 = low := by omega
  unfold hexPair
  rw [hvalue, hfirst, hsecond]

end Text

open Text (IsHexByte)

theorem hexByteValue_of_digit (position : Nat) {b : UInt8} (h : IsHexByte b) :
    ∃ n < 16, hexByteValue position b = .ok n ∧
      Text.hexDigit n = Text.asciiLower (Char.ofNat b.toNat) := by
  rcases Text.hexValue?_of_isHexByte h with ⟨n, hn, hvalue, hdigit⟩
  refine ⟨n, hn, ?_, hdigit⟩
  unfold hexByteValue
  rw [hvalue]

theorem hexByteValue_of_stray (position : Nat) {b : UInt8} (h : ¬ IsHexByte b) :
    hexByteValue position b = .error (.badDigit b position) := by
  unfold hexByteValue
  rw [Text.hexValue?_of_not_isHexByte h]

/-!
# The first byte that is no digit
-/

structure FirstStray (digits : List UInt8) (b : UInt8) (position : Nat) : Prop where
  found : digits[position]? = some b
  stray : ¬ IsHexByte b
  before : ∀ a ∈ digits.take position, IsHexByte a

namespace FirstStray

theorem cons_zero_iff {a b : UInt8} {digits : List UInt8} :
    FirstStray (a :: digits) b 0 ↔ a = b ∧ ¬ IsHexByte b := by
  constructor
  · intro h
    exact ⟨Option.some.inj h.found, h.stray⟩
  · intro h
    exact ⟨congrArg some h.1, h.2, nofun⟩

theorem cons_succ_iff {a b : UInt8} {digits : List UInt8} {position : Nat} :
    FirstStray (a :: digits) b (position + 1) ↔ IsHexByte a ∧ FirstStray digits b position := by
  constructor
  · intro h
    have hbefore := h.before
    rw [List.take_succ_cons, List.forall_mem_cons] at hbefore
    exact ⟨hbefore.1, h.found, h.stray, hbefore.2⟩
  · intro h
    refine ⟨h.2.found, h.2.stray, ?_⟩
    rw [List.take_succ_cons, List.forall_mem_cons]
    exact ⟨h.1, h.2.before⟩

end FirstStray

theorem digits_or_stray (digits : List UInt8) :
    (∀ b ∈ digits, IsHexByte b) ∨ ∃ b position, FirstStray digits b position := by
  induction digits with
  | nil => exact .inl nofun
  | cons a digits ih =>
      by_cases ha : IsHexByte a
      · rcases ih with hall | ⟨b, position, hstray⟩
        · exact .inl (List.forall_mem_cons.mpr ⟨ha, hall⟩)
        · exact .inr ⟨b, position + 1, FirstStray.cons_succ_iff.mpr ⟨ha, hstray⟩⟩
      · exact .inr ⟨a, 0, FirstStray.cons_zero_iff.mpr ⟨rfl, ha⟩⟩

/-!
# Pairs of digits
-/

/-- Digits that come in pairs are read, and writing what was read lowers them. -/
theorem bytesOfHex_of_digits (position : Nat) {digits : List UInt8}
    (hpairs : digits.length % 2 = 0) (h : ∀ b ∈ digits, IsHexByte b) :
    ∃ bytes, bytesOfHex position digits = .ok bytes ∧
      Text.hexOfBytes bytes =
        digits.map fun b => Text.asciiLower (Char.ofNat b.toNat) := by
  fun_induction bytesOfHex position digits with
  | case1 => exact ⟨[], rfl, rfl⟩
  | case2 => cases hpairs
  | case3 position a b rest ih =>
      rw [List.forall_mem_cons, List.forall_mem_cons] at h
      rcases h with ⟨ha, hb, hrest⟩
      rw [List.length_cons, List.length_cons] at hpairs
      rcases hexByteValue_of_digit position ha with ⟨high, hhigh, hreadHigh, hdigitHigh⟩
      rcases hexByteValue_of_digit (position + 1) hb with ⟨low, hlow, hreadLow, hdigitLow⟩
      rcases ih (by omega) hrest with ⟨bytes, hbytes, hwritten⟩
      refine ⟨UInt8.ofNat (high * 16 + low) :: bytes, ?_, ?_⟩
      · rw [hreadHigh, hreadLow, hbytes]
        rfl
      · change Text.hexPair _ ++ Text.hexOfBytes bytes = _
        rw [Text.hexPair_ofNat hhigh hlow, hdigitHigh, hdigitLow, hwritten]
        rfl

theorem bytesOfHex_of_stray (start : Nat) {digits : List UInt8} {b : UInt8} {position : Nat}
    (hpairs : digits.length % 2 = 0) (h : FirstStray digits b position) :
    bytesOfHex start digits = .error (.badDigit b (start + position)) := by
  fun_induction bytesOfHex start digits generalizing position with
  | case1 => cases h.found
  | case2 => cases hpairs
  | case3 start high low rest ih =>
      cases position with
      | zero =>
          rcases FirstStray.cons_zero_iff.mp h with ⟨rfl, hstray⟩
          rw [hexByteValue_of_stray start hstray]
          rfl
      | succ position =>
          rcases FirstStray.cons_succ_iff.mp h with ⟨hhigh, h⟩
          rcases hexByteValue_of_digit start hhigh with ⟨n, _, hreadHigh, _⟩
          rw [hreadHigh]
          cases position with
          | zero =>
              rcases FirstStray.cons_zero_iff.mp h with ⟨rfl, hstray⟩
              rw [hexByteValue_of_stray (start + 1) hstray]
              rfl
          | succ position =>
              rcases FirstStray.cons_succ_iff.mp h with ⟨hlow, h⟩
              rcases hexByteValue_of_digit (start + 1) hlow with ⟨m, _, hreadLow, _⟩
              rw [List.length_cons, List.length_cons] at hpairs
              rw [hreadLow, ih (by omega) h, Nat.add_right_comm start 2 position]
              rfl

/-!
# Identifiers
-/

namespace Identifier

variable {kind : IdentifierKind}

theorem toHex_injective : Function.Injective (toHex : Identifier kind → String) := by
  intro x y h
  have hread := ofHex_toHex x
  rw [h, ofHex_toHex] at hread
  exact (Except.ok.inj hread).symm

/-- What a text is read as: a fault of its length, else its first bad digit, else the
identifier that is written as the text with lowercase digits. -/
inductive Reading (s : String) : Except HexError (Identifier kind) → Prop where
  | odd : s.utf8ByteSize % 2 = 1 → Reading s (.error .oddLength)
  | length : s.utf8ByteSize % 2 = 0 → s.utf8ByteSize ≠ 64 → Reading s (.error .wrongLength)
  | stray {b : UInt8} {position : Nat} : s.utf8ByteSize = 64 →
      FirstStray (Text.utf8 s.toList) b position → Reading s (.error (.badDigit b position))
  | digits {x : Identifier kind} : s.utf8ByteSize = 64 →
      (∀ b ∈ Text.utf8 s.toList, IsHexByte b) → x.toHex = Text.lowered s → Reading s (.ok x)

theorem ofHex_of_odd {s : String} (h : s.utf8ByteSize % 2 = 1) :
    (ofHex s : Except HexError (Identifier kind)) = .error .oddLength :=
  if_pos (by rw [Text.length_utf8]; omega)

theorem ofHex_of_length {s : String} (heven : s.utf8ByteSize % 2 = 0)
    (hsize : s.utf8ByteSize ≠ 64) :
    (ofHex s : Except HexError (Identifier kind)) = .error .wrongLength := by
  unfold ofHex
  simp only [Text.length_utf8]
  rw [if_neg (by omega), dif_neg hsize]

theorem map_bytes_ofHex {s : String} (h : s.utf8ByteSize = 64) :
    (ofHex s : Except HexError (Identifier kind)).map bytes =
      bytesOfHex 0 (Text.utf8 s.toList) := by
  have hlength := (Text.length_utf8 s).trans h
  unfold ofHex
  simp only
  rw [if_neg (by rw [hlength]; decide), dif_pos hlength]
  split
  · next hbytes => exact hbytes.symm
  · next herror => exact herror.symm

theorem ofHex_of_stray {s : String} {b : UInt8} {position : Nat} (hsize : s.utf8ByteSize = 64)
    (h : FirstStray (Text.utf8 s.toList) b position) :
    (ofHex s : Except HexError (Identifier kind)) = .error (.badDigit b position) := by
  have hread := @map_bytes_ofHex kind s hsize
  have hpairs : (Text.utf8 s.toList).length % 2 = 0 := by rw [Text.length_utf8, hsize]
  rw [bytesOfHex_of_stray 0 hpairs h, Nat.zero_add] at hread
  cases hof : (ofHex s : Except HexError (Identifier kind)) with
  | ok x =>
      rw [hof] at hread
      cases hread
  | error e =>
      rw [hof] at hread
      cases hread
      rfl

theorem ofHex_of_digits {s : String} (hsize : s.utf8ByteSize = 64)
    (h : ∀ b ∈ Text.utf8 s.toList, IsHexByte b) :
    ∃ x : Identifier kind, ofHex s = .ok x ∧ x.toHex = Text.lowered s := by
  have hread := @map_bytes_ofHex kind s hsize
  have hpairs : (Text.utf8 s.toList).length % 2 = 0 := by rw [Text.length_utf8, hsize]
  rcases bytesOfHex_of_digits 0 hpairs h with ⟨bytes, hbytes, hwritten⟩
  rw [hbytes] at hread
  rcases Results.map_eq_ok_iff.mp hread with ⟨x, hof, hx⟩
  refine ⟨x, hof, ?_⟩
  have hchars := Text.eq_map_of_ascii fun b hb => Text.lt_of_isHexByte (h b hb)
  unfold toHex Text.lowered
  rw [hx, hwritten]
  conv_rhs => rw [hchars, List.map_map]
  rfl

theorem reading_ofHex (s : String) : Reading s (ofHex s : Except HexError (Identifier kind)) := by
  rcases Nat.mod_two_eq_zero_or_one s.utf8ByteSize with heven | hodd
  · by_cases hsize : s.utf8ByteSize = 64
    · rcases digits_or_stray (Text.utf8 s.toList) with hdigits | ⟨b, position, hstray⟩
      · rcases ofHex_of_digits hsize hdigits with ⟨x, hread, hwritten⟩
        rw [hread]
        exact .digits hsize hdigits hwritten
      · rw [ofHex_of_stray hsize hstray]
        exact .stray hsize hstray
    · rw [ofHex_of_length heven hsize]
      exact .length heven hsize
  · rw [ofHex_of_odd hodd]
    exact .odd hodd

theorem ofHex_eq_iff {s : String} {r : Except HexError (Identifier kind)} :
    ofHex s = r ↔ Reading s r := by
  constructor
  · intro h
    exact h ▸ reading_ofHex s
  · intro h
    cases h with
    | odd hodd => exact ofHex_of_odd hodd
    | length heven hsize => exact ofHex_of_length heven hsize
    | stray hsize hstray => exact ofHex_of_stray hsize hstray
    | digits hsize hdigits hwritten =>
        rcases @ofHex_of_digits kind s hsize hdigits with ⟨y, hy, hlowered⟩
        rw [hy, toHex_injective (hlowered.trans hwritten.symm)]

theorem toHex_of_ofHex {s : String} {x : Identifier kind} (h : ofHex s = .ok x) :
    x.toHex = Text.lowered s := by
  cases ofHex_eq_iff.mp h with
  | digits _ _ hwritten => exact hwritten

/-- Sixty-four digits of either case are an identifier and nothing else is.  The identifier
is written with the same digits in lowercase, so texts that are read as identifiers are read
as the same one if and only if they differ in case alone.  What is not read is refused for an
odd number of bytes first, then for a number other than 64, and then for its first byte that
is no digit. -/
theorem digits_of_either_case (kind : IdentifierKind) (s : String) :
    ((∃ x : Identifier kind, ofHex s = .ok x) ↔
      s.utf8ByteSize = 64 ∧ ∀ b ∈ Text.utf8 s.toList, IsHexByte b) ∧
    (∀ x : Identifier kind, ofHex x.toHex = .ok x) ∧
    (∀ x : Identifier kind, ofHex s = .ok x → x.toHex = Text.lowered s) ∧
    (∀ (t : String) (x y : Identifier kind), ofHex s = .ok x → ofHex t = .ok y →
      (x = y ↔ Text.lowered s = Text.lowered t)) ∧
    ((ofHex s : Except HexError (Identifier kind)) = .error .oddLength ↔
      s.utf8ByteSize % 2 = 1) ∧
    ((ofHex s : Except HexError (Identifier kind)) = .error .wrongLength ↔
      s.utf8ByteSize % 2 = 0 ∧ s.utf8ByteSize ≠ 64) ∧
    ∀ b position, (ofHex s : Except HexError (Identifier kind)) = .error (.badDigit b position) ↔
      s.utf8ByteSize = 64 ∧ FirstStray (Text.utf8 s.toList) b position := by
  refine ⟨?_, ofHex_toHex, fun x => toHex_of_ofHex, ?_, ?_, ?_, ?_⟩
  · constructor
    · intro h
      rcases h with ⟨x, hread⟩
      cases ofHex_eq_iff.mp hread with
      | digits hsize hdigits _ => exact ⟨hsize, hdigits⟩
    · intro h
      rcases @ofHex_of_digits kind s h.1 h.2 with ⟨x, hread, _⟩
      exact ⟨x, hread⟩
  · intro t x y hx hy
    rw [← toHex_of_ofHex hx, ← toHex_of_ofHex hy]
    exact toHex_injective.eq_iff.symm
  · rw [ofHex_eq_iff]
    constructor
    · intro h
      cases h with
      | odd hodd => exact hodd
    · exact .odd
  · rw [ofHex_eq_iff]
    constructor
    · intro h
      cases h with
      | length heven hsize => exact ⟨heven, hsize⟩
    · exact fun h => .length h.1 h.2
  · intro b position
    rw [ofHex_eq_iff]
    constructor
    · intro h
      cases h with
      | stray hsize hstray => exact ⟨hsize, hstray⟩
    · exact fun h => .stray h.1 h.2

end Identifier
end WalletLedger
