import Mathlib
import WalletLedger.Text.Digits

/-!
# Bytes of texts

Where a text is measured in bytes, those of ASCII stand for one character each and all other
characters are made of bytes beyond ASCII.  Lowering a text touches letters of ASCII only, so
it changes no size.
-/

namespace WalletLedger
namespace Text

/-!
# Bytes and their number
-/

theorem utf8_append (front back : List Char) : utf8 (front ++ back) = utf8 front ++ utf8 back :=
  List.flatMap_append

theorem utf8_cons (c : Char) (cs : List Char) :
    utf8 (c :: cs) = String.utf8EncodeChar c ++ utf8 cs :=
  rfl

theorem exists_mem_utf8EncodeChar (c : Char) : ∃ b, b ∈ String.utf8EncodeChar c :=
  List.exists_mem_of_ne_nil _ String.utf8EncodeChar_ne_nil

theorem length_utf8_cons (c : Char) (cs : List Char) :
    (utf8 (c :: cs)).length = c.utf8Size + (utf8 cs).length := by
  rw [utf8_cons, List.length_append, String.length_utf8EncodeChar]

theorem eq_nil_of_utf8 {cs : List Char} (h : utf8 cs = []) : cs = [] := by
  cases cs with
  | nil => rfl
  | cons c cs =>
      rw [utf8_cons, List.append_eq_nil_iff] at h
      exact absurd h.1 String.utf8EncodeChar_ne_nil

theorem length_utf8 (s : String) : (utf8 s.toList).length = s.utf8ByteSize := by
  have hbytes : s.toByteArray = s.toList.utf8Encode := by
    rw [← String.toByteArray_ofList, String.ofList_toList]
  rw [← String.size_toByteArray, hbytes]
  exact List.size_toByteArray.symm

/-!
# Bytes of ASCII
-/

/-- A byte of ASCII is a character by itself and no part of another. -/
theorem eq_of_mem_utf8EncodeChar {c : Char} {b : UInt8} (hb : b ∈ String.utf8EncodeChar c)
    (hascii : b.toNat < 128) :
    String.utf8EncodeChar c = [b] ∧ Char.ofNat b.toNat = c := by
  unfold String.utf8EncodeChar at hb ⊢
  simp only at hb ⊢
  by_cases hsingle : c.val.toNat ≤ 127
  · rw [if_pos hsingle] at hb ⊢
    have heq : b = UInt8.ofNat c.val.toNat := List.mem_singleton.mp hb
    have hvalue : b.toNat = c.toNat := by
      rw [heq, UInt8.toNat_ofNat_of_lt' (Nat.lt_of_le_of_lt hsingle (by decide))]
      rfl
    exact ⟨by rw [heq], by rw [hvalue, Char.ofNat_toNat]⟩
  · -- Every byte of a longer character has its highest bit set.
    rw [if_neg hsingle] at hb
    exfalso
    split at hb
    · simp only [List.mem_cons, List.not_mem_nil, or_false] at hb
      rcases hb with rfl | rfl <;> rw [UInt8.toNat_ofNat'] at hascii <;> omega
    · split at hb
      · simp only [List.mem_cons, List.not_mem_nil, or_false] at hb
        rcases hb with rfl | rfl | rfl <;> rw [UInt8.toNat_ofNat'] at hascii <;> omega
      · simp only [List.mem_cons, List.not_mem_nil, or_false] at hb
        rcases hb with rfl | rfl | rfl | rfl <;> rw [UInt8.toNat_ofNat'] at hascii <;> omega

theorem eq_map_of_ascii {cs : List Char} (h : ∀ b ∈ utf8 cs, b.toNat < 128) :
    cs = (utf8 cs).map fun b => Char.ofNat b.toNat := by
  induction cs with
  | nil => rfl
  | cons c cs ih =>
      rw [utf8_cons, List.forall_mem_append] at h
      rcases exists_mem_utf8EncodeChar c with ⟨b, hb⟩
      rcases eq_of_mem_utf8EncodeChar hb (h.1 b hb) with ⟨hbytes, hc⟩
      rw [utf8_cons, hbytes, List.singleton_append, List.map_cons, hc, ← ih h.2]

/-!
# Lowering
-/

def lowered (s : String) : String :=
  String.ofList (s.toList.map asciiLower)

@[elab_as_elim]
theorem asciiLower_cases {motive : Char → Prop}
    (capital : ∀ k : Fin 26, motive (Char.ofNat (65 + k)))
    (other : ∀ c, asciiLower c = c → motive c) (c : Char) : motive c := by
  by_cases h : 'A' ≤ c ∧ c ≤ 'Z'
  · have hlow : 65 ≤ c.toNat := h.1
    have hhigh : c.toNat ≤ 90 := h.2
    have hat := capital ⟨c.toNat - 65, by omega⟩
    rwa [Nat.add_sub_cancel' hlow, Char.ofNat_toNat] at hat
  · exact other c (if_neg h)

theorem utf8Size_asciiLower (c : Char) : (asciiLower c).utf8Size = c.utf8Size := by
  cases c using asciiLower_cases with
  | capital k => decide +revert
  | other c h => rw [h]

theorem asciiLower_asciiLower (c : Char) : asciiLower (asciiLower c) = asciiLower c := by
  cases c using asciiLower_cases with
  | capital k => decide +revert
  | other c h => rw [h, h]

theorem asciiLower_eq_zero_iff (c : Char) : asciiLower c = '0' ↔ c = '0' := by
  cases c using asciiLower_cases with
  | capital k => decide +revert
  | other c h => rw [h]

theorem length_utf8_map_asciiLower (cs : List Char) :
    (utf8 (cs.map asciiLower)).length = (utf8 cs).length := by
  induction cs with
  | nil => rfl
  | cons c cs ih =>
      rw [List.map_cons, length_utf8_cons, length_utf8_cons, utf8Size_asciiLower, ih]

theorem map_asciiLower_twice (cs : List Char) :
    (cs.map asciiLower).map asciiLower = cs.map asciiLower := by
  rw [List.map_map]
  exact List.map_congr_left fun c _ => asciiLower_asciiLower c

theorem toList_lowered (s : String) : (lowered s).toList = s.toList.map asciiLower :=
  String.toList_ofList

theorem utf8ByteSize_lowered (s : String) : (lowered s).utf8ByteSize = s.utf8ByteSize := by
  rw [← length_utf8, toList_lowered, length_utf8_map_asciiLower, length_utf8]

end Text
end WalletLedger
