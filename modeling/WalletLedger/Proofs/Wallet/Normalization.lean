import WalletLedger.Proofs.Wallet.IdentifierText
import WalletLedger.Proofs.Wallet.PaymentIdText

/-!
# Short and whole payment ids

Normalisation lowers a text and cuts it behind its sixteenth byte if there is something to
cut and all of it is zeros.  A text is never cut inside a character.  Of a payment id only
zeros are lost, and how many is known, so the payment id can be had back.
-/

namespace WalletLedger

/-!
# Slices of texts
-/

namespace Text

/-- The text in front of a byte, if that is no byte inside a character. -/
def sliceTo? (s : String) (n : Nat) : Option String :=
  if h : String.Pos.Raw.IsValid s ⟨n⟩ then some (s.sliceTo (s.pos ⟨n⟩ h)).copy else none

def sliceFrom? (s : String) (n : Nat) : Option String :=
  if h : String.Pos.Raw.IsValid s ⟨n⟩ then some (s.sliceFrom (s.pos ⟨n⟩ h)).copy else none

theorem isValid_iff_exists_parts {s : String} {n : Nat} :
    String.Pos.Raw.IsValid s ⟨n⟩ ↔
      ∃ front back : String, s = front ++ back ∧ front.utf8ByteSize = n := by
  rw [String.Pos.Raw.isValid_iff_exists_append]
  constructor
  · intro h
    rcases h with ⟨front, back, hs, hn⟩
    exact ⟨front, back, hs, (congrArg String.Pos.Raw.byteIdx hn).symm⟩
  · intro h
    rcases h with ⟨front, back, hs, hn⟩
    exact ⟨front, back, hs, String.Pos.Raw.ext hn.symm⟩

theorem slices_of_parts {s front back : String} {n : Nat} (hs : s = front ++ back)
    (hn : front.utf8ByteSize = n) : sliceTo? s n = some front ∧ sliceFrom? s n = some back := by
  have hvalid : String.Pos.Raw.IsValid s ⟨n⟩ := isValid_iff_exists_parts.mpr ⟨front, back, hs, hn⟩
  have hparts : (s.pos ⟨n⟩ hvalid).Splits front back :=
    ⟨hs, String.offset_pos.trans (String.Pos.Raw.ext hn.symm)⟩
  rcases (s.pos ⟨n⟩ hvalid).splits.eq hparts with ⟨hfront, hback⟩
  unfold sliceTo? sliceFrom?
  rw [dif_pos hvalid, dif_pos hvalid, hfront, hback]
  exact ⟨rfl, rfl⟩

end Text

theorem splitAtByte_eq_some_iff {cs front back : List Char} {n : Nat} :
    splitAtByte cs n = some (front, back) ↔
      cs = front ++ back ∧ (Text.utf8 front).length = n := by
  fun_induction splitAtByte cs n generalizing front with
  | case1 cs =>
      constructor
      · intro h
        cases h
        exact ⟨rfl, rfl⟩
      · intro h
        rw [h.1, Text.eq_nil_of_utf8 (List.eq_nil_of_length_eq_zero h.2)]
        rfl
  | case2 n =>
      constructor
      · nofun
      · intro h
        rw [(List.append_eq_nil_iff.mp h.1.symm).1] at h
        cases h.2
  | case3 c cs n hsize ih =>
      constructor
      · intro h
        rcases Option.map_eq_some_iff.mp h with ⟨⟨rest, tail⟩, hrest, heq⟩
        cases heq
        rcases ih.mp hrest with ⟨hcs, hlength⟩
        refine ⟨congrArg (c :: ·) hcs, ?_⟩
        rw [Text.length_utf8_cons, hlength]
        omega
      · intro h
        rcases h with ⟨hcs, hlength⟩
        cases front with
        | nil => cases hlength
        | cons d rest =>
            cases hcs
            rw [Text.length_utf8_cons] at hlength
            rw [ih.mpr ⟨rfl, by omega⟩]
            rfl
  | case4 c cs n hsize =>
      constructor
      · nofun
      · intro h
        rcases h with ⟨hcs, hlength⟩
        cases front with
        | nil => cases hlength
        | cons d rest =>
            cases hcs
            rw [Text.length_utf8_cons] at hlength
            omega

theorem splitAtByte_of_parts {s front back : String} {n : Nat} (hs : s = front ++ back)
    (hn : front.utf8ByteSize = n) :
    splitAtByte s.toList n = some (front.toList, back.toList) := by
  rw [splitAtByte_eq_some_iff, Text.length_utf8, hs, String.toList_append]
  exact ⟨rfl, hn⟩

theorem parts_of_splitAtByte {s : String} {front back : List Char} {n : Nat}
    (h : splitAtByte s.toList n = some (front, back)) :
    s = String.ofList front ++ String.ofList back ∧ (String.ofList front).utf8ByteSize = n := by
  rcases splitAtByte_eq_some_iff.mp h with ⟨hs, hlength⟩
  constructor
  · rw [← String.ofList_append, ← hs, String.ofList_toList]
  · rw [← Text.length_utf8, String.toList_ofList, hlength]

theorem utf8_of_splitAtByte {cs front back : List Char} {n : Nat}
    (h : splitAtByte cs n = some (front, back)) :
    (Text.utf8 cs).take n = Text.utf8 front ∧ (Text.utf8 cs).drop n = Text.utf8 back := by
  rcases splitAtByte_eq_some_iff.mp h with ⟨rfl, hlength⟩
  rw [Text.utf8_append]
  exact ⟨List.take_left' hlength, List.drop_left' hlength⟩

/-- Lowering moves no byte, so it can be done before the parts are taken or after it. -/
theorem splitAtByte_map_asciiLower (cs : List Char) (n : Nat) :
    splitAtByte (cs.map Text.asciiLower) n =
      (splitAtByte cs n).map (Prod.map (List.map Text.asciiLower) (List.map Text.asciiLower)) := by
  fun_induction splitAtByte cs n with
  | case1 cs => rw [splitAtByte]; rfl
  | case2 n => rfl
  | case3 c cs n hsize ih =>
      rw [List.map_cons, splitAtByte, Text.utf8Size_asciiLower, if_pos hsize, ih, Option.map_map,
        Option.map_map]
      rfl
  | case4 c cs n hsize =>
      rw [List.map_cons, splitAtByte, Text.utf8Size_asciiLower, if_neg hsize]
      rfl

/-!
# Cuts
-/

/-- The text falls into sixteen bytes and zeros behind them, of which there may be none. -/
structure Cut (cs front back : List Char) : Prop where
  parts : splitAtByte cs shortDigits = some (front, back)
  zeros : ∀ c ∈ back, c = '0'

theorem all_zeros_iff {cs : List Char} :
    ((cs.map Text.asciiLower).all (· == '0')) = true ↔ ∀ c ∈ cs, c = '0' := by
  simp only [List.all_map, List.all_eq_true, Function.comp_apply, beq_iff_eq,
    Text.asciiLower_eq_zero_iff]

theorem normalizeChars_of_cut {cs front back : List Char} (h : Cut cs front back) :
    normalizeChars cs = front.map Text.asciiLower := by
  unfold normalizeChars
  simp only [splitAtByte_map_asciiLower, h.parts, Option.map_some, Prod.map]
  rw [if_pos (all_zeros_iff.mpr h.zeros)]

theorem normalizeChars_of_no_cut {cs : List Char} (h : ∀ front back, ¬ Cut cs front back) :
    normalizeChars cs = cs.map Text.asciiLower := by
  unfold normalizeChars
  simp only [splitAtByte_map_asciiLower]
  cases hparts : splitAtByte cs shortDigits with
  | none => rfl
  | some parts => exact if_neg fun hzeros => h _ _ ⟨hparts, all_zeros_iff.mp hzeros⟩

theorem normalizePaymentId_of_cut {s : String} {front back : List Char}
    (h : Cut s.toList front back) :
    normalizePaymentId s = String.ofList (front.map Text.asciiLower) :=
  congrArg String.ofList (normalizeChars_of_cut h)

theorem normalizePaymentId_of_no_cut {s : String} (h : ∀ front back, ¬ Cut s.toList front back) :
    normalizePaymentId s = Text.lowered s :=
  congrArg String.ofList (normalizeChars_of_no_cut h)

theorem Cut.again {cs front back : List Char} (h : Cut cs front back) :
    Cut (front.map Text.asciiLower) (front.map Text.asciiLower) [] := by
  refine ⟨splitAtByte_eq_some_iff.mpr ⟨(List.append_nil _).symm, ?_⟩, nofun⟩
  rw [Text.length_utf8_map_asciiLower]
  exact (splitAtByte_eq_some_iff.mp h.parts).2

theorem normalizeChars_normalizeChars (cs : List Char) :
    normalizeChars (normalizeChars cs) = normalizeChars cs := by
  by_cases h : ∃ front back, Cut cs front back
  · rcases h with ⟨front, back, hcut⟩
    rw [normalizeChars_of_cut hcut, normalizeChars_of_cut hcut.again, Text.map_asciiLower_twice]
  · push Not at h
    have hlower : normalizeChars (cs.map Text.asciiLower) = normalizeChars cs := by
      unfold normalizeChars
      rw [Text.map_asciiLower_twice]
    rw [normalizeChars_of_no_cut h, hlower, normalizeChars_of_no_cut h]

/-- There are more than sixteen bytes, and those behind begin with a character and are all
zeros. -/
structure Shortens (s : String) : Prop where
  longer : 16 < s.utf8ByteSize
  boundary : String.Pos.Raw.IsValid s ⟨16⟩
  zeros : ∀ b ∈ (Text.utf8 s.toList).drop 16, b = 0x30

theorem utf8_zeros_iff {cs : List Char} : (∀ b ∈ Text.utf8 cs, b = 0x30) ↔ ∀ c ∈ cs, c = '0' := by
  constructor
  · intro h c hc
    rcases Text.exists_mem_utf8EncodeChar c with ⟨b, hb⟩
    have hzero := h b (List.mem_flatMap.mpr ⟨c, hc, hb⟩)
    rw [hzero] at hb
    exact (Text.eq_of_mem_utf8EncodeChar hb (by decide)).2.symm
  · intro h b hb
    rcases List.mem_flatMap.mp hb with ⟨c, hc, hb⟩
    rw [h c hc] at hb
    exact List.mem_singleton.mp hb

theorem shortens_iff {s : String} :
    Shortens s ↔ ∃ front back, Cut s.toList front back ∧ back ≠ [] := by
  constructor
  · intro h
    rcases Text.isValid_iff_exists_parts.mp h.boundary with ⟨front, back, hs, hn⟩
    have hparts := splitAtByte_of_parts hs hn
    have hzeros := h.zeros
    rw [(utf8_of_splitAtByte hparts).2] at hzeros
    refine ⟨front.toList, back.toList, ⟨hparts, utf8_zeros_iff.mp hzeros⟩, ?_⟩
    intro hnil
    have hlonger := h.longer
    rw [hs, String.toList_eq_nil_iff.mp hnil, String.append_empty, hn] at hlonger
    exact Nat.lt_irrefl 16 hlonger
  · intro h
    rcases h with ⟨front, back, hcut, hback⟩
    rcases parts_of_splitAtByte hcut.parts with ⟨hs, hn⟩
    have hsome : (String.ofList back).utf8ByteSize ≠ 0 := by
      rw [← Text.length_utf8, String.toList_ofList]
      exact fun hnone => hback (Text.eq_nil_of_utf8 (List.eq_nil_of_length_eq_zero hnone))
    refine ⟨?_, Text.isValid_iff_exists_parts.mpr ⟨_, _, hs, hn⟩, ?_⟩
    · rw [hs, String.utf8ByteSize_append, hn]
      change 16 < 16 + _
      omega
    · have hbytes := utf8_zeros_iff.mpr hcut.zeros
      rw [← (utf8_of_splitAtByte hcut.parts).2] at hbytes
      exact hbytes

theorem toList_normalizePaymentId (s : String) :
    (normalizePaymentId s).toList = normalizeChars s.toList :=
  String.toList_ofList

theorem normalizePaymentId_twice (s : String) :
    normalizePaymentId (normalizePaymentId s) = normalizePaymentId s := by
  unfold normalizePaymentId
  rw [String.toList_ofList, normalizeChars_normalizeChars]

theorem utf8_of_shortens {s : String} (h : Shortens s) :
    Text.utf8 (normalizePaymentId s).toList = (Text.utf8 (Text.lowered s).toList).take 16 := by
  rcases shortens_iff.mp h with ⟨front, back, hcut, _⟩
  have hparts : splitAtByte (s.toList.map Text.asciiLower) shortDigits = _ :=
    splitAtByte_map_asciiLower s.toList shortDigits
  rw [hcut.parts] at hparts
  rw [toList_normalizePaymentId, normalizeChars_of_cut hcut]
  unfold Text.lowered
  rw [String.toList_ofList]
  exact (utf8_of_splitAtByte hparts).1.symm

/-- A text keeps all it has exactly where nothing is to be cut. -/
theorem normalizePaymentId_eq_lowered_iff {s : String} :
    normalizePaymentId s = Text.lowered s ↔ ¬ Shortens s := by
  constructor
  · intro heq hshortens
    have hbytes := utf8_of_shortens hshortens
    have hlength := congrArg List.length hbytes
    rw [heq, List.length_take, Text.length_utf8, Text.utf8ByteSize_lowered] at hlength
    have hlonger := hshortens.longer
    omega
  · intro h
    apply String.toList_inj.mp
    rw [toList_normalizePaymentId, Text.toList_lowered]
    by_cases hcut : ∃ front back, Cut s.toList front back
    · rcases hcut with ⟨front, back, hcut⟩
      have hback : back = [] := by
        by_contra hback
        exact h (shortens_iff.mpr ⟨front, back, hcut, hback⟩)
      have hs := (splitAtByte_eq_some_iff.mp hcut.parts).1
      rw [normalizeChars_of_cut hcut, hs, hback, List.append_nil]
    · push Not at hcut
      exact normalizeChars_of_no_cut hcut

/-!
# Slices that never fail
-/

/-- Normalisation with slices of the lowered text.  Whether there is a rest to look at is
asked; where it is all zeros, the slice in front of it is taken for granted, so that nothing
comes out if there is none. -/
def normalizeBySlices? (s : String) : Option String :=
  let lower := Text.lowered s
  if lower.utf8ByteSize ≤ shortDigits then some lower
  else
    match Text.sliceFrom? lower shortDigits with
    | some rest =>
        if (Text.utf8 rest.toList).all (· == 0x30) then Text.sliceTo? lower shortDigits
        else some lower
    | none => some lower

theorem all_zeroBytes_iff {cs : List Char} :
    (Text.utf8 (cs.map Text.asciiLower)).all (· == 0x30) = true ↔ ∀ c ∈ cs, c = '0' := by
  simp only [List.all_eq_true, beq_iff_eq]
  rw [utf8_zeros_iff, List.forall_mem_map]
  simp only [Text.asciiLower_eq_zero_iff]

theorem sliceFrom?_of_no_parts {s : String} {n : Nat} (h : splitAtByte s.toList n = none) :
    Text.sliceFrom? s n = none := by
  apply dif_neg
  intro hvalid
  rcases Text.isValid_iff_exists_parts.mp hvalid with ⟨front, back, hs, hn⟩
  rw [splitAtByte_of_parts hs hn] at h
  cases h

theorem slices_of_splitAtByte {s : String} {front back : List Char} {n : Nat}
    (h : splitAtByte s.toList n = some (front, back)) :
    Text.sliceTo? s n = some (String.ofList front) ∧
      Text.sliceFrom? s n = some (String.ofList back) := by
  rcases parts_of_splitAtByte h with ⟨hs, hn⟩
  exact Text.slices_of_parts hs hn

/-- The slice in front is taken only where the slice behind is there, and then it is there
too. -/
theorem normalizeBySlices?_eq (s : String) :
    normalizeBySlices? s = some (normalizePaymentId s) := by
  have hlower := splitAtByte_map_asciiLower s.toList shortDigits
  rw [← Text.toList_lowered] at hlower
  unfold normalizeBySlices?
  simp only
  by_cases hshort : (Text.lowered s).utf8ByteSize ≤ shortDigits
  · rw [if_pos hshort, normalizePaymentId_eq_lowered_iff.mpr]
    intro hshortens
    rw [Text.utf8ByteSize_lowered] at hshort
    exact Nat.not_lt.mpr hshort hshortens.longer
  · rw [if_neg hshort]
    cases hparts : splitAtByte s.toList shortDigits with
    | none =>
        rw [hparts] at hlower
        rw [sliceFrom?_of_no_parts hlower, normalizePaymentId_of_no_cut]
        intro front back hcut
        cases hparts.symm.trans hcut.parts
    | some parts =>
        rw [hparts] at hlower
        rcases slices_of_splitAtByte hlower with ⟨hto, hfrom⟩
        rw [hfrom, hto]
        simp only [String.toList_ofList]
        by_cases hzeros : ∀ c ∈ parts.2, c = '0'
        · rw [if_pos (all_zeroBytes_iff.mpr hzeros), normalizePaymentId_of_cut ⟨hparts, hzeros⟩]
        · rw [if_neg (fun hall => hzeros (all_zeroBytes_iff.mp hall)), normalizePaymentId_of_no_cut]
          intro front back hcut
          cases hparts.symm.trans hcut.parts
          exact hzeros hcut.zeros

/-!
# Payment ids
-/

namespace Text

theorem hexDigit_eq_zero_iff {n : Nat} (h : n < 16) : hexDigit n = '0' ↔ n = 0 := by
  have hall : ∀ k : Fin 16, hexDigit k = '0' ↔ k.val = 0 := by decide
  exact hall ⟨n, h⟩

theorem hexPair_zeros_iff (b : UInt8) : (∀ c ∈ hexPair b, c = '0') ↔ b = 0 := by
  have hlt := b.toNat_lt
  unfold hexPair
  rw [List.forall_mem_cons, List.forall_mem_singleton, hexDigit_eq_zero_iff (by omega),
    hexDigit_eq_zero_iff (by omega), ← UInt8.toNat_inj, UInt8.toNat_zero]
  omega

theorem drop_hexOfBytes (bytes : List UInt8) (n : Nat) :
    (hexOfBytes bytes).drop (2 * n) = hexOfBytes (bytes.drop n) := by
  induction n generalizing bytes with
  | zero => rfl
  | succ n ih =>
      cases bytes with
      | nil => rfl
      | cons b bytes => exact ih bytes

theorem hexOfBytes_zeros_iff {bytes : List UInt8} :
    (∀ c ∈ hexOfBytes bytes, c = '0') ↔ ∀ b ∈ bytes, b = 0 := by
  unfold hexOfBytes
  rw [List.forall_mem_flatMap]
  simp only [hexPair_zeros_iff]

end Text

namespace PaymentId

def IsShort (p : PaymentId) : Prop :=
  ∀ b ∈ p.bytes.drop 8, b = 0

theorem zeros_behind_iff {p : PaymentId} :
    (p.toHex.toList.drop shortDigits).all (· == '0') = true ↔ p.IsShort := by
  unfold Identifier.toHex IsShort
  rw [String.toList_ofList, ← Text.hexOfBytes_zeros_iff, ← Text.drop_hexOfBytes,
    List.all_eq_true]
  simp only [beq_iff_eq]
  rfl

theorem text_of_isShort {p : PaymentId} (h : p.IsShort) :
    p.text.toList = p.toHex.toList.take 16 := by
  rw [toList_text, if_pos (zeros_behind_iff.mpr h)]
  rfl

theorem text_of_not_isShort {p : PaymentId} (h : ¬ p.IsShort) :
    p.text.toList = p.toHex.toList := by
  rw [toList_text, if_neg fun hzeros => h (zeros_behind_iff.mp hzeros)]

theorem length_text_of_isShort {p : PaymentId} (h : p.IsShort) : p.text.length = 16 := by
  rw [← String.length_toList, text_of_isShort h, List.length_take, String.length_toList,
    p.length_toHex]
  rfl

theorem length_text_of_not_isShort {p : PaymentId} (h : ¬ p.IsShort) : p.text.length = 64 := by
  rw [← String.length_toList, text_of_not_isShort h, String.length_toList, p.length_toHex]

def padded (text : String) : String :=
  String.ofList (text.toList.rightpad 64 '0')

/-- Only zeros are lost, and so many that the text can be filled up again. -/
theorem padded_text (p : PaymentId) : padded p.text = p.toHex := by
  have hlength : p.toHex.toList.length = 64 := by
    rw [String.length_toList, p.length_toHex]
  apply String.toList_inj.mp
  unfold padded List.rightpad
  rw [String.toList_ofList, String.length_toList]
  by_cases h : p.IsShort
  · have hrest : p.toHex.toList.drop 16 = List.replicate 48 '0' := by
      rw [List.eq_replicate_iff, List.length_drop, hlength]
      refine ⟨rfl, fun c hc => ?_⟩
      exact beq_iff_eq.mp (List.all_eq_true.mp (zeros_behind_iff.mpr h) c hc)
    rw [length_text_of_isShort h, text_of_isShort h]
    change _ ++ List.replicate 48 '0' = _
    rw [← hrest, List.take_append_drop]
  · rw [length_text_of_not_isShort h, text_of_not_isShort h]
    exact List.append_nil _

theorem ofHex_padded_text (p : PaymentId) : Identifier.ofHex (padded p.text) = .ok p := by
  rw [padded_text, Identifier.ofHex_toHex]

theorem text_injective : Function.Injective text := by
  intro p q h
  have hread := ofHex_padded_text p
  rw [h, ofHex_padded_text] at hread
  exact (Except.ok.inj hread).symm

end PaymentId

/-- Normalisation never takes a slice that is none, changes nothing the second time, and cuts
a text to its first sixteen bytes if and only if there is more and it is all zeros.  A payment
id has sixteen digits if its last 24 bytes are zero and sixty-four if not.  Zeros added to
them give back what the payment id was, so no two payment ids have the same text. -/
theorem normalization_loses_nothing :
    (∀ s : String,
      normalizeBySlices? s = some (normalizePaymentId s) ∧
      normalizePaymentId (normalizePaymentId s) = normalizePaymentId s ∧
      (Shortens s → Text.utf8 (normalizePaymentId s).toList =
        (Text.utf8 (Text.lowered s).toList).take 16) ∧
      (normalizePaymentId s = Text.lowered s ↔ ¬ Shortens s)) ∧
    (∀ p : PaymentId,
      (p.text.length = 16 ↔ ∀ b ∈ p.bytes.drop 8, b = 0) ∧
      (p.text.length = 64 ↔ ¬ ∀ b ∈ p.bytes.drop 8, b = 0) ∧
      (∀ c ∈ p.text.toList, Text.IsLowerHex c) ∧
      Identifier.ofHex (PaymentId.padded p.text) = .ok p) ∧
    ∀ p q : PaymentId, p.text = q.text ↔ p = q := by
  refine ⟨?_, ?_, fun p q => PaymentId.text_injective.eq_iff⟩
  · intro s
    exact ⟨normalizeBySlices?_eq s, normalizePaymentId_twice s, utf8_of_shortens,
      normalizePaymentId_eq_lowered_iff⟩
  · intro p
    refine ⟨?_, ?_, fun c => PaymentId.isLowerHex_of_mem_text, p.ofHex_padded_text⟩
    · by_cases h : p.IsShort
      · exact iff_of_true (PaymentId.length_text_of_isShort h) h
      · refine iff_of_false ?_ h
        rw [PaymentId.length_text_of_not_isShort h]
        decide
    · by_cases h : p.IsShort
      · refine iff_of_false ?_ (not_not_intro h)
        rw [PaymentId.length_text_of_isShort h]
        decide
      · exact iff_of_true (PaymentId.length_text_of_not_isShort h) h

end WalletLedger
