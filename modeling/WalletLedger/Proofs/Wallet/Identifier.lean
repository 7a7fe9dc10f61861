import WalletLedger.Proofs.Json.Leaves
import WalletLedger.Proofs.Json.RoundTrip
import WalletLedger.Wallet.Identifier
import WalletLedger.Wallet.IndexSet

/-!
# Identifiers and index sets that were written

Sixty-four digits give back the bytes they were written for, and a set that was written in
ascending order is read as the same set.
-/

namespace WalletLedger

open Json.Codec (RoundTrips)

/-!
# Digits of bytes
-/

def digitByte (n : Nat) : UInt8 :=
  UInt8.ofNat (Text.hexDigit n).toNat

theorem utf8EncodeChar_hexDigit {n : Nat} (h : n < 16) :
    String.utf8EncodeChar (Text.hexDigit n) = [digitByte n] := by
  have hall : ∀ k : Fin 16, String.utf8EncodeChar (Text.hexDigit k) = [digitByte k] := by decide
  exact hall ⟨n, h⟩

theorem hexByteValue_digitByte (position : Nat) {n : Nat} (h : n < 16) :
    hexByteValue position (digitByte n) = .ok n := by
  have hall : ∀ k : Fin 16,
      Text.hexValue? (Char.ofNat (digitByte k).toNat) = some k.val := by decide
  have hn : Text.hexValue? (Char.ofNat (digitByte n).toNat) = some n := hall ⟨n, h⟩
  unfold hexByteValue
  rw [hn]

theorem utf8_hexOfBytes_cons (b : UInt8) (bytes : List UInt8) :
    Text.utf8 (Text.hexOfBytes (b :: bytes)) =
      digitByte (b.toNat / 16) :: digitByte (b.toNat % 16) ::
        Text.utf8 (Text.hexOfBytes bytes) := by
  have hlt := b.toNat_lt
  have hhigh := utf8EncodeChar_hexDigit (n := b.toNat / 16) (by omega)
  have hlow := utf8EncodeChar_hexDigit (n := b.toNat % 16) (by omega)
  change String.utf8EncodeChar _ ++ (String.utf8EncodeChar _ ++ _) = _
  rw [hhigh, hlow]
  rfl

theorem bytesOfHex_hexOfBytes (position : Nat) (bytes : List UInt8) :
    bytesOfHex position (Text.utf8 (Text.hexOfBytes bytes)) = .ok bytes := by
  induction bytes generalizing position with
  | nil => rfl
  | cons b bytes ih =>
      have hlt := b.toNat_lt
      have hbyte : UInt8.ofNat (b.toNat / 16 * 16 + b.toNat % 16) = b := by
        rw [Nat.div_add_mod']
        exact UInt8.ofNat_toNat
      rw [utf8_hexOfBytes_cons, bytesOfHex, hexByteValue_digitByte position (by omega),
        hexByteValue_digitByte (position + 1) (by omega), ih]
      change Except.ok (UInt8.ofNat (b.toNat / 16 * 16 + b.toNat % 16) :: bytes) = _
      rw [hbyte]

/-!
# Identifiers
-/

namespace Identifier

variable {kind : IdentifierKind}

theorem ofHex_toHex (x : Identifier kind) : ofHex x.toHex = .ok x := by
  have hbytes : bytesOfHex 0 (Text.utf8 x.toHex.toList) = .ok x.bytes := by
    unfold toHex
    rw [String.toList_ofList]
    exact bytesOfHex_hexOfBytes 0 x.bytes
  have hlength : (Text.utf8 x.toHex.toList).length = 64 := by
    rw [length_of_bytesOfHex hbytes, x.length_eq]
  unfold ofHex
  simp only
  rw [if_neg (by rw [hlength]; decide), dif_pos hlength]
  split
  · next bytes hok =>
      rw [hbytes] at hok
      cases hok
      rfl
  · next e herror =>
      rw [hbytes] at herror
      cases herror

theorem codec_roundTrips (d : Nat) (x : Identifier kind) : codec.RoundTrips d x :=
  Json.Codec.refine_roundTrips (Json.Codec.string_roundTrips d x.toHex) (by
    rw [ofHex_toHex]
    rfl)

end Identifier

/-!
# Index sets
-/

namespace IndexSet

theorem insertSorted_of_lt {n : UInt32} {xs : List UInt32} (h : ∀ m ∈ xs, m < n) :
    insertSorted n xs = xs ++ [n] := by
  induction xs with
  | nil => rfl
  | cons m rest ih =>
      have hm := h m List.mem_cons_self
      have hne : n ≠ m := fun heq => UInt32.lt_irrefl m (heq ▸ hm)
      rw [insertSorted, if_neg (UInt32.not_lt.mpr (UInt32.le_of_lt hm)), if_neg hne,
        ih fun k hk => h k (List.mem_cons_of_mem m hk)]
      rfl

theorem toList_foldl_insert {s : IndexSet} {xs : List UInt32}
    (h : (s.toList ++ xs).Pairwise (· < ·)) : (xs.foldl insert s).toList = s.toList ++ xs := by
  induction xs generalizing s with
  | nil => rw [List.foldl_nil, List.append_nil]
  | cons n rest ih =>
      have hlast : ∀ m ∈ s.toList, m < n := fun m hm =>
        (List.pairwise_append.mp h).2.2 m hm n List.mem_cons_self
      have hinsert : (s.insert n).toList = s.toList ++ [n] := insertSorted_of_lt hlast
      rw [List.foldl_cons, ih, hinsert, List.append_assoc]
      · rfl
      · rw [hinsert, List.append_assoc]
        exact h

theorem ofList_toList (s : IndexSet) : ofList s.toList = s := by
  have hlist : (ofList s.toList).toList = s.toList := toList_foldl_insert s.ordered
  cases hs : ofList s.toList with
  | mk xs hordered =>
      rw [hs] at hlist
      cases hlist
      rfl

theorem codec_roundTrips (d : Nat) (s : IndexSet) : codec.RoundTrips (d + 1) s :=
  Json.Codec.iso_roundTrips
    (Json.Codec.list_roundTrips fun n _ => Json.Codec.uint32_roundTrips d n) (ofList_toList s)

end IndexSet
end WalletLedger
