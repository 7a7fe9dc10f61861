import WalletLedger.Json.Codec
import WalletLedger.Text.Quoted

/-!
# Identifiers

Transaction hashes, payment ids and public keys are 32 bytes each, written as 64
hexadecimal digits.  Digits of either case are read and lowercase ones are written.
-/

namespace WalletLedger

inductive IdentifierKind where
  | transaction
  | payment
  | publicKey
  deriving DecidableEq, Repr, Hashable

def IdentifierKind.name : IdentifierKind → String
  | .transaction => "TxHash"
  | .payment => "PaymentId"
  | .publicKey => "PublicKey"

structure Identifier (kind : IdentifierKind) where
  bytes : List UInt8
  length_eq : bytes.length = 32
  deriving DecidableEq

abbrev TxHash := Identifier .transaction
abbrev PaymentId := Identifier .payment
abbrev PublicKey := Identifier .publicKey

/-!
# Reading pairs of digits
-/

inductive HexError where
  | oddLength
  | wrongLength
  | badDigit (byte : UInt8) (position : Nat)
  deriving DecidableEq, Repr

namespace HexError

def message : HexError → String
  | .oddLength => "Odd number of digits"
  | .wrongLength => "Invalid string length"
  | .badDigit byte position =>
      s!"Invalid character {Text.quotedSingle (Char.ofNat byte.toNat)} at position {position}"

end HexError

def hexByteValue (position : Nat) (byte : UInt8) : Except HexError Nat :=
  match Text.hexValue? (Char.ofNat byte.toNat) with
  | some n => .ok n
  | none => .error (.badDigit byte position)

/-- Bytes from pairs of digits, the first of which stands at `position`. -/
def bytesOfHex : Nat → List UInt8 → Except HexError (List UInt8)
  | _, [] => .ok []
  | _, [_] => .error .oddLength
  | position, a :: b :: rest => do
      let high ← hexByteValue position a
      let low ← hexByteValue (position + 1) b
      let bytes ← bytesOfHex (position + 2) rest
      .ok (UInt8.ofNat (high * 16 + low) :: bytes)

theorem length_of_bytesOfHex {position : Nat} {digits bytes : List UInt8}
    (h : bytesOfHex position digits = .ok bytes) : digits.length = 2 * bytes.length := by
  fun_induction bytesOfHex position digits generalizing bytes with
  | case1 => simp only [Except.ok.injEq] at h; subst h; rfl
  | case2 => simp at h
  | case3 position a b rest ih =>
      cases ha : hexByteValue position a with
      | error e => simp [ha, bind, Except.bind] at h
      | ok high =>
        cases hb : hexByteValue (position + 1) b with
        | error e => simp [ha, hb, bind, Except.bind] at h
        | ok low =>
          cases hr : bytesOfHex (position + 2) rest with
          | error e => simp [ha, hb, hr, bind, Except.bind] at h
          | ok tail =>
            simp only [ha, hb, hr, bind, Except.bind, Except.ok.injEq] at h
            subst h
            have hlen := ih hr
            simp only [List.length_cons]
            omega

namespace Identifier

variable {kind : IdentifierKind}

instance : Hashable (Identifier kind) := ⟨fun x => hash x.bytes⟩

def zero : Identifier kind :=
  ⟨List.replicate 32 0, List.length_replicate⟩

def toHex (x : Identifier kind) : String :=
  String.ofList (Text.hexOfBytes x.bytes)

/-- Reads 64 digits; the count of bytes is looked at before any digit. -/
def ofHex (s : String) : Except HexError (Identifier kind) :=
  let digits := Text.utf8 s.toList
  if digits.length % 2 ≠ 0 then .error .oddLength
  else if h : digits.length = 64 then
    match hbytes : bytesOfHex 0 digits with
    | .ok bytes => .ok ⟨bytes, by have := length_of_bytesOfHex hbytes; omega⟩
    | .error e => .error e
  else .error .wrongLength

def inspect (x : Identifier kind) : String :=
  kind.name ++ "(" ++ x.toHex ++ ")"

def codec : Json.Codec (Identifier kind) :=
  Json.Codec.string.refine (fun s => (ofHex s).mapError HexError.message) toHex

end Identifier
end WalletLedger
