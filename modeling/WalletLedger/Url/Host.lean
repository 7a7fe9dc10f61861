import WalletLedger.Error
import WalletLedger.Url.Domain

/-!
# Hosts

The host of a URL is a domain name or an address of either version of the Internet
Protocol.  A name whose last label is a number is an address of version 4 or a fault.
-/

namespace WalletLedger
namespace Url

inductive Host where
  | domain (name : String)
  | ipv4 (address : Nat)
  | ipv6 (pieces : List Nat)
  deriving DecidableEq, Repr

/-!
# Version 4
-/

/-- The number of a label: hexadecimal behind `0x`, octal behind a zero, else decimal. -/
def ipv4Number? : List Char → Option Nat
  | [] => none
  | '0' :: 'x' :: digits | '0' :: 'X' :: digits => ofDigits? 16 digits
  | '0' :: d :: digits => ofDigits? 8 (d :: digits)
  | digits => ofDigits? 10 digits
where
  /-- Reads digits of a base, of which there may be none. -/
  ofDigits? (base : Nat) (digits : List Char) : Option Nat :=
    digits.foldlM (fun n c =>
      match Text.hexValue? c with
      | some d => if d < base then some (n * base + d) else none
      | none => none) 0

/-- The labels of a domain name without an empty one at the end. -/
def labelsOf (domain : List Char) : List (List Char) :=
  let labels := domain.splitOn '.'
  if labels.length ≥ 2 ∧ labels.getLast? = some [] then labels.dropLast else labels

def endsInNumber (domain : List Char) : Bool :=
  match (labelsOf domain).getLast? with
  | some label => (!label.isEmpty && label.all Char.isDigit) || (ipv4Number? label).isSome
  | none => false

/-- The address that up to four numbers make; the last one fills the places left. -/
def ipv4OfNumbers? (numbers : List Nat) : Option Nat :=
  match numbers.reverse with
  | [] => none
  | last :: front =>
      if numbers.length ≤ 4 ∧ last < 256 ^ (5 - numbers.length) ∧ front.all (· < 256) then
        some (front.reverse.foldl (fun n b => n * 256 + b) 0 * 256 ^ (5 - numbers.length) + last)
      else
        none

def ipv4OfDomain? (domain : List Char) : Option Nat := do
  let numbers ← (labelsOf domain).mapM ipv4Number?
  ipv4OfNumbers? numbers

def ipv4Text (address : Nat) : List Char :=
  let byte (k : Nat) := Text.decimal (address / 256 ^ k % 256)
  byte 3 ++ '.' :: byte 2 ++ '.' :: byte 1 ++ '.' :: byte 0

/-!
# Version 6
-/

def ipv6Piece? (cs : List Char) : Option Nat :=
  if cs.isEmpty || 4 < cs.length then none else ipv4Number?.ofDigits? 16 cs

/-- A decimal number below 256 without a zero in front. -/
def ipv6Byte? (cs : List Char) : Option Nat :=
  match cs with
  | '0' :: _ :: _ => none
  | [] => none
  | cs => do
      let n ← ipv4Number?.ofDigits? 10 cs
      if n < 256 then some n else none

/-- Two pieces in the form of an address of version 4. -/
def ipv6Dotted? (cs : List Char) : Option (List Nat) := do
  let bytes ← (cs.splitOn '.').mapM ipv6Byte?
  match bytes with
  | [a, b, c, d] => some [a * 256 + b, c * 256 + d]
  | _ => none

/-- The pieces between colons; only the last can be in the form of version 4. -/
def ipv6Pieces? : (dottedEnd : Bool) → List (List Char) → Option (List Nat)
  | _, [] => some []
  | dottedEnd, [last] =>
      match ipv6Piece? last with
      | some n => some [n]
      | none => if dottedEnd then ipv6Dotted? last else none
  | dottedEnd, piece :: rest => do
      let n ← ipv6Piece? piece
      let pieces ← ipv6Pieces? dottedEnd rest
      return n :: pieces

def ipv6Side? (dottedEnd : Bool) (cs : List Char) : Option (List Nat) :=
  if cs.isEmpty then some [] else ipv6Pieces? dottedEnd (cs.splitOn ':')

def splitGap? : List Char → Option (List Char × List Char)
  | [] => none
  | ':' :: ':' :: rest => some ([], rest)
  | c :: rest => (splitGap? rest).map fun (before, after) => (c :: before, after)

/-- Eight pieces, of which zeros may be left out at one place. -/
def ipv6OfText? (cs : List Char) : Option (List Nat) := do
  match splitGap? cs with
  | none =>
      let pieces ← ipv6Pieces? true (cs.splitOn ':')
      if pieces.length = 8 then some pieces else none
  | some (before, after) =>
      let front ← ipv6Side? false before
      let back ← ipv6Side? true after
      if front.length + back.length < 8 then
        some (front ++ List.replicate (8 - front.length - back.length) 0 ++ back)
      else
        none

def zerosAhead (pieces : List Nat) : Nat :=
  (pieces.takeWhile (· == 0)).length

/-- Where the longest run of zeros starts, the first one of several, and its length. -/
def longestZeros : Nat → List Nat → Nat × Nat
  | place, [] => (place, 0)
  | place, piece :: rest =>
      let here := zerosAhead (piece :: rest)
      let later := longestZeros (place + 1) rest
      if later.2 ≤ here then (place, here) else later

def ipv6Text (pieces : List Nat) : List Char :=
  let plain (ps : List Nat) := List.intercalate [':'] (ps.map Text.hexNumeral)
  let (start, count) := longestZeros 0 pieces
  if count < 2 then plain pieces
  else plain (pieces.take start) ++ "::".toList ++ plain (pieces.drop (start + count))

/-!
# Hosts as texts
-/

def ipv6OfBrackets (cs : List Char) : Except UrlFault Host :=
  if cs.getLast? = some ']' then
    match ipv6OfText? (cs.drop 1).dropLast with
    | some pieces => .ok (.ipv6 pieces)
    | none => .error .badIpv6
  else
    .error .badIpv6

namespace Host

def ofText (cs : List Char) : Except UrlFault Host :=
  if cs.head? = some '[' then ipv6OfBrackets cs
  else
    match (percentText? cs).bind fun s => asciiDomain? s.toList with
    | none => .error .badDomain
    | some [] => .error .emptyHost
    | some name =>
        if endsInNumber name then
          match ipv4OfDomain? name with
          | some address => .ok (.ipv4 address)
          | none => .error .badIpv4
        else
          .ok (.domain (String.ofList name))

def isForbiddenElsewhere (c : Char) : Bool :=
  c == '\x00' || " #/:<>?@[\\]^|".toList.contains c

def checkOpaque (cs : List Char) : Except UrlFault Unit :=
  if cs.head? = some '[' then (ipv6OfBrackets cs).map fun _ => ()
  else if cs.any isForbiddenElsewhere then .error .badDomainCharacter
  else .ok ()

def text : Host → List Char
  | .domain name => name.toList
  | .ipv4 address => ipv4Text address
  | .ipv6 pieces => '[' :: ipv6Text pieces ++ [']']

end Host
end Url
end WalletLedger
