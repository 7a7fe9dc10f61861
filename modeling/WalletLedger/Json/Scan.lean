import WalletLedger.Json.Fault
import WalletLedger.Json.Value
import WalletLedger.Text.Digits

/-!
# Scanning strings and numbers

A string or a number in a text can be read, which gives its value, or skipped, which only
finds its end.  Skipping asks less: it takes unpaired surrogates and numbers of any size.
-/

namespace WalletLedger
namespace Json

/-!
# Strings

Both scanners start behind the opening quote and end behind the closing one.
-/

def simpleEscape? : Char → Option Char
  | '"' => some '"'
  | '\\' => some '\\'
  | '/' => some '/'
  | 'b' => some '\x08'
  | 'f' => some '\x0c'
  | 'n' => some '\n'
  | 'r' => some '\r'
  | 't' => some '\t'
  | _ => none

def hexQuad? : List Char → Option (Nat × List Char)
  | a :: b :: c :: d :: rest => do
      let a ← Text.hexValue? a
      let b ← Text.hexValue? b
      let c ← Text.hexValue? c
      let d ← Text.hexValue? d
      return (((a * 16 + b) * 16 + c) * 16 + d, rest)
  | _ => none

/-- Four hexadecimal digits; when fewer than four bytes are left, the text has ended. -/
def hexQuad (cs : List Char) : Except Fault (Nat × List Char) :=
  match hexQuad? cs with
  | some quad => .ok quad
  | none => if Text.utf8Size (cs.take 4) < 4 then .error .endInString else .error .badEscape

def isLeadingSurrogate (n : Nat) : Bool := 0xd800 ≤ n && n ≤ 0xdbff

def isTrailingSurrogate (n : Nat) : Bool := 0xdc00 ≤ n && n ≤ 0xdfff

def surrogatePair (leading trailing : Nat) : Char :=
  Char.ofNat ((leading - 0xd800) * 0x400 + (trailing - 0xdc00) + 0x10000)

/-- The character of an escape by number, which starts behind its `u`. -/
def unicodeEscape (cs : List Char) : Except Fault (Char × List Char) := do
  let (n, rest) ← hexQuad cs
  if isTrailingSurrogate n then
    .error .loneSurrogate
  else if isLeadingSurrogate n then
    match rest with
    | [] => .error .endInString
    | ['\\'] => .error .endInString
    | '\\' :: 'u' :: rest =>
        let (m, rest) ← hexQuad rest
        if isTrailingSurrogate m then .ok (surrogatePair n m, rest) else .error .loneSurrogate
    | _ => .error .unfinishedSurrogate
  else
    .ok (Char.ofNat n, rest)

/-- Reads with at most `fuel` characters and escapes. -/
def readStringAux : Nat → List Char → Except Fault (List Char × List Char)
  | 0, _ => .error .endInString
  | _ + 1, [] => .error .endInString
  | _ + 1, '"' :: rest => .ok ([], rest)
  | _ + 1, ['\\'] => .error .endInString
  | fuel + 1, '\\' :: 'u' :: rest => do
      let (c, rest) ← unicodeEscape rest
      let (cs, rest) ← readStringAux fuel rest
      .ok (c :: cs, rest)
  | fuel + 1, '\\' :: e :: rest =>
      match simpleEscape? e with
      | some c => do
          let (cs, rest) ← readStringAux fuel rest
          .ok (c :: cs, rest)
      | none => .error .badEscape
  | fuel + 1, c :: rest =>
      if c.toNat < 0x20 then .error .controlCharacter
      else do
        let (cs, rest) ← readStringAux fuel rest
        .ok (c :: cs, rest)

/-- Reads a string, from behind its opening quote to behind its closing one. -/
def readString (cs : List Char) : Except Fault (List Char × List Char) :=
  readStringAux (cs.length + 1) cs

def skipStringAux : Nat → List Char → Except Fault (List Char)
  | 0, _ => .error .endInString
  | _ + 1, [] => .error .endInString
  | _ + 1, '"' :: rest => .ok rest
  | _ + 1, ['\\'] => .error .endInString
  | fuel + 1, '\\' :: 'u' :: rest => do
      let (_, rest) ← hexQuad rest
      skipStringAux fuel rest
  | fuel + 1, '\\' :: e :: rest =>
      match simpleEscape? e with
      | some _ => skipStringAux fuel rest
      | none => .error .badEscape
  | fuel + 1, c :: rest =>
      if c.toNat < 0x20 then .error .controlCharacter else skipStringAux fuel rest

def skipString (cs : List Char) : Except Fault (List Char) :=
  skipStringAux (cs.length + 1) cs

/-!
# Numbers

Both scanners start at the sign or the first digit.
-/

def wordLimit : Nat := 2 ^ 64 - 1

/-- Gathers digits while the number they make stays within a word of 64 bits. -/
def gatherDigits : Nat → List Char → Nat × List Char
  | value, [] => (value, [])
  | value, c :: rest =>
      if c.isDigit && value * 10 + Text.digitValue c ≤ wordLimit then
        gatherDigits (value * 10 + Text.digitValue c) rest
      else
        (value, c :: rest)

def dropDigits (cs : List Char) : List Char :=
  cs.dropWhile Char.isDigit

def leadingDigits (cs : List Char) : Nat :=
  (cs.takeWhile Char.isDigit).length

def startsWithDigit : List Char → Bool
  | c :: _ => c.isDigit
  | [] => false

def startsExponent : List Char → Bool
  | c :: _ => c == 'e' || c == 'E'
  | [] => false

/-- A fraction from its gathered digits, or a fault when it is beyond the greatest. -/
def fraction (isNegative : Bool) (digits : Nat) (exponent : Int) : Except Fault Json :=
  match Number.Magnitude.ofDecimal? digits exponent with
  | some x => .ok (.binary ⟨isNegative, x⟩)
  | none => .error .numberOutOfRange

/-- Reads an exponent, from behind its `e`, that adds to `exponent`. -/
def readExponent (isNegative : Bool) (digits : Nat) (exponent : Int) (cs : List Char) :
    Except Fault (Json × List Char) := do
  let (down, cs) :=
    match cs with
    | '+' :: rest => (false, rest)
    | '-' :: rest => (true, rest)
    | _ => (false, cs)
  if cs.isEmpty then
    .error .endInValue
  else if startsWithDigit cs then
    let shift : Int := Nat.ofDigitChars 10 (cs.takeWhile Char.isDigit) 0
    let value ← fraction isNegative digits (if down then exponent - shift else exponent + shift)
    .ok (value, dropDigits cs)
  else
    .error .badNumber

/--
Reads the digits behind a point.  Digits that no longer fit a word are dropped, and with
them their places.
-/
def readPlaces (isNegative : Bool) (digits : Nat) (exponent : Int) (cs : List Char) :
    Except Fault (Json × List Char) := do
  let (gathered, rest) := gatherDigits digits cs
  let places : Int := (cs.length : Int) - rest.length
  if startsWithDigit cs then
    let rest := dropDigits rest
    let exponent := exponent - places
    if startsExponent rest then
      readExponent isNegative gathered exponent (rest.drop 1)
    else
      let value ← fraction isNegative gathered exponent
      .ok (value, rest)
  else if cs.isEmpty then
    .error .endInValue
  else
    .error .badNumber

/-- A whole number without a fraction; below the range of 64 bits, and `-0`, are fractions. -/
def wholeNumber (isNegative : Bool) (digits : Nat) : Except Fault Json :=
  if isNegative then
    if 0 < digits ∧ digits ≤ 2 ^ 63 then .ok (.negative (-(Int.ofNat digits)))
    else fraction true digits 0
  else
    .ok (.unsigned (UInt64.ofNat digits))

def readUnsignedNumber (isNegative : Bool) (cs : List Char) : Except Fault (Json × List Char) :=
  match cs with
  | [] => .error .endInValue
  | '0' :: rest =>
      if startsWithDigit rest then .error .badNumber else behindWhole 0 rest 0
  | c :: _ =>
      if c.isDigit then
        let (digits, rest) := gatherDigits 0 cs
        let excess := leadingDigits rest
        if 0 < excess then behindWhole digits (dropDigits rest) excess
        else behindWhole digits rest 0
      else
        .error .badNumber
where
  /-- What follows the digits of the whole part, of which `excess` were not gathered. -/
  behindWhole (digits : Nat) (rest : List Char) (excess : Nat) : Except Fault (Json × List Char) :=
    match rest with
    | '.' :: rest => readPlaces isNegative digits excess rest
    | _ =>
        if startsExponent rest then
          readExponent isNegative digits excess (rest.drop 1)
        else if 0 < excess then do
          let value ← fraction isNegative digits excess
          .ok (value, rest)
        else do
          let value ← wholeNumber isNegative digits
          .ok (value, rest)

def readNumber : List Char → Except Fault (Json × List Char)
  | '-' :: rest => readUnsignedNumber true rest
  | cs => readUnsignedNumber false cs

def skipExponent (cs : List Char) : Except Fault (List Char) :=
  let cs :=
    match cs with
    | '+' :: rest => rest
    | '-' :: rest => rest
    | _ => cs
  if startsWithDigit cs then .ok (dropDigits cs) else .error .badNumber

def skipPlaces (cs : List Char) : Except Fault (List Char) :=
  if startsWithDigit cs then
    let rest := dropDigits cs
    if startsExponent rest then skipExponent (rest.drop 1) else .ok rest
  else
    .error .badNumber

def skipUnsignedNumber (cs : List Char) : Except Fault (List Char) :=
  match cs with
  | '0' :: rest => if startsWithDigit rest then .error .badNumber else behindWhole rest
  | _ => if startsWithDigit cs then behindWhole (dropDigits cs) else .error .badNumber
where
  behindWhole (rest : List Char) : Except Fault (List Char) :=
    match rest with
    | '.' :: rest => skipPlaces rest
    | _ => if startsExponent rest then skipExponent (rest.drop 1) else .ok rest

def skipNumber : List Char → Except Fault (List Char)
  | '-' :: rest => skipUnsignedNumber rest
  | cs => skipUnsignedNumber cs

end Json
end WalletLedger
