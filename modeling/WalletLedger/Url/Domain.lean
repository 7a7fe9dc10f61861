import WalletLedger.Text.Blank
import WalletLedger.Text.Printable
import WalletLedger.Url.Percent
import WalletLedger.Url.Punycode

/-!
# Domain names

A domain name in the form in which it is looked up: small letters of ASCII, with labels of
other characters in Punycode behind a mark.
-/

namespace WalletLedger
namespace Url

/-- What stands in front of a label in Punycode. -/
def aceMark : List Char := "xn--".toList

def isForbiddenInDomain (c : Char) : Bool :=
  c.toNat ≤ 0x20 || c.toNat == 0x7f || "%#/:<>?@[\\]^|".toList.contains c

/-- Characters that a domain name may contain and that count for nothing. -/
def isIgnoredInDomain (c : Char) : Bool :=
  let n := c.toNat
  n == 0xad || n == 0x200b || n == 0x2060 || n == 0xfeff || (0xfe00 ≤ n && n ≤ 0xfe0f)

/--
The character under which another one is looked up: full forms lose their width, full
stops of other scripts become dots, and capital letters of the Latin, Greek and Cyrillic
scripts become small.
-/
def foldForDomain (c : Char) : Char :=
  let n := c.toNat
  if n == 0x3002 || n == 0xff61 then '.'
  else if 0xff01 ≤ n && n ≤ 0xff5e then Text.asciiLower (Char.ofNat (n - 0xfee0))
  else if 0xc0 ≤ n && n ≤ 0xde && n != 0xd7 then Char.ofNat (n + 32)
  else if 0x391 ≤ n && n ≤ 0x3a9 then Char.ofNat (n + 32)
  else if 0x410 ≤ n && n ≤ 0x42f then Char.ofNat (n + 32)
  else if 0x400 ≤ n && n ≤ 0x40f then Char.ofNat (n + 80)
  else Text.asciiLower c

def isAllowedInLabel (c : Char) : Bool :=
  if c.toNat < 128 then !isForbiddenInDomain c else Text.isPrintable c && !Text.isBlank c

/-- The characters of a label that stands in Punycode, which has some beyond ASCII. -/
def unmarkedLabel? (label : List Char) : Option (List Char) := do
  let cs ← Punycode.decode? label
  if cs.any (fun c => 128 ≤ c.toNat) && cs.all isAllowedInLabel then some cs else none

def asciiLabel? (label : List Char) : Option (List Char) :=
  if !label.all isAllowedInLabel then none
  else if label.any fun c => 128 ≤ c.toNat then some (aceMark ++ Punycode.encode label)
  else if aceMark.isPrefixOf label then
    (unmarkedLabel? (label.drop aceMark.length)).map fun _ => label
  else some label

def asciiDomain? (cs : List Char) : Option (List Char) := do
  let folded := (cs.filter fun c => !isIgnoredInDomain c).map foldForDomain
  let labels ← (folded.splitOn '.').mapM asciiLabel?
  return List.intercalate ['.'] labels

end Url
end WalletLedger
