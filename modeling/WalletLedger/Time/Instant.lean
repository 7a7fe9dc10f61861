import WalletLedger.Text.Digits

/-!
# Instants

A number of seconds since the start of 1970, and its text: the date and the time of day in
universal time.  Years start in March here, so that the day that leap years add is the last
one of a year.
-/

namespace WalletLedger
namespace Time

structure Date where
  year : Nat
  month : Nat
  day : Nat
  deriving DecidableEq, Repr

/-- The days from the first of March of year zero to the start of 1970. -/
def daysBeforeEpoch : Nat := 719468

def daysOfCycle : Nat := 146097

/-- The date of a day that is counted from the start of 1970. -/
def Date.ofDays (days : Nat) : Date :=
  let days := days + daysBeforeEpoch
  let dayOfCycle := days % daysOfCycle
  let yearOfCycle :=
    (dayOfCycle - dayOfCycle / 1460 + dayOfCycle / 36524 - dayOfCycle / 146096) / 365
  let dayOfYear := dayOfCycle - (365 * yearOfCycle + yearOfCycle / 4 - yearOfCycle / 100)
  let monthFromMarch := (5 * dayOfYear + 2) / 153
  let month := if monthFromMarch < 10 then monthFromMarch + 3 else monthFromMarch - 9
  { year := days / daysOfCycle * 400 + yearOfCycle + (if month ≤ 2 then 1 else 0)
    month := month
    day := dayOfYear - (153 * monthFromMarch + 2) / 5 + 1 }

/-- The last second of the year 9999, after which there is no text. -/
def lastSecond : Nat := 253402300799

def padded (width n : Nat) : List Char :=
  let digits := Text.decimal n
  List.replicate (width - digits.length) '0' ++ digits

/-- The text of an instant, for example `2023-11-14T22:13:20Z`. -/
def instantText? (seconds : UInt64) : Option String :=
  let seconds := seconds.toNat
  if seconds ≤ lastSecond then
    let date := Date.ofDays (seconds / 86400)
    let second := seconds % 86400
    some <| String.ofList <|
      padded 4 date.year ++ '-' :: padded 2 date.month ++ '-' :: padded 2 date.day ++
        'T' :: padded 2 (second / 3600) ++ ':' :: padded 2 (second / 60 % 60) ++
        ':' :: padded 2 (second % 60) ++ ['Z']
  else
    none

end Time
end WalletLedger
