import SessionArchive.Text.Digits

/-!
# Dates

Moments are counted in seconds from the beginning of 1970, days in the Gregorian calendar without
end in both directions, the year before the year 1 being the year 0. `minuteText` writes a moment to
the minute.

The computation counts years from the first of March, so that the leap day is the last of its year
and the months in between have lengths that repeat every five months, and groups them into eras of
400 years, which all have the same number of days.
-/

set_option autoImplicit false

namespace SessionArchive.Time

/-- A day of the calendar. -/
structure Date where
  year : Int
  month : Nat
  day : Nat
deriving Repr, DecidableEq

/-- The number of days of an era of 400 years. -/
def daysPerEra : Int := 146097

/-- The number of days from the first of March of the year 0 to the beginning of 1970. -/
def epochDay : Int := 719468

/-- The number of years of an era that are over on a day of it, the first day being zero. -/
def yearOfEra (day : Nat) : Nat :=
  (day - day / 1460 + day / 36524 - day / 146096) / 365

/-- The number of days of an era before one of its years. -/
def daysBeforeYear (year : Nat) : Nat := 365 * year + year / 4 - year / 100

/-- The number of days of a year that starts in March before one of its months. -/
def daysBeforeMonth (month : Nat) : Nat := (153 * month + 2) / 5

/-- The month of a year that starts in March on one of its days. -/
def monthOfDay (day : Nat) : Nat := (5 * day + 2) / 153

/-- The date a number of days after the beginning of 1970. -/
def Date.ofDays (days : Int) : Date :=
  let shifted := days + epochDay
  let era := shifted / daysPerEra
  let dayOfEra := (shifted % daysPerEra).toNat
  let year := yearOfEra dayOfEra
  let dayOfYear := dayOfEra - daysBeforeYear year
  let month := monthOfDay dayOfYear
  { year := era * 400 + year + (if month < 10 then 0 else 1)
    month := if month < 10 then month + 3 else month - 9
    day := dayOfYear - daysBeforeMonth month + 1 }

/-- A number of at least two digits. -/
def twoDigits (n : Nat) : List Char := Text.padZero 2 (Text.decimal n)

/-- A year of at least four digits, with a sign unless it has four digits and none. -/
def yearText (year : Int) : List Char :=
  let digits := Text.padZero 4 (Text.decimal year.natAbs)
  if year < 0 then '-' :: digits else if year ≤ 9999 then digits else '+' :: digits

/-- A date, with the year first. -/
def Date.text (date : Date) : List Char :=
  yearText date.year ++ '-' :: twoDigits date.month ++ '-' :: twoDigits date.day

/-- The number of seconds of a day. -/
def secondsPerDay : Int := 86400

/-- The first moment that is written as a date, the beginning of the year -262143. -/
def firstMoment : Int := -8334601228800

/-- The last moment that is written as a date, the end of the year 262142. -/
def lastMoment : Int := 8210266876799

/-- A moment to the minute; outside the range of dates its number. -/
def minuteText (moment : Int) : String :=
  if firstMoment ≤ moment ∧ moment ≤ lastMoment then
    let second := (moment % secondsPerDay).toNat
    String.ofList ((Date.ofDays (moment / secondsPerDay)).text ++ ' ' ::
      twoDigits (second / 3600) ++ ':' :: twoDigits (second / 60 % 60))
  else String.ofList (Text.signedDecimal moment)

end SessionArchive.Time
