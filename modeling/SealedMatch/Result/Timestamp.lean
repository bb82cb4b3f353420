/-
Module: SealedMatch.Result.Timestamp
Purpose: Points in time with an offset from universal time.
Trusted boundary: none
Main exports: Timestamp, Timestamp.ofFields, Timestamp.ofMicroseconds, Timestamp.iso,
  Timestamp.compact
-/
import SealedMatch.Failure.Cause

namespace SealedMatch

/-- A date, a time of day to the microsecond, and the offset from universal time in minutes. -/
structure Timestamp where
  year : Nat
  month : Nat
  day : Nat
  hour : Nat
  minute : Nat
  second : Nat
  microsecond : Nat
  offset : Int
deriving DecidableEq

namespace Timestamp

/-- Whether a year has a 29th of February. -/
def isLeap (year : Int) : Bool := year % 4 = 0 ∧ (year % 100 ≠ 0 ∨ year % 400 = 0)

/-- The number of days of a month. -/
def daysIn (year month : Int) : Int :=
  if month = 2 then (if isLeap year then 29 else 28)
  else if month = 4 ∨ month = 6 ∨ month = 9 ∨ month = 11 then 30
  else 31

/-- A span of at least a day, in minutes, as messages name it. -/
def spanText (minutes : Int) : String :=
  let seconds := minutes % 1440 * 60
  "datetime.timedelta(days=" ++ toString (minutes / 1440) ++
    (if seconds = 0 then "" else ", seconds=" ++ toString seconds) ++ ")"

/-- Refuse numbers that no 32-bit counter holds. -/
def requireCounter (n : Int) : Except Fault Unit :=
  if n < -2 ^ 63 ∨ 2 ^ 63 ≤ n then .error .integerTooLarge
  else if 2 ^ 31 ≤ n then .error (.outsideCounting "signed integer is greater than maximum")
  else if n < -2 ^ 31 then .error (.outsideCounting "signed integer is less than minimum")
  else .ok ()

/-- How many days a span of time has at most. -/
def mostDays : Nat := 999999999

/-- Accept an offset in minutes: first as a span of time, then as shorter than a day. -/
def requireOffset (offset : Int) : Except Fault Unit :=
  let days := offset / 1440
  if days < -2 ^ 31 ∨ 2 ^ 31 ≤ days then
    .error (.outsideCounting "Python int too large to convert to C int")
  else if mostDays < days.natAbs then
    .error (.outsideCounting
      ("days=" ++ toString days ++ "; must have magnitude <= " ++ toString mostDays))
  else if offset ≤ -1440 ∨ 1440 ≤ offset then
    .error (.outsideCalendar
      ("offset must be a timedelta strictly between -timedelta(hours=24) and " ++
        "timedelta(hours=24), not " ++ spanText offset ++ "."))
  else .ok ()

/-- The rule of the calendar that the parts of a point in time break first, seen from the year
on. -/
def brokenRule? (year month day hour minute second microsecond : Int) : Option String :=
  if year < 1 ∨ 9999 < year then some ("year " ++ toString year ++ " is out of range")
  else if month < 1 ∨ 12 < month then some "month must be in 1..12"
  else if day < 1 ∨ daysIn year month < day then some "day is out of range for month"
  else if hour < 0 ∨ 23 < hour then some "hour must be in 0..23"
  else if minute < 0 ∨ 59 < minute then some "minute must be in 0..59"
  else if second < 0 ∨ 59 < second then some "second must be in 0..59"
  else if microsecond < 0 ∨ 999999 < microsecond then some "microsecond must be in 0..999999"
  else none

/-- Accept the parts of a point in time: the offset, then all other parts as counters, then the
rules of the calendar. -/
def ofFields (year month day hour minute second microsecond offset : Int) :
    Except Failure Timestamp :=
  Except.mapError Failure.fault do
    requireOffset offset
    [year, month, day, hour, minute, second, microsecond].forM requireCounter
    match brokenRule? year month day hour minute second microsecond with
    | some rule => throw (.outsideCalendar rule)
    | none =>
      pure ⟨year.toNat, month.toNat, day.toNat, hour.toNat, minute.toNat, second.toNat,
        microsecond.toNat, offset⟩

/-- The point in universal time so many microseconds after the beginning of 1970. Days are counted
in cycles of four hundred years, which begin on the first of March, so that a leap day ends its
year. -/
def ofMicroseconds (n : Nat) : Timestamp :=
  let second := n / 1000000
  let days := second / 86400 + 719468
  let day := days % 146097
  let year := (day - day / 1460 + day / 36524 - day / 146096) / 365
  let dayOfYear := day - (365 * year + year / 4 - year / 100)
  let shifted := (5 * dayOfYear + 2) / 153
  let month := if shifted < 10 then shifted + 3 else shifted - 9
  { year := year + days / 146097 * 400 + (if month ≤ 2 then 1 else 0)
    month := month
    day := dayOfYear - (153 * shifted + 2) / 5 + 1
    hour := second / 3600 % 24
    minute := second / 60 % 60
    second := second % 60
    microsecond := n % 1000000
    offset := 0 }

/-- A number in at least `width` digits. -/
def padded (width n : Nat) : String :=
  let digits := toString n
  String.ofList (List.replicate (width - digits.length) '0') ++ digits

/-- The offset with its sign. -/
def offsetText (offset : Int) : String :=
  (if offset < 0 then "-" else "+") ++ padded 2 (offset.natAbs / 60) ++ ":" ++
    padded 2 (offset.natAbs % 60)

/-- Date, time and offset in the international notation; microseconds only where there are any. -/
def iso (t : Timestamp) : String :=
  padded 4 t.year ++ "-" ++ padded 2 t.month ++ "-" ++ padded 2 t.day ++ "T" ++
    padded 2 t.hour ++ ":" ++ padded 2 t.minute ++ ":" ++ padded 2 t.second ++
    (if t.microsecond = 0 then "" else "." ++ padded 6 t.microsecond) ++ offsetText t.offset

/-- Date and time in digits, as file names hold them. -/
def compact (t : Timestamp) : String :=
  padded 4 t.year ++ padded 2 t.month ++ padded 2 t.day ++ "_" ++ padded 2 t.hour ++
    padded 2 t.minute ++ padded 2 t.second

end Timestamp

end SealedMatch
