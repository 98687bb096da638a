/-!
# Dates and times

Dates of the Gregorian calendar from year 1 to year 9999, and times of day with an optional offset
from universal time. A date or a time is checked part by part when it is made, so the first part
that is out of range is the fault. Two times with offsets are the same when they are the same
instant.
-/

namespace Landscape

/-- The first part of a date or a time that is out of range. -/
inductive CalendarFault where
  | year (n : Nat)
  | month
  | day
  | hour
  | minute
  | second
  | offset (seconds : Int)
  deriving DecidableEq, Repr

/-- A date. -/
structure Date where
  year : Nat
  month : Nat
  day : Nat
  deriving DecidableEq, Repr

namespace Date

/-- Whether a year has a leap day. -/
def isLeap (year : Nat) : Bool := year % 4 == 0 && (year % 100 != 0 || year % 400 == 0)

/-- How many days a month has. -/
def daysIn (year month : Nat) : Nat :=
  if month == 2 then if isLeap year then 29 else 28
  else if [4, 6, 9, 11].contains month then 30
  else 31

/-- The date of a year, a month and a day. -/
def ofParts (year month day : Nat) : Except CalendarFault Date :=
  if year < 1 || 9999 < year then .error (.year year)
  else if month < 1 || 12 < month then .error .month
  else if day < 1 || daysIn year month < day then .error .day
  else .ok ⟨year, month, day⟩

/-- How many days there are before a year. -/
def daysBeforeYear (year : Nat) : Nat :=
  let past := year - 1
  365 * past + past / 4 - past / 100 + past / 400

/-- The number of a date among all days. -/
def ordinal (d : Date) : Nat :=
  (List.range (d.month - 1)).foldl (fun days m => days + daysIn d.year (m + 1))
    (daysBeforeYear d.year + d.day)

end Date

/-- A length of time in words. -/
def durationText (seconds : Int) : String :=
  let days := Int.fdiv seconds 86400
  let rest := Int.fmod seconds 86400
  let parts :=
    (if days != 0 then ["days=" ++ toString days] else [])
      ++ (if rest != 0 then ["seconds=" ++ toString rest] else [])
  "datetime.timedelta(" ++ (if parts.isEmpty then "0" else ", ".intercalate parts) ++ ")"

/-- A fault in words. -/
def CalendarFault.message : CalendarFault → String
  | .year n => "year " ++ toString n ++ " is out of range"
  | .month => "month must be in 1..12"
  | .day => "day is out of range for month"
  | .hour => "hour must be in 0..23"
  | .minute => "minute must be in 0..59"
  | .second => "second must be in 0..59"
  | .offset seconds =>
    "offset must be a timedelta strictly between -timedelta(hours=24) and timedelta(hours=24), not "
      ++ durationText seconds ++ "."

/-- A date in words. -/
def Date.shown (d : Date) : String :=
  "datetime.date(" ++ ", ".intercalate ([d.year, d.month, d.day].map toString) ++ ")"

/-- A time on a date. -/
structure Moment where
  date : Date
  hour : Nat
  minute : Nat
  second : Nat
  microsecond : Nat
  /-- The offset from universal time in seconds, where one is known. -/
  offset : Option Int
  deriving DecidableEq, Repr

namespace Moment

/-- An offset of less than a day. -/
def checkedOffset (seconds : Int) : Except CalendarFault Int :=
  if -86400 < seconds && seconds < 86400 then .ok seconds else .error (.offset seconds)

/-- The moment of its parts; the offset is checked first, then the date, then the time. -/
def ofParts (year month day hour minute second microsecond : Nat) (offset : Option Int) :
    Except CalendarFault Moment := do
  let offset ← offset.mapM checkedOffset
  let date ← Date.ofParts year month day
  if 23 < hour then throw .hour
  if 59 < minute then throw .minute
  if 59 < second then throw .second
  return ⟨date, hour, minute, second, microsecond, offset⟩

/-- The microseconds of a moment, counted as if there were no offset. -/
def localTime (m : Moment) : Int :=
  (((m.date.ordinal * 24 + m.hour) * 60 + m.minute) * 60 + m.second) * 1000000 + m.microsecond

/-- The instant of a moment whose offset is known. -/
def instant? (m : Moment) : Option Int :=
  m.offset.map fun seconds => m.localTime - seconds * 1000000

/-- Whether two moments are the same: the same instant, or the same time if no offset is known. -/
def isSame (m n : Moment) : Bool :=
  match m.instant?, n.instant? with
  | some a, some b => a == b
  | none, none => m.localTime == n.localTime
  | _, _ => false

/-- An offset in words. -/
def offsetText (seconds : Int) : String :=
  if seconds == 0 then "datetime.timezone.utc"
  else "datetime.timezone(" ++ durationText seconds ++ ")"

/-- A moment in words; seconds and microseconds are left out where they are zero. -/
def shown (m : Moment) : String :=
  let parts := [m.date.year, m.date.month, m.date.day, m.hour, m.minute]
    ++ (if m.second != 0 || m.microsecond != 0 then [m.second] else [])
    ++ (if m.microsecond != 0 then [m.microsecond] else [])
  let offset := m.offset.map fun seconds => ", tzinfo=" ++ offsetText seconds
  "datetime.datetime(" ++ ", ".intercalate (parts.map toString) ++ offset.getD "" ++ ")"

end Moment

end Landscape
