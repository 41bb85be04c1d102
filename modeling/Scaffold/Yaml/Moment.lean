import Scaffold.Text.Basic

/-!
# Points in time

A point in time is a day of the calendar with a time of day, down to the microsecond, and perhaps
its distance from universal time.  `Moment.check` refuses what the calendar or the clock does not
have, and `Moment.written` is the form in which a point in time is shown.  Two points with a
distance are the same when they are the same microsecond of universal time (`Moment.same`).
-/

namespace Scaffold

/-- A day of the calendar. -/
structure Day where
  /-- The year. -/
  year : Nat
  /-- The month, from one. -/
  month : Nat
  /-- The day of the month, from one. -/
  day : Nat
  deriving DecidableEq, Repr

/-- A point in time. -/
structure Moment where
  /-- The day. -/
  date : Day
  /-- The hour. -/
  hour : Nat
  /-- The minute. -/
  minute : Nat
  /-- The second. -/
  second : Nat
  /-- The microsecond. -/
  microsecond : Nat
  /-- The distance from universal time in minutes, if it is known. -/
  offset? : Option Int
  deriving DecidableEq, Repr

/-- Why there is no such point in time. -/
inductive MomentError where
  /-- There is no year zero. -/
  | year
  /-- There is no such month. -/
  | month
  /-- There is no such day in the month. -/
  | day
  /-- There is no such hour. -/
  | hour
  /-- There is no such minute. -/
  | minute
  /-- There is no such second. -/
  | second
  /-- The distance from universal time, in minutes, is a day or more. -/
  | offset (minutes : Int)
  deriving DecidableEq, Repr

/-- A span of minutes as it is shown: whole days, which may be negative, and the seconds beyond. -/
def writtenSpan (minutes : Int) : Text :=
  let days := minutes.fdiv 1440
  let seconds := 60 * minutes.fmod 1440
  let parts : List Text :=
    (if days = 0 then [] else ["days=" ++ Text.ofInt days])
      ++ if seconds = 0 then [] else ["seconds=" ++ Text.ofInt seconds]
  let inside : Text := if parts = [] then "0" else Text.join ", " parts
  "datetime.timedelta(" ++ inside ++ ")"

/-- The message for a point in time that there is not. -/
def MomentError.message : MomentError → Text
  | year => "year 0 is out of range"
  | month => "month must be in 1..12"
  | day => "day is out of range for month"
  | hour => "hour must be in 0..23"
  | minute => "minute must be in 0..59"
  | second => "second must be in 0..59"
  | offset minutes =>
    "offset must be a timedelta strictly between -timedelta(hours=24) and timedelta(hours=24), not "
      ++ writtenSpan minutes ++ "."

namespace Day

/-- A year with a 29th of February. -/
def isLeapYear (year : Nat) : Bool := year % 4 == 0 && (year % 100 != 0 || year % 400 == 0)

/-- The number of days of a month. -/
def daysIn (year month : Nat) : Nat :=
  if month = 2 then if isLeapYear year then 29 else 28
  else if month = 4 ∨ month = 6 ∨ month = 9 ∨ month = 11 then 30
  else 31

variable (d : Day)

/-- Refuses a day that the calendar does not have. -/
def check : Except MomentError Unit :=
  if d.year = 0 then .error .year
  else if d.month = 0 ∨ 12 < d.month then .error .month
  else if d.day = 0 ∨ daysIn d.year d.month < d.day then .error .day
  else .ok ()

/-- The numbers of a day, with commas between them. -/
def numbers : Text :=
  Text.ofNat d.year ++ ", " ++ Text.ofNat d.month ++ ", " ++ Text.ofNat d.day

/-- The form in which a day is shown. -/
def written : Text := "datetime.date(" ++ d.numbers ++ ")"

/-- The number of days before the year. -/
def daysBeforeYear (year : Nat) : Nat :=
  let past := year - 1
  365 * past + past / 4 - past / 100 + past / 400

/-- The number of the day in the calendar. -/
def number : Nat :=
  daysBeforeYear d.year
    + (List.range (d.month - 1)).foldl (fun n m => n + daysIn d.year (m + 1)) 0 + d.day

end Day

namespace Moment

variable (m : Moment)

/-- Refuses a point in time that there is not.  The distance from universal time comes first. -/
def check : Except MomentError Unit := do
  if let some minutes := m.offset? then
    if minutes ≤ -1440 ∨ 1440 ≤ minutes then throw (.offset minutes)
  m.date.check
  if 23 < m.hour then throw .hour
  if 59 < m.minute then throw .minute
  if 59 < m.second then throw .second

/-- The numbers of a point in time, without those at the end that are zero and may be left out. -/
def numbers : Text :=
  let parts :=
    if m.microsecond ≠ 0 then [m.hour, m.minute, m.second, m.microsecond]
    else if m.second ≠ 0 then [m.hour, m.minute, m.second]
    else [m.hour, m.minute]
  m.date.numbers ++ parts.flatMap fun n => Text.ofString ", " ++ Text.ofNat n

/-- The form in which a distance from universal time is shown. -/
def writtenOffset (minutes : Int) : Text :=
  if minutes = 0 then "datetime.timezone.utc"
  else "datetime.timezone(" ++ writtenSpan minutes ++ ")"

/-- The form in which a point in time is shown. -/
def written : Text :=
  let zone : Text := match m.offset? with
    | none => []
    | some minutes => ", tzinfo=" ++ writtenOffset minutes
  "datetime.datetime(" ++ m.numbers ++ zone ++ ")"

/-- The microseconds from the beginning of the calendar, in universal time if the distance from it
is known. -/
def instant : Int :=
  let minutes : Int := 1440 * m.date.number + 60 * m.hour + m.minute - m.offset?.getD 0
  1000000 * (60 * minutes + m.second) + m.microsecond

/-- The two are the same point in time. -/
def same (n : Moment) : Bool := m.offset?.isSome == n.offset?.isSome && m.instant == n.instant

example : writtenSpan (-300) = "datetime.timedelta(days=-1, seconds=68400)" := by decide +kernel

example : written ⟨⟨2001, 12, 14⟩, 21, 59, 0, 0, some 0⟩ =
    "datetime.datetime(2001, 12, 14, 21, 59, tzinfo=datetime.timezone.utc)" := by decide +kernel

end Moment

end Scaffold
