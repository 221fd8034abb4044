import Formulary.Text.Digit

/-! # Dates and moments

Days of the Gregorian calendar from year 1 on, and moments of a day with an optional distance from
universal time. `Date.make` and `Moment.make` refuse what the calendar does not have.
-/

namespace Formulary

/-- What the calendar does not have. -/
inductive CalendarFault where
  | year (n : Nat)
  | month
  | day
  | hour
  | minute
  | second
  | offset (seconds : Int)
deriving DecidableEq, Repr

/-- A day of the calendar. -/
structure Date where
  year : Nat
  month : Nat
  day : Nat
deriving DecidableEq, Repr

/-- A moment of a day; `offset?` is its distance east of universal time in seconds. -/
structure Moment where
  date : Date
  hour : Nat
  minute : Nat
  second : Nat
  microsecond : Nat
  offset? : Option Int
deriving DecidableEq, Repr

namespace Date

def isLeap (year : Nat) : Bool := year % 4 == 0 && (year % 100 != 0 || year % 400 == 0)

def daysInMonth (year month : Nat) : Nat :=
  if month = 2 then (if isLeap year then 29 else 28)
  else if month = 4 || month = 6 || month = 9 || month = 11 then 30
  else 31

/-- The day with these numbers. -/
def make (year month day : Nat) : Except CalendarFault Date :=
  if year = 0 || 9999 < year then .error (.year year)
  else if month = 0 || 12 < month then .error .month
  else if day = 0 || daysInMonth year month < day then .error .day
  else .ok ⟨year, month, day⟩

/-- The number of days from the start of the calendar. -/
def dayNumber (d : Date) : Nat :=
  let y := d.year - 1
  let before := ((List.range (d.month - 1)).map fun m => daysInMonth d.year (m + 1)).foldl (· + ·) 0
  365 * y + y / 4 - y / 100 + y / 400 + before + d.day

/-- The text `year-month-day`. -/
def text (d : Date) : Text :=
  Text.paddedDecimal 4 d.year ++ "-" ++ Text.paddedDecimal 2 d.month ++ "-" ++
    Text.paddedDecimal 2 d.day

/-- The spelling of a date inside a collection. -/
def notated (d : Date) : Text :=
  "datetime.date(" ++ Text.join ", " ([d.year, d.month, d.day].map Text.ofNat) ++ ")"

end Date

/-- A span of seconds as days and seconds of a day, each named unless it is zero. -/
def spanNotated (seconds : Int) : Text :=
  let days := seconds.fdiv 86400
  let rest := seconds.fmod 86400
  let parts : List Text :=
    (if days = 0 then [] else ["days=" ++ Text.ofInt days]) ++
      (if rest = 0 then [] else ["seconds=" ++ Text.ofInt rest])
  "datetime.timedelta(" ++ Text.join ", " (if parts.isEmpty then ["0"] else parts) ++ ")"

def CalendarFault.message : CalendarFault → Text
  | .year n => "year " ++ Text.ofNat n ++ " is out of range"
  | .month => "month must be in 1..12"
  | .day => "day is out of range for month"
  | .hour => "hour must be in 0..23"
  | .minute => "minute must be in 0..59"
  | .second => "second must be in 0..59"
  | .offset s =>
    "offset must be a timedelta strictly between -timedelta(hours=24) and " ++
      "timedelta(hours=24), not " ++ spanNotated s ++ "."

namespace Moment

/-- The moment with these numbers. The offset is looked at first, then the date, then the time. -/
def make (year month day hour minute second microsecond : Nat) (offset? : Option Int) :
    Except CalendarFault Moment :=
  match offset?.filter fun s => decide (86400 ≤ s.natAbs) with
  | some s => .error (.offset s)
  | none => do
    let date ← Date.make year month day
    if 23 < hour then .error .hour
    else if 59 < minute then .error .minute
    else if 59 < second then .error .second
    else .ok ⟨date, hour, minute, second, microsecond, offset?⟩

/-- Microseconds from the start of the calendar, in universal time where the offset is known. -/
def instant (m : Moment) : Int :=
  let seconds : Int := m.date.dayNumber * 86400 + m.hour * 3600 + m.minute * 60 + m.second
  (seconds - m.offset?.getD 0) * 1000000 + m.microsecond

/-- Whether two moments are one; a moment with an offset is never one without. -/
def same (a b : Moment) : Bool :=
  a.offset?.isSome == b.offset?.isSome && a.instant == b.instant

/-- The text of an offset: a sign, hours and minutes. -/
def offsetText (s : Int) : Text :=
  let n := s.natAbs
  (if s < 0 then "-" else "+") ++ Text.paddedDecimal 2 (n / 3600) ++ ":" ++
    Text.paddedDecimal 2 (n % 3600 / 60)

/-- The text of a moment. -/
def text (m : Moment) : Text :=
  m.date.text ++ " " ++ Text.paddedDecimal 2 m.hour ++ ":" ++ Text.paddedDecimal 2 m.minute ++
    ":" ++ Text.paddedDecimal 2 m.second ++
    (if m.microsecond = 0 then [] else .char '.' :: Text.paddedDecimal 6 m.microsecond) ++
    (m.offset?.map offsetText).getD []

/-- The spelling of a moment inside a collection; seconds of zero are left out at the end. -/
def notated (m : Moment) : Text :=
  let fine :=
    if m.microsecond ≠ 0 then [m.second, m.microsecond]
    else if m.second ≠ 0 then [m.second]
    else []
  let numbers := [m.date.year, m.date.month, m.date.day, m.hour, m.minute] ++ fine
  let zone : List Text :=
    match m.offset? with
    | none => []
    | some 0 => ["tzinfo=datetime.timezone.utc"]
    | some s => ["tzinfo=datetime.timezone(" ++ spanNotated s ++ ")"]
  "datetime.datetime(" ++ Text.join ", " (numbers.map Text.ofNat ++ zone) ++ ")"

end Moment

end Formulary
