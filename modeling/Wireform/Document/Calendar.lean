import Wireform.Document.Fault

/-!
# Dates and times

Days of the calendar, and moments with a time of day that may be given with its offset from
universal time. `render` is the short written form and `describe` the form inside a collection.
-/

namespace Wireform.Document

/-- A day of the calendar. -/
structure Date where
  year : Nat
  month : Nat
  day : Nat
  deriving DecidableEq, Repr

/-- A day and a time of day, with the offset from universal time in minutes if it is known. -/
structure Moment where
  date : Date
  hour : Nat
  minute : Nat
  second : Nat
  microsecond : Nat
  offset : Option Int
  deriving DecidableEq, Repr

/-- A natural number with at least `width` digits. -/
def padded (width n : Nat) : String :=
  String.ofList ((Nat.toDigits 10 n).leftpad width '0')

/-- Whether a year has a leap day. -/
def isLeapYear (year : Nat) : Bool :=
  year % 4 == 0 && (year % 100 != 0 || year % 400 == 0)

/-- The days of a month. -/
def daysInMonth (year month : Nat) : Nat :=
  match month with
  | 2 => if isLeapYear year then 29 else 28
  | 4 | 6 | 9 | 11 => 30
  | _ => 31

/-- The days before a year, counted from the first year. -/
def daysBeforeYear (year : Nat) : Int :=
  let y : Int := (year : Int) - 1
  y * 365 + y / 4 - y / 100 + y / 400

namespace Date

/-- Reports why a day does not exist. -/
def check (date : Date) : Except CalendarFault Unit :=
  if date.year = 0 then .error (.year date.year)
  else if date.month < 1 || date.month > 12 then .error .month
  else if date.day < 1 || date.day > daysInMonth date.year date.month then .error .day
  else .ok ()

/-- The days from the first day of the calendar. -/
def ordinal (date : Date) : Int :=
  daysBeforeYear date.year
    + (List.range (date.month - 1)).foldl (fun days m => days + daysInMonth date.year (m + 1)) 0
    + date.day

/-- The written form of a day. -/
def render (date : Date) : String :=
  padded 4 date.year ++ "-" ++ padded 2 date.month ++ "-" ++ padded 2 date.day

/-- The form of a day inside a collection. -/
def describe (date : Date) : String :=
  "datetime.date(" ++ String.intercalate ", " (([date.year, date.month, date.day]).map toString)
    ++ ")"

end Date

/-- A span of minutes as days and seconds, the seconds being positive. -/
def describeSpan (minutes : Int) : String :=
  let days := minutes / 1440
  let seconds := minutes % 1440 * 60
  let parts := (if days = 0 then [] else ["days=" ++ toString days])
    ++ (if seconds = 0 then [] else ["seconds=" ++ toString seconds])
  "datetime.timedelta(" ++ (if parts.isEmpty then "0" else String.intercalate ", " parts) ++ ")"

/-- Reports why an offset does not exist. -/
def checkOffset (minutes : Int) : Except CalendarFault Unit :=
  if minutes.natAbs < 1440 then .ok () else .error (.offset (describeSpan minutes))

namespace Moment

/-- Reports why a moment does not exist. The offset is looked at first. -/
def check (moment : Moment) : Except CalendarFault Unit := do
  if let some minutes := moment.offset then checkOffset minutes
  moment.date.check
  if moment.hour > 23 then throw .hour
  if moment.minute > 59 then throw .minute
  if moment.second > 59 then throw .second

/-- The offset as hours and minutes with a sign. -/
def renderOffset (minutes : Int) : String :=
  (if minutes < 0 then "-" else "+") ++ padded 2 (minutes.natAbs / 60) ++ ":"
    ++ padded 2 (minutes.natAbs % 60)

/-- The written form of a moment. -/
def render (moment : Moment) : String :=
  moment.date.render ++ " " ++ padded 2 moment.hour ++ ":" ++ padded 2 moment.minute ++ ":"
    ++ padded 2 moment.second
    ++ (if moment.microsecond = 0 then "" else "." ++ padded 6 moment.microsecond)
    ++ (match moment.offset with
        | none => ""
        | some minutes => renderOffset minutes)

/-- The form of a moment inside a collection. Seconds are left out where they are zero. -/
def describe (moment : Moment) : String :=
  let tail := if moment.microsecond ≠ 0 then [moment.second, moment.microsecond]
    else if moment.second ≠ 0 then [moment.second] else []
  let fields := ([moment.date.year, moment.date.month, moment.date.day, moment.hour,
    moment.minute] ++ tail).map toString
  let zone := match moment.offset with
    | none => []
    | some 0 => ["tzinfo=datetime.timezone.utc"]
    | some minutes => ["tzinfo=datetime.timezone(" ++ describeSpan minutes ++ ")"]
  "datetime.datetime(" ++ String.intercalate ", " (fields ++ zone) ++ ")"

/-- The microseconds from the first day of the calendar, without regard to an offset. -/
def clock (moment : Moment) : Int :=
  ((moment.date.ordinal * 1440 + moment.hour * 60 + moment.minute) * 60 + moment.second)
    * 1000000 + moment.microsecond

/-- Whether two moments are the same instant. One with an offset is never the same as one
without. -/
def sameInstant (first second : Moment) : Bool :=
  match first.offset, second.offset with
  | none, none => first.clock == second.clock
  | some a, some b => first.clock - a * 60000000 == second.clock - b * 60000000
  | _, _ => false

end Moment

end Wireform.Document
