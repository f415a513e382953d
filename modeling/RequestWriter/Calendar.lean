import RequestWriter.Text.Basic

/-!
# Dates and times of day

The dates and timestamps that a document may hold. A timestamp may carry an offset from universal
time in minutes; two timestamps with an offset are the same moment when they agree after the offset
is taken off, and one with an offset never equals one without.
-/

namespace RequestWriter

/-- A decimal number of at least `width` digits, filled with zeros on the left. -/
def Text.padLeftZero (width n : Nat) : String :=
  let digits := (Nat.toDigits 10 n)
  String.ofList (List.replicate (width - digits.length) '0' ++ digits)

structure Date where
  year : Nat
  month : Nat
  day : Nat
  deriving DecidableEq, Repr

/-- A day and a time of day, to the microsecond. -/
structure Timestamp where
  date : Date
  hour : Nat
  minute : Nat
  second : Nat
  microsecond : Nat
  /-- Minutes ahead of universal time. -/
  offset : Option Int
  deriving DecidableEq, Repr

namespace Date

/-- Whether a year has a 29th of February. -/
def isLeap (year : Nat) : Bool :=
  year % 4 = 0 && (year % 100 ≠ 0 || year % 400 = 0)

/-- The number of days of a month; none for a month that does not exist. -/
def daysInMonth (year month : Nat) : Nat :=
  match month with
  | 2 => if isLeap year then 29 else 28
  | 4 | 6 | 9 | 11 => 30
  | 1 | 3 | 5 | 7 | 8 | 10 | 12 => 31
  | _ => 0

/-- The day with these numbers, if the calendar has it. Years run from 1 to 9999. -/
def of? (year month day : Nat) : Option Date :=
  if 1 ≤ year ∧ year ≤ 9999 ∧ 1 ≤ day ∧ day ≤ daysInMonth year month then
    some ⟨year, month, day⟩
  else none

/-- Days from the first day of year 1, which counts as one. -/
def ordinal (d : Date) : Nat :=
  let past := d.year - 1
  365 * past + past / 4 - past / 100 + past / 400
    + (List.range (d.month - 1)).foldl (fun days m => days + daysInMonth d.year (m + 1)) d.day

def text (d : Date) : String :=
  Text.padLeftZero 4 d.year ++ "-" ++ Text.padLeftZero 2 d.month ++ "-"
    ++ Text.padLeftZero 2 d.day

/-- The expression that builds the day, as it shows inside a list or a mapping. -/
def spelling (d : Date) : String :=
  s!"datetime.date({d.year}, {d.month}, {d.day})"

end Date

namespace Timestamp

/-- The moment with these numbers, if the clock has it and the offset is less than a day. -/
def of? (date : Date) (hour minute second microsecond : Nat) (offset : Option Int) :
    Option Timestamp :=
  if hour < 24 ∧ minute < 60 ∧ second < 60 ∧ (∀ o ∈ offset, -1440 < o ∧ o < 1440) then
    some ⟨date, hour, minute, second, microsecond, offset⟩
  else none

def localSeconds (t : Timestamp) : Int :=
  ((t.date.ordinal * 24 + t.hour) * 60 + t.minute) * 60 + t.second

def same (a b : Timestamp) : Bool :=
  a.microsecond == b.microsecond &&
    match a.offset, b.offset with
    | none, none => a.localSeconds == b.localSeconds
    | some x, some y => a.localSeconds - 60 * x == b.localSeconds - 60 * y
    | _, _ => false

/-- Sign, hours and minutes of an offset. -/
def offsetText (minutes : Int) : String :=
  (if minutes < 0 then "-" else "+") ++ Text.padLeftZero 2 (minutes.natAbs / 60) ++ ":"
    ++ Text.padLeftZero 2 (minutes.natAbs % 60)

/-- Day and time with a blank between them. The fraction is left out when it is zero. -/
def text (t : Timestamp) : String :=
  t.date.text ++ " " ++ Text.padLeftZero 2 t.hour ++ ":" ++ Text.padLeftZero 2 t.minute ++ ":"
    ++ Text.padLeftZero 2 t.second
    ++ (if t.microsecond = 0 then "" else "." ++ Text.padLeftZero 6 t.microsecond)
    ++ (t.offset.map offsetText).getD ""

/-- The expression that builds an offset. -/
def offsetSpelling (minutes : Int) : String :=
  if minutes = 0 then "datetime.timezone.utc"
  else if minutes < 0 then
    s!"datetime.timezone(datetime.timedelta(days=-1, seconds={86400 + 60 * minutes}))"
  else s!"datetime.timezone(datetime.timedelta(seconds={60 * minutes}))"

/-- The expression that builds the moment, as it shows inside a list or a mapping. -/
def spelling (t : Timestamp) : String :=
  let parts := [t.date.year, t.date.month, t.date.day, t.hour, t.minute]
    ++ (if t.second = 0 ∧ t.microsecond = 0 then [] else [t.second])
    ++ (if t.microsecond = 0 then [] else [t.microsecond])
  let zone := match t.offset with
    | none => []
    | some minutes => ["tzinfo=" ++ offsetSpelling minutes]
  "datetime.datetime(" ++ Text.join ", " (parts.map toString ++ zone) ++ ")"

end Timestamp

end RequestWriter
