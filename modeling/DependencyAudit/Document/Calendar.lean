import DependencyAudit.Number.Text

/-!
Dates, times of day and moments with or without an offset, their bounds, and
the two ways they are written: plainly, and as the expression that builds them.
-/

namespace DependencyAudit

structure Date where
  year : Nat
  month : Nat
  day : Nat
deriving DecidableEq, Repr

structure Clock where
  hour : Nat
  minute : Nat
  second : Nat
  micro : Nat
deriving DecidableEq, Repr

/-- The offset from universal time is in seconds. -/
structure Moment where
  date : Date
  clock : Clock
  offset : Option Int
deriving DecidableEq, Repr

namespace Calendar

/-- A span as days, of either sign, and seconds below a day. -/
def spanText (seconds : Int) : String :=
  let days := seconds.fdiv 86400
  let rest := seconds.fmod 86400
  let parts := (if days = 0 then [] else [s!"days={days}"])
    ++ (if rest = 0 then [] else [s!"seconds={rest}"])
  let inside := if parts.isEmpty then "0" else ", ".intercalate parts
  s!"datetime.timedelta({inside})"

inductive Fault
  | year (n : Nat)
  | month
  | day
  | hour
  | minute
  | second
  | offset (seconds : Int)
deriving DecidableEq, Repr

def Fault.message : Fault → String
  | .year n => s!"year {n} is out of range"
  | .month => "month must be in 1..12"
  | .day => "day is out of range for month"
  | .hour => "hour must be in 0..23"
  | .minute => "minute must be in 0..59"
  | .second => "second must be in 0..59"
  | .offset n =>
    "offset must be a timedelta strictly between -timedelta(hours=24) and timedelta(hours=24), not "
      ++ spanText n ++ "."

def isLeap (year : Nat) : Bool :=
  year % 4 == 0 && (year % 100 != 0 || year % 400 == 0)

def daysIn (year month : Nat) : Nat :=
  if month = 2 then (if isLeap year then 29 else 28)
  else if [4, 6, 9, 11].contains month then 30
  else 31

def date (year month day : Nat) : Except Fault Date :=
  if year < 1 ∨ 9999 < year then .error (.year year)
  else if month < 1 ∨ 12 < month then .error .month
  else if day < 1 ∨ daysIn year month < day then .error .day
  else .ok ⟨year, month, day⟩

def clock (hour minute second micro : Nat) : Except Fault Clock :=
  if 23 < hour then .error .hour
  else if 59 < minute then .error .minute
  else if 59 < second then .error .second
  else .ok ⟨hour, minute, second, micro⟩

def offset (seconds : Int) : Except Fault Int :=
  if 86400 ≤ seconds.natAbs then .error (.offset seconds) else .ok seconds

/-- The number of a date when days are counted through. -/
def dayNumber (d : Date) : Nat :=
  let past := d.year - 1
  let months := (List.range (d.month - 1)).map fun m => daysIn d.year (m + 1)
  past * 365 + past / 4 - past / 100 + past / 400 + addedUp months + d.day

end Calendar

/-- The millionths of a second up to a moment in universal time, if that is known. -/
def Moment.instant? (m : Moment) : Option Int :=
  m.offset.map fun offset =>
    let hours : Int := Calendar.dayNumber m.date * 24 + m.clock.hour
    let seconds := (hours * 60 + m.clock.minute) * 60 + m.clock.second
    (seconds - offset) * 1000000 + m.clock.micro

def padded (width n : Nat) : String :=
  let digits := natText n
  String.ofList (zeros (width - digits.length) ++ digits)

def Date.plain (d : Date) : String :=
  s!"{padded 4 d.year}-{padded 2 d.month}-{padded 2 d.day}"

def Clock.plain (c : Clock) : String :=
  s!"{padded 2 c.hour}:{padded 2 c.minute}:{padded 2 c.second}"
    ++ (if c.micro = 0 then "" else s!".{padded 6 c.micro}")

def offsetPlain (seconds : Int) : String :=
  let n := seconds.natAbs
  (if seconds < 0 then "-" else "+") ++ s!"{padded 2 (n / 3600)}:{padded 2 (n / 60 % 60)}"

def Moment.plain (m : Moment) : String :=
  s!"{m.date.plain} {m.clock.plain}" ++ (m.offset.map offsetPlain).getD ""

def listed (fields : List Nat) : String := ", ".intercalate (fields.map toString)

def Date.fields (d : Date) : List Nat := [d.year, d.month, d.day]

/-- Seconds are left out when they are zero, and so is what stands after them. -/
def Clock.fields (c : Clock) : List Nat :=
  if c.micro ≠ 0 then [c.hour, c.minute, c.second, c.micro]
  else if c.second ≠ 0 then [c.hour, c.minute, c.second]
  else [c.hour, c.minute]

def Date.literal (d : Date) : String := s!"datetime.date({listed d.fields})"

def Clock.literal (c : Clock) : String := s!"datetime.time({listed c.fields})"

def offsetLiteral (seconds : Int) : String :=
  if seconds = 0 then "datetime.timezone.utc"
  else s!"datetime.timezone({Calendar.spanText seconds})"

def Moment.literal (m : Moment) : String :=
  let offset := (m.offset.map fun n => s!", tzinfo={offsetLiteral n}").getD ""
  s!"datetime.datetime({listed (m.date.fields ++ m.clock.fields)}{offset})"

end DependencyAudit
