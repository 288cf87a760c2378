import Workflow.Number.Notation

/-! Days and moments, and how they are written. -/

namespace Workflow

structure Date where
  year : Nat
  month : Nat
  day : Nat
  deriving DecidableEq, Repr

def isLeapYear (year : Nat) : Bool :=
  year % 4 == 0 && (year % 100 != 0 || year % 400 == 0)

def daysInMonth (year month : Nat) : Nat :=
  if month == 2 then (if isLeapYear year then 29 else 28)
  else if [4, 6, 9, 11].contains month then 30 else 31

/-- Why numbers are no date or no moment. -/
inductive CalendarFault where
  | year (n : Nat)
  | month
  | day
  | hour
  | minute
  | second
  | offset (minutes : Int)
  deriving DecidableEq, Repr

/-- A span of time in whole days and the seconds of the day that is left. -/
def spanText (minutes : Int) : String :=
  let days := Int.fdiv minutes 1440
  let seconds := Int.fmod minutes 1440 * 60
  let parts := (if days == 0 then [] else [s!"days={Number.intText days}"]) ++
    (if seconds == 0 then [] else [s!"seconds={Number.intText seconds}"])
  let inner := if parts.isEmpty then "0" else ", ".intercalate parts
  s!"datetime.timedelta({inner})"

def CalendarFault.message : CalendarFault → String
  | .year n => s!"year {Number.intText n} is out of range"
  | .month => "month must be in 1..12"
  | .day => "day is out of range for month"
  | .hour => "hour must be in 0..23"
  | .minute => "minute must be in 0..59"
  | .second => "second must be in 0..59"
  | .offset minutes =>
    "offset must be a timedelta strictly between -timedelta(hours=24) and timedelta(hours=24), " ++
      s!"not {spanText minutes}."

/-- The first part of a date that is out of range. -/
def Date.fault? (d : Date) : Option CalendarFault :=
  if d.year < 1 || d.year > 9999 then some (.year d.year)
  else if d.month < 1 || d.month > 12 then some .month
  else if d.day < 1 || d.day > daysInMonth d.year d.month then some .day
  else none

/-- A number with zeros in front up to a width. -/
def padded (width n : Nat) : String :=
  String.ofList (Number.padLeft width '0' (Number.decimalText n))

def Date.isoText (d : Date) : String :=
  s!"{padded 4 d.year}-{padded 2 d.month}-{padded 2 d.day}"

/-- A date with a time of day. The offset from universal time is in minutes. -/
structure Moment where
  date : Date
  hour : Nat
  minute : Nat
  second : Nat
  micros : Nat
  offset : Option Int
  deriving DecidableEq, Repr

/-- The part of a moment that is out of range: first the offset, then the date and the time. -/
def Moment.fault? (m : Moment) : Option CalendarFault :=
  let isFar := m.offset.any (fun minutes => minutes.natAbs ≥ 1440)
  let offset := (if isFar then m.offset else none).map CalendarFault.offset
  let time := if m.hour ≥ 24 then some CalendarFault.hour else if m.minute ≥ 60 then some .minute
    else if m.second ≥ 60 then some .second else none
  (offset.or m.date.fault?).or time

def offsetText (minutes : Int) : String :=
  let sign := if minutes < 0 then "-" else "+"
  s!"{sign}{padded 2 (minutes.natAbs / 60)}:{padded 2 (minutes.natAbs % 60)}"

/-- Date and time with a mark between them; parts of a second only if there are any. -/
def Moment.text (m : Moment) (mark : String) : String :=
  let micros := if m.micros == 0 then "" else "." ++ padded 6 m.micros
  s!"{m.date.isoText}{mark}{padded 2 m.hour}:{padded 2 m.minute}:{padded 2 m.second}{micros}" ++
    (m.offset.map offsetText).getD ""

def Moment.isoText (m : Moment) : String := m.text "T"

end Workflow
