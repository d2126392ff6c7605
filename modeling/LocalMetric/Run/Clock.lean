/-!
# Points in time

When a run started, as a name for the run and as a text in a report. Both count from the calendar
date in universal time.
-/
namespace LocalMetric

/-- A point in time, in microseconds since the start of the year 1970 in universal time. -/
structure Instant where
  microseconds : Nat
  deriving Repr, DecidableEq

structure CalendarDate where
  year : Nat
  month : Nat
  day : Nat
  deriving Repr, DecidableEq

/-- The date a number of days after the start of the year 1970. Years are counted from March, so
that the leap day is the last one, in cycles of four centuries, of centuries and of four years. -/
def CalendarDate.ofDays (days : Nat) : CalendarDate :=
  let shifted := days + 719468
  let cycle := shifted / 146097
  let dayOfCycle := shifted % 146097
  let yearOfCycle :=
    (dayOfCycle - dayOfCycle / 1460 + dayOfCycle / 36524 - dayOfCycle / 146096) / 365
  let dayOfYear := dayOfCycle - (365 * yearOfCycle + yearOfCycle / 4 - yearOfCycle / 100)
  let monthFromMarch := (5 * dayOfYear + 2) / 153
  let day := dayOfYear - (153 * monthFromMarch + 2) / 5 + 1
  let month := if monthFromMarch < 10 then monthFromMarch + 3 else monthFromMarch - 9
  ⟨cycle * 400 + yearOfCycle + (if month ≤ 2 then 1 else 0), month, day⟩

namespace Instant

def padded (width n : Nat) : String :=
  let ds := Nat.toDigits 10 n
  String.ofList (List.replicate (width - ds.length) '0' ++ ds)

def date (t : Instant) : CalendarDate := .ofDays (t.microseconds / 86400000000)

def timeOfDay (t : Instant) : List Nat :=
  let seconds := t.microseconds / 1000000 % 86400
  [seconds / 3600, seconds / 60 % 60, seconds % 60]

/-- A name for a run that starts now, such as `20240131T235959Z`. -/
def runName (t : Instant) : String :=
  let d := t.date
  padded 4 d.year ++ padded 2 d.month ++ padded 2 d.day ++ "T" ++
    String.join (t.timeOfDay.map (padded 2)) ++ "Z"

/-- The text of a point in time, such as `2024-01-31T23:59:59.000001+00:00`. Whole seconds have no
fraction. -/
def text (t : Instant) : String :=
  let d := t.date
  let fraction := t.microseconds % 1000000
  "-".intercalate [padded 4 d.year, padded 2 d.month, padded 2 d.day] ++ "T" ++
    ":".intercalate (t.timeOfDay.map (padded 2)) ++
    (if fraction = 0 then "" else "." ++ padded 6 fraction) ++ "+00:00"

end Instant

end LocalMetric
