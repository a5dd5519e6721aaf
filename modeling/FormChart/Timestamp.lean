import FormChart.Text.Blank
import FormChart.Text.Digits

/-!
# Instants in RFC 3339

An instant is a number of seconds since the beginning of 1970 in UTC and a number of nanoseconds;
a leap second is the second before it with a thousand million nanoseconds or more.

* `Timestamp.parse` reads a date and a time with an offset from UTC.  It is forgiving about blanks
  and about leading zeros, but dates and times have to exist, and dates in UTC too.
* `Timestamp.text` writes an instant in UTC, with no, three, six or nine digits of a second,
  whichever is the least that loses nothing.

Dates are converted by counting days in cycles of 400 years that begin in March, so that the leap
day is the last day of its year.
-/

namespace FormChart

/-- A date of the Gregorian calendar, before and after its introduction. -/
structure Date where
  year : Int
  month : Nat
  day : Nat
  deriving DecidableEq, Repr

namespace Date

/-- Whether a year has a leap day. -/
def isLeap (year : Int) : Bool := year % 4 == 0 && (year % 100 != 0 || year % 400 == 0)

/-- The number of days of a month. -/
def daysInMonth (year : Int) (month : Nat) : Nat :=
  if month = 2 then (if isLeap year then 29 else 28)
  else if month = 4 ∨ month = 6 ∨ month = 9 ∨ month = 11 then 30
  else 31

/-- Whether a date exists, in the years that an instant can have. -/
def exists? (d : Date) : Bool :=
  -262143 ≤ d.year && d.year ≤ 262142 && 1 ≤ d.month && d.month ≤ 12 &&
    1 ≤ d.day && d.day ≤ daysInMonth d.year d.month

/-- The number of days since the beginning of 1970. -/
def toDays (d : Date) : Int :=
  let y := if d.month ≤ 2 then d.year - 1 else d.year
  let monthFromMarch := (d.month + 9) % 12
  let dayOfYear : Nat := (153 * monthFromMarch + 2) / 5 + d.day - 1
  let yearOfCycle := y % 400
  let dayOfCycle := yearOfCycle * 365 + yearOfCycle / 4 - yearOfCycle / 100 + dayOfYear
  y / 400 * 146097 + dayOfCycle - 719468

/-- The date of a number of days since the beginning of 1970. -/
def ofDays (days : Int) : Date :=
  let z := days + 719468
  let dayOfCycle := (z % 146097).toNat
  let yearOfCycle :=
    (dayOfCycle - dayOfCycle / 1460 + dayOfCycle / 36524 - dayOfCycle / 146096) / 365
  let dayOfYear := dayOfCycle - (365 * yearOfCycle + yearOfCycle / 4 - yearOfCycle / 100)
  let monthFromMarch := (5 * dayOfYear + 2) / 153
  let month := if monthFromMarch < 10 then monthFromMarch + 3 else monthFromMarch - 9
  let y := z / 146097 * 400 + yearOfCycle
  ⟨if month ≤ 2 then y + 1 else y, month, dayOfYear - (153 * monthFromMarch + 2) / 5 + 1⟩

end Date

/-- An instant. -/
structure Timestamp where
  /-- Seconds since the beginning of 1970 in UTC. -/
  seconds : Int
  /-- Nanoseconds; a thousand million and more mark a leap second. -/
  nanos : Nat
  deriving DecidableEq, Repr, Inhabited

namespace Timestamp

/-- The nanoseconds of a second. -/
def nanosPerSecond : Nat := 1000000000

/-! ## Reading -/

/-- Drops blanks at the front. -/
def skipBlanks (cs : List Char) : List Char := cs.dropWhile isBlank

/-- The digits at the front, at most a number of them, and what follows them. -/
def takeDigits (most : Nat) (cs : List Char) : Option (List Char × List Char) :=
  match (cs.take most).takeWhile Char.isDigit with
  | [] => none
  | ds => some (ds, cs.drop ds.length)

/-- A number of at most some digits, after blanks. -/
def number (most : Nat) (cs : List Char) : Option (Nat × List Char) := do
  let (ds, rest) ← takeDigits most (skipBlanks cs)
  some (digitsValue ds, rest)

/-- A year; one with a sign may have any number of digits. -/
def yearNumber (cs : List Char) : Option (Int × List Char) :=
  match skipBlanks cs with
  | '-' :: cs => do
    let (ds, rest) ← takeDigits cs.length cs
    some (-(digitsValue ds : Int), rest)
  | '+' :: cs => do
    let (ds, rest) ← takeDigits cs.length cs
    some ((digitsValue ds : Int), rest)
  | cs => do
    let (ds, rest) ← takeDigits 4 cs
    some ((digitsValue ds : Int), rest)

/-- One given character, after blanks. -/
def sign (c : Char) (cs : List Char) : Option (List Char) :=
  match skipBlanks cs with
  | d :: rest => if d = c then some rest else none
  | [] => none

/-- The nanoseconds after a point, if there is one; more than nine digits are ignored. -/
def fraction : List Char → Option (Nat × List Char)
  | '.' :: cs => do
    let (ds, rest) ← takeDigits 9 cs
    some (digitsValue ds * Nat.pow 10 (9 - ds.length), rest.dropWhile Char.isDigit)
  | cs => some (0, cs)

/-- Two digits that stand right at the front. -/
def twoDigits (cs : List Char) : Option (Nat × List Char) := do
  let (ds, rest) ← takeDigits 2 cs
  if ds.length = 2 then some (digitsValue ds, rest) else none

/-- Hours and minutes of an offset from UTC, in seconds. -/
def offsetSize (cs : List Char) : Option (Int × List Char) := do
  let (hours, cs) ← twoDigits cs
  let (minutes, cs) ← twoDigits (cs.dropWhile fun c => c == ':' || isBlank c)
  if hours < 24 ∧ minutes < 60 then some (((hours * 60 + minutes) * 60 : Nat), cs) else none

/-- An offset from UTC in seconds. -/
def offset (cs : List Char) : Option (Int × List Char) :=
  match cs with
  | 'Z' :: cs | 'z' :: cs => some (0, cs)
  | '+' :: cs => offsetSize cs
  | '-' :: cs | '−' :: cs => (offsetSize cs).map fun (s, cs) => (-s, cs)
  | u :: t :: c :: cs =>
    if u.toUpper = 'U' ∧ t.toUpper = 'T' ∧ c.toUpper = 'C' then some (0, cs) else none
  | _ => none

/-- A date. -/
def date (cs : List Char) : Option (Date × List Char) := do
  let (year, cs) ← yearNumber cs
  let (month, cs) ← number 2 (← sign '-' cs)
  let (day, cs) ← number 2 (← sign '-' cs)
  if (Date.mk year month day).exists? then some (⟨year, month, day⟩, cs) else none

/-- A time of the day as seconds and nanoseconds; the second 60 is a leap second. -/
def timeOfDay (cs : List Char) : Option ((Nat × Nat) × List Char) := do
  let (hour, cs) ← number 2 cs
  let (minute, cs) ← number 2 (← sign ':' cs)
  let (second, cs) ← number 2 (← sign ':' cs)
  let (nanos, cs) ← fraction cs
  if hour < 24 ∧ minute < 60 ∧ second ≤ 60 then
    let leap := if second = 60 then nanosPerSecond else 0
    some (((hour * 60 + minute) * 60 + min second 59, nanos + leap), cs)
  else none

/-- Whether the date of an instant in UTC exists. -/
def hasDate (t : Timestamp) : Bool := (Date.ofDays (t.seconds / 86400)).exists?

/-- Reads an instant.  Its date has to exist both as it is written and in UTC: an offset can carry
    the first and the last days of all years over the edge. -/
def parse (s : String) : Option Timestamp := do
  let (d, cs) ← date s.toList
  let cs ← match cs with
    | 'T' :: cs | 't' :: cs | ' ' :: cs => some cs
    | _ => none
  let ((seconds, nanos), cs) ← timeOfDay cs
  let (shift, cs) ← offset (skipBlanks cs)
  let t : Timestamp := ⟨d.toDays * 86400 + seconds - shift, nanos⟩
  if (skipBlanks cs).isEmpty ∧ t.hasDate then some t else none

/-! ## Writing -/

/-- A number with zeros in front up to a width. -/
def padded (width n : Nat) : String :=
  let ds := Nat.toDigits 10 n
  String.ofList (List.replicate (width - ds.length) '0' ++ ds)

/-- A year; one outside four digits carries its sign. -/
def yearText (y : Int) : String :=
  if 0 ≤ y ∧ y ≤ 9999 then padded 4 y.toNat
  else (if y < 0 then "-" else "+") ++ padded 4 y.natAbs

/-- The part of a second, with as many digits as are needed, in groups of three. -/
def fractionText (nanos : Nat) : String :=
  if nanos = 0 then ""
  else if nanos % 1000000 = 0 then "." ++ padded 3 (nanos / 1000000)
  else if nanos % 1000 = 0 then "." ++ padded 6 (nanos / 1000)
  else "." ++ padded 9 nanos

/-- An instant in UTC. -/
def text (t : Timestamp) : String :=
  let d := Date.ofDays (t.seconds / 86400)
  let second := (t.seconds % 86400).toNat
  yearText d.year ++ "-" ++ padded 2 d.month ++ "-" ++ padded 2 d.day ++ "T" ++
    padded 2 (second / 3600) ++ ":" ++ padded 2 (second / 60 % 60) ++ ":" ++
    padded 2 (second % 60 + t.nanos / nanosPerSecond) ++
    fractionText (t.nanos % nanosPerSecond) ++ "Z"

/-! ## Differences -/

/-- The nanoseconds from one instant to another.  A leap second counts when it ends before the
    later time of the day, or begins after the earlier one. -/
def nanosUntil (start stop : Timestamp) : Int :=
  let early := start.seconds % 86400
  let late := stop.seconds % 86400
  let leap : Int :=
    if early < late then (if nanosPerSecond ≤ start.nanos then 1 else 0)
    else if late < early then (if nanosPerSecond ≤ stop.nanos then -1 else 0)
    else 0
  (stop.seconds - start.seconds + leap) * nanosPerSecond + ((stop.nanos : Int) - start.nanos)

/-- The whole milliseconds from one instant to a later one. -/
def millisUntil? (start stop : Timestamp) : Option Nat :=
  let n := nanosUntil start stop
  if 0 ≤ n then some (n.toNat / 1000000) else none

end Timestamp

end FormChart
