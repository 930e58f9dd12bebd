import Reconciler.Text.Blank

/-!
# Instants on the calendar

An instant is a number of seconds since 1970-01-01T00:00:00Z, counted without leap seconds, and
nanoseconds beyond them. During a leap second, which any minute may have, the count stays at the
second before it and the nanoseconds go on to two thousand million.

Objects carry instants as RFC 3339 text: to the second in an object's metadata, to the microsecond
in a lease. The reader takes what such texts look like in practice: one to four digits of a year or
any number after a sign, blanks between the parts, a `T` or a blank before the time, any number of
decimals of a second, and `Z`, `UTC` or an offset.
-/

namespace Reconciler

/-- An instant, to the nanosecond. -/
structure Timestamp where
  /-- Seconds since the epoch, rounded down. -/
  secs : Int
  /-- Nanoseconds beyond them; from a thousand million on during a leap second. -/
  nanos : Nat := 0
  deriving DecidableEq, Repr, Inhabited

namespace Timestamp

instance : LT Timestamp := ⟨fun a b => a.secs < b.secs ∨ (a.secs = b.secs ∧ a.nanos < b.nanos)⟩

instance (a b : Timestamp) : Decidable (a < b) :=
  inferInstanceAs (Decidable (a.secs < b.secs ∨ (a.secs = b.secs ∧ a.nanos < b.nanos)))

/-- The nanoseconds of a second. -/
def perSecond : Nat := 1_000_000_000

/-- The instant is within a leap second. -/
def isLeapSecond (t : Timestamp) : Bool := perSecond ≤ t.nanos

/-- The first second of the calendar, in the year -262143. -/
def earliestSecs : Int := -8_334_601_228_800

/-- The last second of the calendar, in the year 262142. -/
def latestSecs : Int := 8_210_266_876_799

/-- The instant is on the calendar. -/
def isOnCalendar (t : Timestamp) : Bool := earliestSecs ≤ t.secs && t.secs ≤ latestSecs

/-- The instant a number of seconds later, or earlier if negative; none beyond the calendar. A step
out of a leap second ends at the same part of a second, and going back the leap second counts. -/
def addSecs? (t : Timestamp) (n : Int) : Option Timestamp :=
  let moved : Timestamp :=
    if !t.isLeapSecond || n = 0 then ⟨t.secs + n, t.nanos⟩
    else if 0 < n then ⟨t.secs + n, t.nanos - perSecond⟩
    else ⟨t.secs + 1 + n, t.nanos - perSecond⟩
  if moved.isOnCalendar then some moved else none

/-- The whole seconds from one instant to a later one, or their negative. -/
def secsUntil (a b : Timestamp) : Int :=
  ((b.secs - a.secs) * perSecond + b.nanos - a.nanos).tdiv perSecond

/-! ## The calendar -/

/-- Days from 1970-01-01 to a date, counting years from March so that the leap day comes last. -/
def daysFromCivil (year : Int) (month day : Nat) : Int :=
  let y := if month ≤ 2 then year - 1 else year
  let era := y.fdiv 400
  let yoe := y - era * 400
  let mp : Int := (month + 9) % 12
  let doy := (153 * mp + 2) / 5 + day - 1
  let doe := yoe * 365 + yoe / 4 - yoe / 100 + doy
  era * 146097 + doe - 719468

/-- The date of a day counted from 1970-01-01. -/
def civilFromDays (days : Int) : Int × Nat × Nat :=
  let z := days + 719468
  let era := z.fdiv 146097
  let doe := z - era * 146097
  let yoe := (doe - doe / 1460 + doe / 36524 - doe / 146096) / 365
  let doy := doe - (365 * yoe + yoe / 4 - yoe / 100)
  let mp := (5 * doy + 2) / 153
  let day := doy - (153 * mp + 2) / 5 + 1
  let month := if mp < 10 then mp + 3 else mp - 9
  let year := yoe + era * 400
  (if month ≤ 2 then year + 1 else year, month.toNat, day.toNat)

/-- Whether a year has a leap day. -/
def isLeap (year : Int) : Bool := year % 4 == 0 && (year % 100 != 0 || year % 400 == 0)

/-- The number of days in a month. -/
def daysInMonth (year : Int) (month : Nat) : Nat :=
  if month = 2 then (if isLeap year then 29 else 28)
  else if month = 4 ∨ month = 6 ∨ month = 9 ∨ month = 11 then 30
  else 31

/-! ## Reading -/

/-- The natural number written by decimal digits. -/
def natOfDigits (ds : List Char) : Nat := ds.foldl (fun n c => 10 * n + (c.toNat - 48)) 0

/-- One digit or more, with or without a limit to their number. -/
def number? (most : Option Nat) (cs : List Char) : Option (Nat × List Char) :=
  let ds := (cs.take (most.getD cs.length)).takeWhile Char.isDigit
  if ds.isEmpty then none else some (natOfDigits ds, cs.drop ds.length)

/-- One or two digits after any blanks. -/
def field? (cs : List Char) : Option (Nat × List Char) := number? (some 2) (Text.trimStart cs)

/-- A separator after any blanks. -/
def mark? (mark : Char) (cs : List Char) : Option (List Char) :=
  match Text.trimStart cs with
  | c :: rest => if c = mark then some rest else none
  | [] => none

/-- A year: up to four digits, or any number of them after a sign. -/
def year? (cs : List Char) : Option (Int × List Char) :=
  match Text.trimStart cs with
  | '-' :: rest => (number? none rest).map fun (n, rest) => (-(n : Int), rest)
  | '+' :: rest => (number? none rest).map fun (n, rest) => ((n : Int), rest)
  | cs => (number? (some 4) cs).map fun (n, rest) => ((n : Int), rest)

/-- The mark between date and time. -/
def timeMark? : List Char → Option (List Char)
  | c :: rest => if c = 't' ∨ c = 'T' ∨ c = ' ' then some rest else none
  | [] => none

/-- Decimals of a second as nanoseconds; those beyond the ninth are dropped. -/
def fraction? : List Char → Option (Nat × List Char)
  | '.' :: rest =>
    let ds := rest.takeWhile Char.isDigit
    if ds.isEmpty then none
    else
      let kept := ds.take 9
      some (natOfDigits kept * Nat.pow 10 (9 - kept.length), rest.drop ds.length)
  | cs => some (0, cs)

/-- Two digits below a bound. -/
def twoDigits? (bound : Nat) : List Char → Option (Nat × List Char)
  | a :: b :: rest =>
    if a.isDigit ∧ b.isDigit ∧ natOfDigits [a, b] < bound then some (natOfDigits [a, b], rest)
    else none
  | _ => none

/-- The seconds that a zone is ahead, given the sign. -/
def hoursAndMinutes? (sign : Int) (cs : List Char) : Option (Int × List Char) := do
  let (h, rest) ← twoDigits? 24 cs
  let (m, rest) ← twoDigits? 60 (rest.dropWhile fun c => c = ':' || Text.isBlank c)
  some (sign * (h * 3600 + m * 60), rest)

/-- The seconds that a zone is ahead. -/
def offset? (cs : List Char) : Option (Int × List Char) :=
  match cs with
  | 'z' :: rest => some (0, rest)
  | 'Z' :: rest => some (0, rest)
  | '+' :: rest => hoursAndMinutes? 1 rest
  | '-' :: rest => hoursAndMinutes? (-1) rest
  | '\u2212' :: rest => hoursAndMinutes? (-1) rest
  | u :: t :: c :: rest =>
    if [u, t, c].map Char.toUpper = ['U', 'T', 'C'] then some (0, rest) else none
  | _ => none

/-- The instant of a date and a time of day in a zone. The sixtieth second of a minute is a leap
second. -/
def ofParts? (year : Int) (month day hour minute second nanos : Nat) (ahead : Int) :
    Option Timestamp :=
  if 1 ≤ month ∧ month ≤ 12 ∧ 1 ≤ day ∧ day ≤ daysInMonth year month ∧ hour < 24 ∧ minute < 60 ∧
      second ≤ 60 then
    let start := daysFromCivil year month day * 86400 + hour * 3600 + minute * 60
    let (second, nanos) := if second = 60 then (59, nanos + perSecond) else (second, nanos)
    let shown : Timestamp := ⟨start + second, nanos⟩
    let t : Timestamp := ⟨shown.secs - ahead, nanos⟩
    if shown.isOnCalendar && t.isOnCalendar then some t else none
  else none

/-- The instant a text names. -/
def parse? (s : String) : Option Timestamp := do
  let (year, cs) ← year? s.toList
  let (month, cs) ← field? (← mark? '-' cs)
  let (day, cs) ← field? (← mark? '-' cs)
  let (hour, cs) ← field? (← timeMark? cs)
  let (minute, cs) ← field? (← mark? ':' cs)
  let (second, cs) ← field? (← mark? ':' cs)
  let (nanos, cs) ← fraction? cs
  let (ahead, cs) ← offset? (Text.trimStart cs)
  if (Text.trimStart cs).isEmpty then ofParts? year month day hour minute second nanos ahead
  else none

/-! ## Writing -/

/-- A number with at least `width` digits. -/
def padded (width n : Nat) : String :=
  let ds := Nat.toDigits 10 n
  String.ofList (List.replicate (width - ds.length) '0' ++ ds)

/-- Date and time of day, to the second. A year outside 0 to 9999 has a sign. -/
def dateTime (t : Timestamp) : String :=
  let days := t.secs.fdiv 86400
  let rest := (t.secs - days * 86400).toNat
  let (y, m, d) := civilFromDays days
  let year :=
    if 0 ≤ y ∧ y ≤ 9999 then padded 4 y.toNat
    else (if y < 0 then "-" else "+") ++ padded 4 y.natAbs
  year ++ "-" ++ padded 2 m ++ "-" ++ padded 2 d ++ "T" ++ padded 2 (rest / 3600) ++ ":" ++
    padded 2 (rest / 60 % 60) ++ ":" ++ padded 2 (rest % 60 + if t.isLeapSecond then 1 else 0)

/-- As in an object's metadata: to the second, the rest dropped. -/
def toSeconds (t : Timestamp) : String := t.dateTime ++ "Z"

/-- As in a lease: to the microsecond, the rest dropped. -/
def toMicros (t : Timestamp) : String :=
  t.dateTime ++ "." ++ padded 6 (t.nanos % perSecond / 1000) ++ "Z"

end Timestamp

end Reconciler
