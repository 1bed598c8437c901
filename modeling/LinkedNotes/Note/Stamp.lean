import LinkedNotes.Text.Basic

/-!
# Time stamps

The text of a moment after a pattern. In a pattern a percent sign starts a field; a mark after the
sign (`-`, `_` or `0`) tells how a number is padded. A pattern with an unknown field is invalid as a
whole, and the moment is then written in the standard form for machines.
-/

namespace LinkedNotes

/-- A local date and time. -/
structure Moment where
  /-- Year of the calendar. -/
  year : Nat
  /-- Month from 1. -/
  month : Nat
  /-- Day of the month from 1. -/
  day : Nat
  /-- Hour of the day. -/
  hour : Nat
  /-- Minute of the hour. -/
  minute : Nat
  /-- Second of the minute. -/
  second : Nat
  /-- Nanosecond of the second. -/
  nano : Nat
  /-- Seconds by which the local time is ahead of the universal time. -/
  offset : Int
  deriving Repr

namespace Moment

/-- Number of days from the first of March of the year 0 to a date, a formula that counts the leap
day as the last day of its year. -/
def dayNumber (year month day : Nat) : Nat :=
  let y := if month ≤ 2 then year - 1 else year
  let m := (month + 9) % 12
  365 * y + y / 4 - y / 100 + y / 400 + (153 * m + 2) / 5 + (day - 1)

/-- Day of the year from 1. -/
def yearDay (moment : Moment) : Nat :=
  dayNumber moment.year moment.month moment.day - dayNumber moment.year 1 1 + 1

/-- Day of the week, Monday being 0. -/
def weekday (moment : Moment) : Nat :=
  (dayNumber moment.year moment.month moment.day + 2) % 7

/-- Number of days in a year. -/
def daysIn (year : Nat) : Nat :=
  dayNumber (year + 1) 1 1 - dayNumber year 1 1

/-- Number of weeks in a year whose weeks belong to the year that holds their Thursday. -/
def weeksIn (year : Nat) : Nat :=
  let first := (dayNumber year 1 1 + 2) % 7
  if first = 3 ∨ (first = 2 ∧ daysIn year = 366) then 53 else 52

/-- Year and week of a date, where a week belongs to the year that holds its Thursday. -/
def yearWeek (moment : Moment) : Nat × Nat :=
  let week := (moment.yearDay + 9 - moment.weekday) / 7
  if week = 0 then (moment.year - 1, weeksIn (moment.year - 1))
  else if weeksIn moment.year < week then (moment.year + 1, 1)
  else (moment.year, week)

/-- Seconds since the start of the year 1970 in universal time. -/
def epochSeconds (moment : Moment) : Int :=
  let days : Int := (dayNumber moment.year moment.month moment.day : Int) - dayNumber 1970 1 1
  days * 86400 + moment.hour * 3600 + moment.minute * 60 + moment.second - moment.offset

/-- Hour on a clock face of twelve. -/
def hour12 (moment : Moment) : Nat :=
  if moment.hour % 12 = 0 then 12 else moment.hour % 12

end Moment

namespace Stamp

/-- How a number is padded. -/
inductive Padding where
  | none
  | zero
  | space
  deriving DecidableEq

/-- The digits of a number padded to a width. -/
def number (padding : Padding) (width n : Nat) : Text :=
  let digits := Nat.toDigits 10 n
  match padding with
  | .none => digits
  | .zero => List.replicate (width - digits.length) '0' ++ digits
  | .space => List.replicate (width - digits.length) ' ' ++ digits

/-- Names of the months. -/
def months : List Text :=
  ["January", "February", "March", "April", "May", "June", "July", "August", "September",
    "October", "November", "December"].map String.toList

/-- Names of the days of the week from Monday. -/
def weekdays : List Text :=
  ["Monday", "Tuesday", "Wednesday", "Thursday", "Friday", "Saturday", "Sunday"].map String.toList

/-- The offset from universal time, with a separator and with as many parts as asked for. -/
def offsetText (moment : Moment) (separator : Text) (parts : Nat) : Text :=
  let seconds := moment.offset.natAbs
  let fields := [seconds / 3600, seconds / 60 % 60, seconds % 60].take parts
  (if moment.offset < 0 then ['-'] else ['+']) ++
    Text.joinWith separator (fields.map (Text.padded 2))

/-- A fraction of a second with as many digits as asked for. -/
def fraction (moment : Moment) (digits : Nat) : Text :=
  Text.padded digits (moment.nano / Nat.pow 10 (9 - digits))

/-- A fraction of a second with its dot, in three, six or nine digits, whichever is exact. -/
def shortFraction (moment : Moment) : Text :=
  if moment.nano = 0 then []
  else if moment.nano % 1000000 = 0 then '.' :: fraction moment 3
  else if moment.nano % 1000 = 0 then '.' :: fraction moment 6
  else '.' :: fraction moment 9

/-- Year, month and day. -/
def dateText (moment : Moment) : Text :=
  Text.padded 4 moment.year ++ ['-'] ++ Text.padded 2 moment.month ++ ['-'] ++
    Text.padded 2 moment.day

/-- Hour and minute. -/
def minuteText (moment : Moment) : Text :=
  Text.padded 2 moment.hour ++ [':'] ++ Text.padded 2 moment.minute

/-- Hour, minute and second. -/
def secondText (moment : Moment) : Text :=
  minuteText moment ++ [':'] ++ Text.padded 2 moment.second

/-- The standard form for machines. -/
def standard (moment : Moment) : Text :=
  dateText moment ++ ['T'] ++ secondText moment ++ shortFraction moment ++
    offsetText moment [':'] 2

/-- The value, the width and the usual padding of a field that is a number. -/
def numeric? (moment : Moment) : Char → Option (Nat × Nat × Padding)
  | 'Y' => some (moment.year, 4, .zero)
  | 'C' => some (moment.year / 100, 2, .zero)
  | 'y' => some (moment.year % 100, 2, .zero)
  | 'q' => some ((moment.month + 2) / 3, 1, .zero)
  | 'm' => some (moment.month, 2, .zero)
  | 'd' => some (moment.day, 2, .zero)
  | 'e' => some (moment.day, 2, .space)
  | 'w' => some ((moment.weekday + 1) % 7, 1, .zero)
  | 'u' => some (moment.weekday + 1, 1, .zero)
  | 'U' => some ((moment.yearDay + 6 - (moment.weekday + 1) % 7) / 7, 2, .zero)
  | 'W' => some ((moment.yearDay + 6 - moment.weekday) / 7, 2, .zero)
  | 'G' => some (moment.yearWeek.1, 4, .zero)
  | 'g' => some (moment.yearWeek.1 % 100, 2, .zero)
  | 'V' => some (moment.yearWeek.2, 2, .zero)
  | 'j' => some (moment.yearDay, 3, .zero)
  | 'H' => some (moment.hour, 2, .zero)
  | 'k' => some (moment.hour, 2, .space)
  | 'I' => some (moment.hour12, 2, .zero)
  | 'l' => some (moment.hour12, 2, .space)
  | 'M' => some (moment.minute, 2, .zero)
  | 'S' => some (moment.second, 2, .zero)
  | 'f' => some (moment.nano, 9, .zero)
  | 's' => some (moment.epochSeconds.toNat, 1, .none)
  | _ => none

/-- The text of a field that is not a number. -/
def textual? (moment : Moment) : Char → Option Text
  | 'b' => some ((months.getD (moment.month - 1) []).take 3)
  | 'h' => some ((months.getD (moment.month - 1) []).take 3)
  | 'B' => some (months.getD (moment.month - 1) [])
  | 'a' => some ((weekdays.getD moment.weekday []).take 3)
  | 'A' => some (weekdays.getD moment.weekday [])
  | 'D' => some (slashDate)
  | 'x' => some (slashDate)
  | 'F' => some (dateText moment)
  | 'v' => some (number .space 2 moment.day ++ ['-'] ++
      (months.getD (moment.month - 1) []).take 3 ++ ['-'] ++ Text.padded 4 moment.year)
  | 'R' => some (minuteText moment)
  | 'T' => some (secondText moment)
  | 'X' => some (secondText moment)
  | 'r' => some (Text.padded 2 moment.hour12 ++ [':'] ++ Text.padded 2 moment.minute ++ [':'] ++
      Text.padded 2 moment.second ++ [' '] ++ (if moment.hour < 12 then ['A', 'M'] else ['P', 'M']))
  | 'P' => some (if moment.hour < 12 then ['a', 'm'] else ['p', 'm'])
  | 'p' => some (if moment.hour < 12 then ['A', 'M'] else ['P', 'M'])
  | 'Z' => some (offsetText moment [':'] 2)
  | 'z' => some (offsetText moment [] 2)
  | 'c' => some ((weekdays.getD moment.weekday []).take 3 ++ [' '] ++
      (months.getD (moment.month - 1) []).take 3 ++ [' '] ++ number .space 2 moment.day ++ [' '] ++
      secondText moment ++ [' '] ++ Text.padded 4 moment.year)
  | '+' => some (standard moment)
  | 't' => some ['\t']
  | 'n' => some ['\n']
  | '%' => some ['%']
  | _ => none
where
  /-- Month, day and the last two digits of the year. -/
  slashDate : Text :=
    Text.padded 2 moment.month ++ ['/'] ++ Text.padded 2 moment.day ++ ['/'] ++
      Text.padded 2 (moment.year % 100)

/-- The text of a field after its percent sign, and the rest of the pattern. -/
def field? (moment : Moment) : Text → Option (Text × Text)
  | '-' :: c :: rest => padded .none c rest
  | '_' :: c :: rest => padded .space c rest
  | '0' :: c :: rest => padded .zero c rest
  | '3' :: 'f' :: rest => some (fraction moment 3, rest)
  | '6' :: 'f' :: rest => some (fraction moment 6, rest)
  | '9' :: 'f' :: rest => some (fraction moment 9, rest)
  | '.' :: 'f' :: rest => some (shortFraction moment, rest)
  | '.' :: '3' :: 'f' :: rest => some ('.' :: fraction moment 3, rest)
  | '.' :: '6' :: 'f' :: rest => some ('.' :: fraction moment 6, rest)
  | '.' :: '9' :: 'f' :: rest => some ('.' :: fraction moment 9, rest)
  | ':' :: 'z' :: rest => some (offsetText moment [':'] 2, rest)
  | ':' :: ':' :: 'z' :: rest => some (offsetText moment [':'] 3, rest)
  | ':' :: ':' :: ':' :: 'z' :: rest => some (offsetText moment [':'] 1, rest)
  | c :: rest =>
    match numeric? moment c with
    | some (value, width, padding) => some (number padding width value, rest)
    | none => (textual? moment c).map (·, rest)
  | [] => none
where
  /-- A number with a padding of its own. -/
  padded (padding : Padding) (c : Char) (rest : Text) : Option (Text × Text) :=
    (numeric? moment c).map fun (value, width, _) => (number padding width value, rest)

/-- The text of a moment after a valid pattern. The fuel bounds the number of steps, and a pattern
has no more steps than characters. -/
def formatFrom? (moment : Moment) : Nat → Text → Option Text
  | _, [] => some []
  | 0, _ => none
  | fuel + 1, '%' :: rest => do
    let (text, rest) ← field? moment rest
    return text ++ (← formatFrom? moment fuel rest)
  | fuel + 1, c :: rest => do
    return c :: (← formatFrom? moment fuel rest)

/-- The text of a moment after a pattern. -/
def format (moment : Moment) (pattern : Text) : Text :=
  (formatFrom? moment pattern.length pattern).getD (standard moment)

/-- The first of March 2024 was a Friday in the ninth week. -/
example : format ⟨2024, 3, 1, 9, 5, 7, 0, 3600⟩ "%F %T %a %V %j %:z".toList =
    "2024-03-01 09:05:07 Fri 09 061 +01:00".toList := by decide +kernel

end Stamp
end LinkedNotes
