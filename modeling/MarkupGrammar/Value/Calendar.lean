import MarkupGrammar.Text.Numeral

/-! # Dates and times of day

Dates of the proleptic Gregorian calendar, with a year zero, and times of day to the nanosecond. A
leap second is written as second 60; it is kept as second 59 with a billion nanoseconds added.

The written forms are read from left to right: `year-month-day`, `hour:minute:second` with an
optional fraction, and the two around a `T`. Numbers may have leading blanks and fewer digits than
usual; only a signed year may have more than four. Of two faults the leftmost is reported, except
that a day that its month does not have is noticed last. -/

namespace MarkupGrammar

/-! ## Dates -/

/-- A date. -/
structure Date where
  /-- The year; zero precedes one. -/
  year : Int
  /-- The month, from 1. -/
  month : Nat
  /-- The day of the month, from 1. -/
  day : Nat
  deriving DecidableEq, Repr, Inhabited

namespace Date

/-- Leap years of the Gregorian calendar. -/
def isLeap (year : Int) : Bool := year % 4 == 0 && (year % 100 != 0 || year % 400 == 0)

/-- The number of days of a month. -/
def daysIn (year : Int) (month : Nat) : Nat :=
  if month = 2 then if isLeap year then 29 else 28
  else if month = 4 ∨ month = 6 ∨ month = 9 ∨ month = 11 then 30
  else 31

/-- The years that are represented. -/
def yearInRange (year : Int) : Bool := -262143 ≤ year && year ≤ 262142

/-- The dates that are represented. -/
def isValid (d : Date) : Bool :=
  yearInRange d.year && 1 ≤ d.month && d.month ≤ 12 && 1 ≤ d.day && d.day ≤ daysIn d.year d.month

/-- The day after, if it is represented. -/
def next? (d : Date) : Option Date :=
  let after : Date :=
    if d.day < daysIn d.year d.month then ⟨d.year, d.month, d.day + 1⟩
    else if d.month < 12 then ⟨d.year, d.month + 1, 1⟩
    else ⟨d.year + 1, 1, 1⟩
  if yearInRange after.year then some after else none

/-- The day before, if it is represented. -/
def previous? (d : Date) : Option Date :=
  let before : Date :=
    if 1 < d.day then ⟨d.year, d.month, d.day - 1⟩
    else if 1 < d.month then ⟨d.year, d.month - 1, daysIn d.year (d.month - 1)⟩
    else ⟨d.year - 1, 12, 31⟩
  if yearInRange before.year then some before else none

/-- The chronological order. -/
def compare (a b : Date) : Ordering :=
  (Ord.compare a.year b.year).then ((Ord.compare a.month b.month).then (Ord.compare a.day b.day))

/-- The year in at least four digits, with a sign if it is before year 0 or after year 9999. -/
def yearText (year : Int) : String :=
  if 0 ≤ year ∧ year ≤ 9999 then Text.padded 4 year.toNat
  else (if year < 0 then "-" else "+") ++ Text.padded 4 year.natAbs

/-- The written form. -/
def text (d : Date) : String :=
  yearText d.year ++ "-" ++ Text.padded 2 d.month ++ "-" ++ Text.padded 2 d.day

end Date

/-! ## Times of day -/

/-- A time of day. -/
structure TimeOfDay where
  /-- Seconds since midnight. -/
  seconds : Nat
  /-- Nanoseconds since the beginning of the second; a billion or more in a leap second. -/
  nanos : Nat
  deriving DecidableEq, Repr, Inhabited

namespace TimeOfDay

/-- The number of seconds of a day. -/
def secondsPerDay : Nat := 86400

/-- The number of nanoseconds of a second. -/
def nanosPerSecond : Nat := 1000000000

/-- The chronological order. -/
def compare (a b : TimeOfDay) : Ordering :=
  (Ord.compare a.seconds b.seconds).then (Ord.compare a.nanos b.nanos)

/-- The time a number of minutes earlier, and by how many days it is later than on the same day. A
leap second is left towards the second before or after it, as the direction goes. -/
def minusMinutes (t : TimeOfDay) (minutes : Int) : TimeOfDay × Int :=
  if minutes = 0 then (t, 0)
  else
    let isLeap := nanosPerSecond ≤ t.nanos
    let nanos := if isLeap then t.nanos - nanosPerSecond else t.nanos
    let start : Int := if isLeap && minutes > 0 then t.seconds + 1 else t.seconds
    let total := start - minutes * 60
    (⟨(total % secondsPerDay).toNat, nanos⟩, total / secondsPerDay)

/-- The fraction of a second in three, six or nine digits, as many as it needs; nothing for zero. -/
def fractionText (nanos : Nat) : String :=
  if nanos = 0 then ""
  else if nanos % 1000000 = 0 then "." ++ Text.padded 3 (nanos / 1000000)
  else if nanos % 1000 = 0 then "." ++ Text.padded 6 (nanos / 1000)
  else "." ++ Text.padded 9 nanos

/-- The written form. -/
def text (t : TimeOfDay) : String :=
  let isLeap := nanosPerSecond ≤ t.nanos
  let second := t.seconds % 60 + if isLeap then 1 else 0
  let nanos := if isLeap then t.nanos - nanosPerSecond else t.nanos
  Text.padded 2 (t.seconds / 3600) ++ ":" ++ Text.padded 2 (t.seconds / 60 % 60) ++ ":" ++
    Text.padded 2 second ++ fractionText nanos

end TimeOfDay

/-- A date with a time of day. -/
structure DateTime where
  /-- The date. -/
  date : Date
  /-- The time of day. -/
  time : TimeOfDay
  deriving DecidableEq, Repr, Inhabited

namespace DateTime

/-- The chronological order. -/
def compare (a b : DateTime) : Ordering := (a.date.compare b.date).then (a.time.compare b.time)

/-- The date and time a number of minutes earlier, for less than a day, if it is represented. -/
def minusMinutes? (d : DateTime) (minutes : Int) : Option DateTime :=
  let (time, days) := d.time.minusMinutes minutes
  let date? := if days < 0 then d.date.previous? else if days > 0 then d.date.next? else some d.date
  date?.map fun date => ⟨date, time⟩

/-- The written form, with a space between date and time. -/
def text (d : DateTime) : String := d.date.text ++ " " ++ d.time.text

end DateTime

/-! ## Reading -/

namespace Calendar

/-- Why a text is no date or time. -/
inductive Fault where
  /-- The text ends too early. -/
  | tooShort
  /-- A character that does not belong there. -/
  | unexpected
  /-- A number that is too large or too small, or a date that does not exist. -/
  | outOfRange
  /-- The text does not end where it should. -/
  | tooLong
  deriving DecidableEq, Repr, Inhabited

/-- The report of a fault. -/
def Fault.message : Fault → String
  | .tooShort => "premature end of input"
  | .unexpected => "input contains invalid characters"
  | .outOfRange => "input is out of range"
  | .tooLong => "trailing input"

/-- Reads one given character. -/
def readMark (c : Char) : List Char → Except Fault (List Char)
  | [] => .error .tooShort
  | d :: s => if d = c then .ok s else .error .unexpected

/-- The digits that a text begins with, `max?` of them at most, and the rest. -/
def takeDigits (max? : Option Nat) (s : List Char) : List Char × List Char :=
  let digits := s.takeWhile Char.isDigit
  let digits := match max? with
    | some max => digits.take max
    | none => digits
  (digits, s.drop digits.length)

/-- Reads a number of at least one and at most `max?` digits. -/
def readDigits (max? : Option Nat) (s : List Char) : Except Fault (Nat × List Char) :=
  let (digits, rest) := takeDigits max? s
  match Text.digits? 10 digits with
  | some n => .ok (n, rest)
  | none => if s.isEmpty then .error .tooShort else .error .unexpected

/-- Reads a number of one or two digits within bounds, after blanks. -/
def readField (min max : Nat) (s : List Char) : Except Fault (Nat × List Char) := do
  let (n, rest) ← readDigits (some 2) (Text.dropBlanks s)
  if min ≤ n ∧ n ≤ max then return (n, rest) else throw .outOfRange

/-- Reads a year, after blanks: any number of digits after a sign, up to four without. -/
def readYear (s : List Char) : Except Fault (Int × List Char) := do
  let s := Text.dropBlanks s
  let (year, rest) ← match s with
    | '-' :: s => do
      let (n, rest) ← readDigits none s
      pure (-(n : Int), rest)
    | '+' :: s => do
      let (n, rest) ← readDigits none s
      pure ((n : Int), rest)
    | s => do
      let (n, rest) ← readDigits (some 4) s
      pure ((n : Int), rest)
  if -Int.pow 2 31 ≤ year ∧ year < Int.pow 2 31 then return (year, rest) else throw .outOfRange

/-- Reads year, month and day. -/
def readDateFields (s : List Char) : Except Fault (Date × List Char) := do
  let (year, s) ← readYear s
  let s ← readMark '-' s
  let (month, s) ← readField 1 12 s
  let s ← readMark '-' s
  let (day, s) ← readField 1 31 s
  return (⟨year, month, day⟩, s)

/-- Reads the fraction of a second, if there is one, in nanoseconds; digits after the ninth do not
count. -/
def readFraction (s : List Char) : Except Fault (Nat × List Char) :=
  match s with
  | '.' :: s => do
    let (n, rest) ← readDigits (some 9) s
    return (n * Nat.pow 10 (9 - (takeDigits (some 9) s).1.length), rest.dropWhile Char.isDigit)
  | s => .ok (0, s)

/-- Reads hour, minute and second. -/
def readTimeFields (s : List Char) : Except Fault (TimeOfDay × List Char) := do
  let (hour, s) ← readField 0 23 s
  let s ← readMark ':' s
  let (minute, s) ← readField 0 59 s
  let s ← readMark ':' s
  let (second, s) ← readField 0 60 s
  let (fraction, s) ← readFraction s
  let seconds := hour * 3600 + minute * 60 + Nat.min second 59
  return (⟨seconds, if second = 60 then TimeOfDay.nanosPerSecond + fraction else fraction⟩, s)

/-- Accepts the end of the text. -/
def readEnd (s : List Char) : Except Fault Unit :=
  if s.isEmpty then .ok () else .error .tooLong

/-- Accepts a date that exists. -/
def checkDate (d : Date) : Except Fault Date :=
  if d.isValid then .ok d else .error .outOfRange

/-- The date with the given written form. -/
def readDate (s : List Char) : Except Fault Date := do
  let (date, rest) ← readDateFields s
  readEnd rest
  checkDate date

/-- The time of day with the given written form. -/
def readTime (s : List Char) : Except Fault TimeOfDay := do
  let (time, rest) ← readTimeFields s
  readEnd rest
  return time

/-- The date and time with the given written form. -/
def readDateTime (s : List Char) : Except Fault DateTime := do
  let (date, s) ← readDateFields s
  let s ← readMark 'T' s
  let (time, rest) ← readTimeFields s
  readEnd rest
  return ⟨← checkDate date, time⟩

end Calendar

/-! ## Time zones -/

namespace Zone

/-- Why the end of a text is no time zone. -/
inductive Fault where
  /-- Hours or minutes are no number. -/
  | noNumber
  /-- The zone is more than 14 hours from the reference, or its minutes are more than 59. -/
  | outOfRange
  deriving DecidableEq, Repr, Inhabited

/-- Splits off characters with the given total width. -/
def takeWidth? : (width : Nat) → List Char → Option (List Char × List Char)
  | 0, s => some ([], s)
  | _ + 1, [] => none
  | n + 1, c :: s =>
    if c.utf8Size ≤ n + 1 then
      (takeWidth? (n + 1 - c.utf8Size) s).map fun (a, b) => (c :: a, b)
    else none
  termination_by _ s => s.length

/-- A sign, hours and minutes in two places each, around a colon, at the end of a text: the text
before them, whether the sign is a minus, and the two fields. A place is one byte wide, so the test
of the form does not look at what stands in the fields. -/
def fields? (s : List Char) : Option (List Char × Bool × List Char × List Char) := do
  let (minutes, s) ← takeWidth? 2 s.reverse
  let s ← match s with
    | ':' :: s => some s
    | _ => none
  let (hours, s) ← takeWidth? 2 s
  match s with
  | '+' :: s => some (s.reverse, false, hours.reverse, minutes.reverse)
  | '-' :: s => some (s.reverse, true, hours.reverse, minutes.reverse)
  | _ => none

/-- Splits a time zone, in minutes, off the end of a text: a `Z`, or fields as above. The numbers in
the fields may have signs of their own. -/
def split (s : List Char) : Except Fault (List Char × Option Int) :=
  if s.getLast? == some 'Z' then .ok (s.dropLast, some 0)
  else match fields? s with
    | none => .ok (s, none)
    | some (rest, isMinus, hours, minutes) =>
      match Text.signed? 10 hours, Text.signed? 10 minutes with
      | some h, some m =>
        if h > 14 ∨ m > 59 ∨ (h = 14 ∧ m ≠ 0) then .error .outOfRange
        else
          let offset := h * 60 + m
          .ok (rest, some (if isMinus then -offset else offset))
      | _, _ => .error .noNumber

end Zone

end MarkupGrammar
