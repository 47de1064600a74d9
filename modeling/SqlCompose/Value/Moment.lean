import SqlCompose.Text.Digit

/-!
# Moments

A time of day, alone or with a date, may carry an offset from universal time, and then it names a moment of universal time. A time with an offset never equals one without.

Two dates with times are equal when they name the same moment. Two times of day with offsets are compared by their universal times in whole seconds, the offsets rounded down, and then by the fractions of a second as they are written; so two times can be equal and yet name moments that differ by less than a second.
-/

namespace SqlCompose

/-- A time of day in microseconds since midnight, and the offset in microseconds if there is one. -/
structure ClockTime where
  hour : Nat
  minute : Nat
  second : Nat
  microsecond : Nat
  offset : Option Int
  deriving DecidableEq, Repr

structure CalendarDate where
  year : Nat
  month : Nat
  day : Nat
  deriving DecidableEq, Repr

namespace CalendarDate

def ofText (text : Text) : CalendarDate :=
  match Text.split '-' text with
  | [year, month, day] => ⟨Text.numeralValue year, Text.numeralValue month, Text.numeralValue day⟩
  | _ => ⟨1, 1, 1⟩

/-- Days since the first of March of a year nought, counted with March as the first month, so that a leap day ends a year. -/
def dayNumber (date : CalendarDate) : Int :=
  let year : Int := if date.month ≤ 2 then (date.year : Int) - 1 else date.year
  let month := (date.month + 9) % 12
  365 * year + Int.fdiv year 4 - Int.fdiv year 100 + Int.fdiv year 400 + ((153 * month + 2) / 5 : Nat) + date.day

end CalendarDate

namespace ClockTime

/-- Hours, minutes, seconds and microseconds of a text such as `10:30:00.250000`. -/
private def fields (text : Text) : Nat × Nat × Nat × Nat :=
  let clock := text.takeWhile (· != '.')
  let fraction := (text.drop clock.length).drop 1
  let micro := Text.numeralValue ((fraction ++ List.replicate 6 '0').take 6)
  match (Text.split ':' clock).map Text.numeralValue with
  | [hour, minute, second] => (hour, minute, second, micro)
  | [hour, minute] => (hour, minute, 0, micro)
  | _ => (0, 0, 0, micro)

private def microseconds : Nat × Nat × Nat × Nat → Int
  | (hour, minute, second, micro) => ((hour * 60 + minute) * 60 + second) * 1000000 + micro

def ofText (text : Text) : ClockTime :=
  let clock := text.takeWhile fun c => c != '+' && c != '-'
  let (hour, minute, second, micro) := fields clock
  let offset := match text.drop clock.length with
    | '+' :: shift => some (microseconds (fields shift))
    | '-' :: shift => some (-microseconds (fields shift))
    | _ => none
  ⟨hour, minute, second, micro, offset⟩

def sinceMidnight (time : ClockTime) : Int :=
  microseconds (time.hour, time.minute, time.second, time.microsecond)

def universal? (time : ClockTime) : Option Int :=
  time.offset.map (time.sinceMidnight - ·)

/-- Seconds since midnight of universal time, with the offset rounded down to seconds. -/
def universalSeconds (time : ClockTime) (offset : Int) : Int :=
  (time.hour * 60 + time.minute) * 60 + time.second - Int.fdiv offset 1000000

end ClockTime

def splitMoment (text : Text) : CalendarDate × ClockTime :=
  (CalendarDate.ofText (text.take 10), ClockTime.ofText (text.drop 11))

def universalMoment? (text : Text) : Option Int :=
  let (date, time) := splitMoment text
  time.universal?.map (date.dayNumber * 86400000000 + ·)

/-- Whether two texts, each with a time of day alone, name the same moment of universal time; one without an offset names none. -/
def sameClockMoment (left right : Text) : Bool :=
  (ClockTime.ofText left).universal? == (ClockTime.ofText right).universal?

end SqlCompose
