/-!
# Dates of the calendar

Days of the proleptic Gregorian calendar are counted from the first of January 1970. Within a cycle
of four hundred years the count is a matter of division only, when the year begins in March and the
leap day is its last one.
-/

namespace FormCompiler

structure Date where
  year : Int
  month : Nat
  day : Nat
  deriving DecidableEq

namespace Date

def isLeapYear (year : Int) : Bool :=
  year.fmod 4 == 0 && (year.fmod 100 != 0 || year.fmod 400 == 0)

def daysInMonth (year : Int) (month : Nat) : Nat :=
  if month = 2 then if isLeapYear year then 29 else 28
  else if month = 4 || month = 6 || month = 9 || month = 11 then 30
  else 31

def yearBounds : Int × Int := (-262143, 262142)

/-- The date of a year, a month and a day, if there is such a day. -/
def ofParts? (year : Int) (month day : Nat) : Option Date :=
  if yearBounds.1 ≤ year && year ≤ yearBounds.2 && 1 ≤ month && month ≤ 12 && 1 ≤ day &&
      day ≤ daysInMonth year month then
    some ⟨year, month, day⟩
  else none

/-- The number of the day, where the first of January 1970 has number zero. -/
def toDays (date : Date) : Int :=
  let year := if date.month ≤ 2 then date.year - 1 else date.year
  let cycle := year.fdiv 400
  let yearOfCycle := (year - cycle * 400).toNat
  let monthFromMarch := (date.month + 9) % 12
  let dayOfYear := (153 * monthFromMarch + 2) / 5 + date.day - 1
  let dayOfCycle := yearOfCycle * 365 + yearOfCycle / 4 - yearOfCycle / 100 + dayOfYear
  cycle * 146097 + dayOfCycle - 719468

/-- The date of the day with a number. -/
def ofDays (days : Int) : Date :=
  let fromMarch := days + 719468
  let cycle := fromMarch.fdiv 146097
  let dayOfCycle := (fromMarch - cycle * 146097).toNat
  let yearOfCycle :=
    (dayOfCycle - dayOfCycle / 1460 + dayOfCycle / 36524 - dayOfCycle / 146096) / 365
  let dayOfYear := dayOfCycle - (365 * yearOfCycle + yearOfCycle / 4 - yearOfCycle / 100)
  let monthFromMarch := (5 * dayOfYear + 2) / 153
  let day := dayOfYear - (153 * monthFromMarch + 2) / 5 + 1
  let month := if monthFromMarch < 10 then monthFromMarch + 3 else monthFromMarch - 9
  let year := cycle * 400 + yearOfCycle
  ⟨if month ≤ 2 then year + 1 else year, month, day⟩

example : (Date.mk 1970 1 1).toDays = 0 := by decide
example : Date.ofDays 11016 = ⟨2000, 2, 29⟩ := by decide
example : (Date.mk 2000 2 29).toDays = 11016 := by decide
example : Date.ofDays (-719529) = ⟨-1, 12, 31⟩ := by decide

end Date

end FormCompiler
