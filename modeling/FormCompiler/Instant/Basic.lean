import FormCompiler.Instant.Calendar
import FormCompiler.Text.Search

/-!
# Instants

A point of universal time: whole seconds since the beginning of 1970 and nanoseconds after them. In
a leap second the second before goes on, so the nanoseconds reach a thousand million.
-/

namespace FormCompiler

/-- A point of universal time. -/
structure Instant where
  seconds : Int
  nanos : Nat
  deriving DecidableEq

namespace Instant

def dayAndSecond (instant : Instant) : Int × Nat :=
  let day := instant.seconds.fdiv 86400
  (day, (instant.seconds - day * 86400).toNat)

/-- The instant of a Unix time, if the calendar reaches so far. Only the last second of a minute may
go on into a leap second. -/
def ofUnix? (seconds : Int) (nanos : Nat) : Option Instant :=
  let instant : Instant := ⟨seconds, nanos⟩
  let (day, second) := instant.dayAndSecond
  let year := (Date.ofDays day).year
  if Date.yearBounds.1 ≤ year && year ≤ Date.yearBounds.2 && nanos < 2000000000 &&
      (nanos < 1000000000 || second % 60 == 59) then
    some instant
  else none

/-! ## Writing -/

/-- A year in four digits, and with a sign when four digits are not enough or it is negative. -/
def yearText (year : Int) : String :=
  if 0 ≤ year && year ≤ 9999 then Text.paddedDecimal 4 year.toNat
  else (if year < 0 then "-" else "+") ++ Text.paddedDecimal 4 year.natAbs

/-- The date, and the time of day to the second, with a separator between the two. -/
def timeText (instant : Instant) (separator : String) : String :=
  let (day, second) := instant.dayAndSecond
  let date := Date.ofDays day
  yearText date.year ++ "-" ++ Text.paddedDecimal 2 date.month ++ "-" ++
    Text.paddedDecimal 2 date.day ++ separator ++
    Text.paddedDecimal 2 (second / 3600) ++ ":" ++ Text.paddedDecimal 2 (second / 60 % 60) ++ ":" ++
    Text.paddedDecimal 2 (second % 60 + instant.nanos / 1000000000)

/-- The fraction of the second in as few groups of three digits as give it exactly. -/
def fractionText (instant : Instant) : String :=
  let nanos := instant.nanos % 1000000000
  if nanos = 0 then ""
  else if nanos % 1000000 = 0 then "." ++ Text.paddedDecimal 3 (nanos / 1000000)
  else if nanos % 1000 = 0 then "." ++ Text.paddedDecimal 6 (nanos / 1000)
  else "." ++ Text.paddedDecimal 9 nanos

def display (instant : Instant) : String :=
  instant.timeText "T" ++ instant.fractionText ++ "Z"

end Instant

end FormCompiler
