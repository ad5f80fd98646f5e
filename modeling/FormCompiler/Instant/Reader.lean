import FormCompiler.Instant.Basic
import FormCompiler.Numeral.Reader
import FormCompiler.Text.Blank

/-!
# Reading instants

A date and a time of day with an offset from universal time. Blanks may stand around the numbers,
the offset must be there, and a fraction of the second counts to the ninth digit.
-/

namespace FormCompiler.Instant

def skipBlanks (input : List Char) : List Char := input.dropWhile Text.isBlank

/-- The digits at the beginning of a text, at most so many. -/
def leadingDigits : (most : Nat) → List Char → List Char × List Char
  | 0, input => ([], input)
  | _, [] => ([], [])
  | most + 1, c :: rest =>
      if c.isDigit then
        let (digits, rest) := leadingDigits most rest
        (c :: digits, rest)
      else ([], c :: rest)

/-- A number of at least one and at most so many digits, and what follows it. -/
def number? (most : Nat) (input : List Char) : Option (Nat × List Char) :=
  match leadingDigits most input with
  | ([], _) => none
  | (digits, rest) => some (Numeral.valueOf digits, rest)

/-- A number of one or two digits after blanks. -/
def twoDigits? (input : List Char) : Option (Nat × List Char) := number? 2 (skipBlanks input)

def mark? (mark : Char) (input : List Char) : Option (List Char) :=
  Text.after? [mark] (skipBlanks input)

/-- A year: up to four digits, or any number of digits after a sign. -/
def year? (input : List Char) : Option (Int × List Char) :=
  match skipBlanks input with
  | '-' :: rest => (number? rest.length rest).map fun (year, rest) => (-(year : Int), rest)
  | '+' :: rest => (number? rest.length rest).map fun (year, rest) => ((year : Int), rest)
  | rest => (number? 4 rest).map fun (year, rest) => ((year : Int), rest)

def separator? : List Char → Option (List Char)
  | c :: rest => if c = 't' || c = 'T' || c = ' ' then some rest else none
  | [] => none

/-- The nanoseconds of an optional fraction. -/
def fraction? : List Char → Option (Nat × List Char)
  | '.' :: rest =>
      match leadingDigits 9 rest with
      | ([], _) => none
      | (digits, rest) =>
          some (Numeral.valueOf digits * Nat.pow 10 (9 - digits.length),
            rest.dropWhile Char.isDigit)
  | rest => some (0, rest)

/-- The seconds of an offset in hours and minutes. -/
def hoursMinutes? : List Char → Option (Nat × List Char)
  | a :: b :: rest =>
      if a.isDigit && b.isDigit then
        match rest.dropWhile fun c => c = ':' || Text.isBlank c with
        | c :: d :: rest =>
            if '0' ≤ c && c ≤ '5' && d.isDigit then
              some (Numeral.valueOf [a, b] * 3600 + Numeral.valueOf [c, d] * 60, rest)
            else none
        | _ => none
      else none
  | _ => none

/-- The seconds of a signed offset, or zero for a mark of universal time. -/
def offset? : List Char → Option (Int × List Char)
  | [] => none
  | c :: rest =>
      if ((c :: rest).take 3).map Char.toLower = ['u', 't', 'c'] then
        some (0, (c :: rest).drop 3)
      else if c = 'Z' || c = 'z' then some (0, rest)
      else if c = '+' then
        (hoursMinutes? rest).map fun (seconds, rest) => ((seconds : Int), rest)
      else if c = '-' || c.toNat = 0x2212 then
        (hoursMinutes? rest).map fun (seconds, rest) => (-(seconds : Int), rest)
      else none

/-- The instant of a date and a time of day at an offset. The sixtieth second of a minute is a leap
second. -/
def ofLocal? (date : Date) (hour minute second nanos : Nat) (offset : Int) : Option Instant :=
  if hour ≤ 23 && minute ≤ 59 && second ≤ 60 && offset.natAbs < 86400 then
    let leap := second = 60
    let ofDay := hour * 3600 + minute * 60 + if leap then 59 else second
    let instant : Instant :=
      ⟨date.toDays * 86400 + ofDay - offset, if leap then nanos + 1000000000 else nanos⟩
    let year := (Date.ofDays instant.dayAndSecond.1).year
    if Date.yearBounds.1 ≤ year && year ≤ Date.yearBounds.2 then some instant else none
  else none

def read? (text : String) : Option Instant := do
  let (year, rest) ← year? text.toList
  let rest ← mark? '-' rest
  let (month, rest) ← twoDigits? rest
  let rest ← mark? '-' rest
  let (day, rest) ← twoDigits? rest
  let rest ← separator? rest
  let (hour, rest) ← twoDigits? rest
  let rest ← mark? ':' rest
  let (minute, rest) ← twoDigits? rest
  let rest ← mark? ':' rest
  let (second, rest) ← twoDigits? rest
  let (nanos, rest) ← fraction? rest
  let (offset, rest) ← offset? (skipBlanks rest)
  if (skipBlanks rest).isEmpty then
    let date ← Date.ofParts? year month day
    ofLocal? date hour minute second nanos offset
  else none

end FormCompiler.Instant
