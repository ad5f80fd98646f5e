import FormCompiler.Instant.Calendar
import FormCompiler.Numeral.Reader
import FormCompiler.Text.Search
import FormCompiler.Toml.Table

/-!
# Scalars of a TOML document

Numbers, truth values, dates and times that are written without quotes. Underscores may stand
between digits, a decimal whole number has no needless zero in front, and whole numbers have 64
bits with a sign.
-/

namespace FormCompiler.Toml

/-- A character of a scalar without quotes. -/
def isScalarChar (c : Char) : Bool :=
  c.isAlphanum || c = '+' || c = '-' || c = '.' || c = '_' || c = ':'

/-- Digits with single underscores between them, without the underscores. -/
def groupedDigits? (isDigit : Char → Bool) (digits : List Char) : Option (List Char) :=
  let groups := Text.pieces '_' digits
  if groups.all fun group => !group.isEmpty && group.all isDigit then some groups.flatten else none

def digitsIn (radix : Nat) (digits : List Char) : Nat :=
  digits.foldl
    (fun value c =>
      value * radix +
        (if c.isDigit then c.toNat - 48 else if c.isUpper then c.toNat - 55 else c.toNat - 87))
    0

def isDigitIn (radix : Nat) (c : Char) : Bool :=
  if radix = 16 then c.isDigit || ('a' ≤ c && c ≤ 'f') || ('A' ≤ c && c ≤ 'F')
  else c.isDigit && c.toNat - 48 < radix

/-- A whole number, if it has 64 bits. -/
def wholeItem? (value : Int) : Option Item :=
  if Int64.minValue.toInt ≤ value && value ≤ Int64.maxValue.toInt then some (.whole value) else none

/-- A whole number with a mark of its radix, after the mark. -/
def radixItem? (radix : Nat) (digits : List Char) : Option Item := do
  let digits ← groupedDigits? (isDigitIn radix) digits
  wholeItem? (digitsIn radix digits)

/-- The digits of a decimal number without needless zeros in front. -/
def decimalDigits? (digits : List Char) : Option (List Char) := do
  let digits ← groupedDigits? Char.isDigit digits
  if digits.length ≠ 1 && digits.head? = some '0' then none else pure digits

def decimalItem? (token : List Char) : Option Item := do
  let (negative, unsigned) := Numeral.takeSign token
  let digits ← decimalDigits? unsigned
  let value := Numeral.valueOf digits
  wholeItem? (if negative then -(value : Int) else value)

/-- A number with a fraction or an exponent. -/
def realItem? (token : List Char) : Option Item := do
  let (negative, unsigned) := Numeral.takeSign token
  if unsigned = "inf".toList then pure (.real (.infinity negative))
  else if unsigned = "nan".toList then pure (.real .undefined)
  else
    let (mantissa, exponent) :=
      (unsigned.takeWhile fun c => c ≠ 'e' && c ≠ 'E',
        unsigned.dropWhile fun c => c ≠ 'e' && c ≠ 'E')
    let (whole, fraction) := (mantissa.takeWhile (· ≠ '.'), mantissa.dropWhile (· ≠ '.'))
    if fraction.isEmpty && exponent.isEmpty then none
    else
      let whole ← decimalDigits? whole
      let fraction ← if fraction.isEmpty then some [] else groupedDigits? Char.isDigit fraction.tail
      let exponent ←
        if exponent.isEmpty then some (0 : Int)
        else
          let (negative, digits) := Numeral.takeSign exponent.tail
          (groupedDigits? Char.isDigit digits).map fun digits =>
            if negative then -(Numeral.valueOf digits : Int) else Numeral.valueOf digits
      let value := Binary64.ofDecimal
        ⟨negative, Numeral.valueOf (whole ++ fraction), exponent - fraction.length⟩
      if value.isFinite then pure (.real value) else none

/-! ## Dates and times -/

/-- The number of a fixed count of digits at the beginning of a text, and what follows them. -/
def fixedDigits? (count : Nat) (input : List Char) : Option (Nat × List Char) :=
  let digits := input.take count
  if digits.length = count && digits.all Char.isDigit then
    some (Numeral.valueOf digits, input.drop count)
  else none

def afterDate? (input : List Char) : Option (List Char) := do
  let (year, rest) ← fixedDigits? 4 input
  let rest ← Text.after? ['-'] rest
  let (month, rest) ← fixedDigits? 2 rest
  let rest ← Text.after? ['-'] rest
  let (day, rest) ← fixedDigits? 2 rest
  let _ ← Date.ofParts? year month day
  pure rest

def afterTime? (input : List Char) : Option (List Char) := do
  let (hour, rest) ← fixedDigits? 2 input
  let rest ← Text.after? [':'] rest
  let (minute, rest) ← fixedDigits? 2 rest
  let rest ← Text.after? [':'] rest
  let (second, rest) ← fixedDigits? 2 rest
  if hour ≤ 23 && minute ≤ 59 && second ≤ 60 then
    match rest with
    | '.' :: fraction =>
        if (fraction.takeWhile Char.isDigit).isEmpty then none
        else pure (fraction.dropWhile Char.isDigit)
    | rest => pure rest
  else none

/-- Whether a text is an offset from universal time. -/
def isOffset : List Char → Bool
  | [c] => c = 'Z' || c = 'z'
  | sign :: rest =>
      (sign = '+' || sign = '-') &&
        match fixedDigits? 2 rest with
        | some (hours, ':' :: rest) =>
            match fixedDigits? 2 rest with
            | some (minutes, []) => hours ≤ 23 && minutes ≤ 59
            | _ => false
        | _ => false
  | [] => false

def isDate (token : List Char) : Bool := afterDate? token = some []

/-- Whether a text is a date, a time of day, or both with or without an offset. -/
def isMoment (token : List Char) : Bool :=
  match afterDate? token with
  | some [] => true
  | some (mark :: rest) =>
      (mark = 'T' || mark = 't' || mark = ' ') &&
        match afterTime? rest with
        | some [] => true
        | some offset => isOffset offset
        | none => false
  | none => afterTime? token = some []

/-- The scalar that a text without quotes denotes. -/
def scalar? (token : List Char) : Option Item :=
  if token = "true".toList then some (.boolean true)
  else if token = "false".toList then some (.boolean false)
  else if isMoment token then some (.moment (String.ofList token))
  else
    match token with
    | '0' :: 'x' :: digits => radixItem? 16 digits
    | '0' :: 'o' :: digits => radixItem? 8 digits
    | '0' :: 'b' :: digits => radixItem? 2 digits
    | token => (decimalItem? token).or (realItem? token)

end FormCompiler.Toml
