import FormCompiler.Binary64.Scaling
import FormCompiler.Json.Document
import FormCompiler.Numeral.Reader

/-!
# Reading JSON texts

`Node.read` turns a text into a document. Every step of the reader takes at least one character or
ends the document, so a number of steps that grows with the length of the text is enough.
-/

namespace FormCompiler.Json

/-- Blanks between the parts of a JSON text. -/
def isGap (c : Char) : Bool := c = ' ' || c = '\t' || c = '\n' || c = '\r'

def skipGap (input : List Char) : List Char := input.dropWhile isGap

def hexDigit? (c : Char) : Option Nat :=
  if '0' ≤ c && c ≤ '9' then some (c.toNat - 48)
  else if 'a' ≤ c && c ≤ 'f' then some (c.toNat - 87)
  else if 'A' ≤ c && c ≤ 'F' then some (c.toNat - 55)
  else none

/-- The code unit that four hexadecimal digits name, and what follows them. Less than four bytes
of text are an early end. -/
def codeUnit : List Char → Except Fault (Nat × List Char)
  | a :: b :: c :: d :: rest =>
      match hexDigit? a, hexDigit? b, hexDigit? c, hexDigit? d with
      | some a, some b, some c, some d => .ok (((a * 16 + b) * 16 + c) * 16 + d, rest)
      | _, _, _, _ => .error .malformed
  | short => .error (if (String.ofList short).utf8ByteSize < 4 then .endsEarly else .malformed)

/-- The character that a one-letter escape stands for. -/
def escape? : Char → Option Char
  | '"' => some '"'
  | '\\' => some '\\'
  | '/' => some '/'
  | 'b' => some (Char.ofNat 8)
  | 'f' => some (Char.ofNat 12)
  | 'n' => some '\n'
  | 'r' => some '\r'
  | 't' => some '\t'
  | _ => none

/-- The second half of a surrogate pair, which must follow the first half. -/
def lowSurrogate : List Char → Except Fault (Nat × List Char)
  | [] => .error .endsEarly
  | ['\\'] => .error .endsEarly
  | '\\' :: 'u' :: rest => do
      let (unit, rest) ← codeUnit rest
      if 0xDC00 ≤ unit && unit ≤ 0xDFFF then .ok (unit, rest) else .error .malformed
  | _ => .error .malformed

/-- The character that begins with a code unit, and what follows it. -/
def scalar (unit : Nat) (rest : List Char) : Except Fault (Char × List Char) :=
  if 0xDC00 ≤ unit && unit ≤ 0xDFFF then .error .malformed
  else if 0xD800 ≤ unit && unit ≤ 0xDBFF then do
    let (low, rest) ← lowSurrogate rest
    .ok (Char.ofNat (0x10000 + (unit - 0xD800) * 0x400 + (low - 0xDC00)), rest)
  else .ok (Char.ofNat unit, rest)

/-- The content of a text after its opening quote, and what follows the closing one. -/
def keptText : Nat → List Char → Except Fault (List Char × List Char)
  | 0, _ => .error .endsEarly
  | _, [] => .error .endsEarly
  | _, '"' :: rest => .ok ([], rest)
  | _, ['\\'] => .error .endsEarly
  | steps + 1, '\\' :: 'u' :: rest => do
      let (unit, rest) ← codeUnit rest
      let (c, rest) ← scalar unit rest
      let (content, rest) ← keptText steps rest
      .ok (c :: content, rest)
  | steps + 1, '\\' :: c :: rest =>
      match escape? c with
      | some c => do
          let (content, rest) ← keptText steps rest
          .ok (c :: content, rest)
      | none => .error .malformed
  | steps + 1, c :: rest =>
      if c.toNat < 32 then .error .malformed
      else do
        let (content, rest) ← keptText steps rest
        .ok (c :: content, rest)

/-- What follows the closing quote of a text that is passed over. -/
def passedText : Nat → List Char → Except Fault (List Char)
  | 0, _ => .error .endsEarly
  | _, [] => .error .endsEarly
  | _, '"' :: rest => .ok rest
  | _, ['\\'] => .error .endsEarly
  | steps + 1, '\\' :: 'u' :: rest => do
      let (_, rest) ← codeUnit rest
      passedText steps rest
  | steps + 1, '\\' :: c :: rest =>
      if (escape? c).isSome then passedText steps rest else .error .malformed
  | steps + 1, c :: rest => if c.toNat < 32 then .error .malformed else passedText steps rest

/-- A text after its opening quote; more steps than the input has characters are enough. -/
def readText (steps : Nat) (input : List Char) :
    Except (Fault × Fault) (Except Fault String × List Char) :=
  match keptText steps input, passedText steps input with
  | .ok (content, rest), _ => .ok (.ok (String.ofList content), rest)
  | .error kept, .ok rest => .ok (.error kept, rest)
  | .error kept, .error passed => .error (kept, passed)

/-- A broken number: at the end of the text one that is kept ends early. -/
def numberFaults (rest : List Char) : Fault × Fault :=
  (if rest.isEmpty then .endsEarly else .malformed, .malformed)

/-- The exponent of a number after the letter `e`, and what follows it. -/
def readExponent (input : List Char) : Except (Fault × Fault) (Int × List Char) :=
  let (negative, unsigned) := Numeral.takeSign input
  let (digits, rest) := Numeral.takeDigits unsigned
  if digits.isEmpty then .error (numberFaults rest)
  else
    let value := Numeral.valueOf digits
    .ok (if negative then -(value : Int) else value, rest)

/-- Whether the first character of a text is the given one, and what follows it. -/
def takeOne (accept : Char → Bool) : List Char → Bool × List Char
  | c :: rest => if accept c then (true, rest) else (false, c :: rest)
  | [] => (false, [])

/-- Takes digits into a significand as long as it has 64 bits, and gives the digits that are
left. -/
def takeSignificand (significand : Nat) : List Char → Nat × List Char
  | [] => (significand, [])
  | c :: rest =>
      let next := significand * 10 + (c.toNat - 48)
      if next < UInt64.size then takeSignificand next rest else (significand, c :: rest)

/-- The number of the parts of a numeral. Whole numbers of 64 bits stay whole. All others are a
significand of 64 bits that is scaled by a power of ten, so they need not be the nearest ones; a
digit for which the significand has no room counts by its place only. -/
def numberOf (negative isWhole : Bool) (whole fraction : List Char) (exponent : Int) :
    Option JsonNumber :=
  let (significand, dropped) := takeSignificand 0 whole
  let signed : Int := if negative then -(significand : Int) else significand
  -- a negative zero is no whole number, and neither is one below the 64 bits with a sign
  if isWhole && dropped.isEmpty && !(negative && significand = 0) &&
      Int64.minValue.toInt ≤ signed then
    some (.whole signed)
  else
    let (significand, left) := takeSignificand significand fraction
    let places : Int := fraction.length - left.length
    let x := (Binary64.ofNat significand).scaled (exponent + dropped.length - places)
    if x.isFinite then some (.real (.ofMagnitude negative x.magnitude)) else none

/-- A number, and what follows it. -/
def readNumber (input : List Char) :
    Except (Fault × Fault) (Option JsonNumber × List Char) := do
  let (negative, unsigned) := takeOne (· == '-') input
  let (digits, rest) := Numeral.takeDigits unsigned
  if digits.isEmpty then .error (numberFaults rest)
  else if digits.length ≠ 1 && digits.head? = some '0' then .error (.malformed, .malformed)
  else
    let (point, afterPoint) := takeOne (· == '.') rest
    let (fraction, rest) := if point then Numeral.takeDigits afterPoint else ([], rest)
    if point && fraction.isEmpty then .error (numberFaults rest)
    else
      let (mark, afterMark) := takeOne (fun c => c == 'e' || c == 'E') rest
      let (exponent, rest) ← if mark then readExponent afterMark else .ok (0, rest)
      .ok (numberOf negative (!point && !mark) digits fraction exponent, rest)

/-- The rest after the letters of a word. -/
def readWord : (word input : List Char) → Except Fault (List Char)
  | [], input => .ok input
  | _ :: _, [] => .error .endsEarly
  | a :: word, b :: input => if a = b then readWord word input else .error .malformed

/-- A node that ends the document. -/
def broken (start : Start) (faults : Fault × Fault) : Node × Option (List Char) :=
  (.broken start faults.1 faults.2, none)

/-- A word that stands for a value. -/
def wordNode (value : Node) (word input : List Char) : Node × Option (List Char) :=
  match readWord word input with
  | .ok rest => (value, some rest)
  | .error fault =>
      broken (if word.head? = some 'n' then .letterN else .other) (fault, fault)

mutual

/-- The value at the beginning of a text, and what follows it unless the text breaks. -/
def readNode : Nat → List Char → Node × Option (List Char)
  | 0, _ => broken .nothing (.endsEarly, .endsEarly)
  | steps + 1, input =>
      match skipGap input with
      | [] => broken .nothing (.endsEarly, .endsEarly)
      | c :: rest =>
          if c = '"' then
            match readText steps rest with
            | .ok (content, rest) => (.text content, some rest)
            | .error faults => broken .quote faults
          else if c = '[' then
            let (items, rest) := readItems steps true rest
            (.array items, rest)
          else if c = '\x7b' then
            let (members, rest) := readMembers steps true rest
            (.object members, rest)
          else if c = 'n' then wordNode .null "null".toList (c :: rest)
          else if c = 't' then wordNode (.boolean true) "true".toList (c :: rest)
          else if c = 'f' then wordNode (.boolean false) "false".toList (c :: rest)
          else if c = '-' || c.isDigit then
            match readNumber (c :: rest) with
            | .ok (value, rest) => (.number value, some rest)
            | .error faults => broken .other faults
          else broken .other (.malformed, .malformed)

/-- The items of an array; `first` says that none has been read. -/
def readItems : Nat → Bool → List Char → Items × Option (List Char)
  | 0, _, _ => (.done (.broken .endsEarly), none)
  | steps + 1, first, input =>
      match skipGap input with
      | [] => (.done (.broken .endsEarly), none)
      | ']' :: rest => (.done .closed, some rest)
      | c :: rest =>
          if first then readItem steps (c :: rest)
          else if c = ',' then
            match skipGap rest with
            | [] => (.done (.dangling .endsEarly), none)
            | ']' :: _ => (.done (.dangling .malformed), none)
            | next => readItem steps next
          else (.done (.broken .malformed), none)

/-- One item and all after it. -/
def readItem : Nat → List Char → Items × Option (List Char)
  | 0, _ => (.done (.broken .endsEarly), none)
  | steps + 1, input =>
      match readNode steps input with
      | (head, none) => (.more head (.done (.broken .malformed)), none)
      | (head, some rest) =>
          let (items, rest) := readItems steps false rest
          (.more head items, rest)

def readMembers : Nat → Bool → List Char → Members × Option (List Char)
  | 0, _, _ => (.done (.broken .endsEarly), none)
  | steps + 1, first, input =>
      match skipGap input with
      | [] => (.done (.broken .endsEarly), none)
      | '\x7d' :: rest => (.done .closed, some rest)
      | c :: rest =>
          if first then
            if c = '"' then readMember steps rest
            else (.stray (readNode steps (c :: rest)).1, none)
          else if c = ',' then
            match skipGap rest with
            | [] => (.done (.dangling .endsEarly), none)
            | '"' :: next => readMember steps next
            | _ => (.done (.dangling .malformed), none)
          else (.done (.broken .malformed), none)

def readMember : Nat → List Char → Members × Option (List Char)
  | 0, _ => (.done (.broken .endsEarly), none)
  | steps + 1, input =>
      match readText steps input with
      | .error faults =>
          (.more (.error faults.1) (.broken .quote faults.1 faults.2) (.done (.broken .malformed)),
            none)
      | .ok (name, rest) =>
          match skipGap rest with
          | [] =>
              (.more name (.broken .nothing .endsEarly .endsEarly) (.done (.broken .malformed)),
                none)
          | ':' :: rest =>
              match readNode steps rest with
              | (value, none) => (.more name value (.done (.broken .malformed)), none)
              | (value, some rest) =>
                  let (members, rest) := readMembers steps false rest
                  (.more name value members, rest)
          | _ =>
              (.more name (.broken .nothing .malformed .malformed) (.done (.broken .malformed)),
                none)

end

/-- The document of a text, and the fault of what stands after it. -/
def read (input : String) : Node × Option Fault :=
  let chars := input.toList
  match readNode (3 * chars.length + 3) chars with
  | (node, none) => (node, none)
  | (node, some rest) => (node, if (skipGap rest).isEmpty then none else some .malformed)

/-- Reads a value with a typed reader. Every fault is a mismatch, for a value is well formed. -/
def decodeWith {α : Type} (reader : Node → Except Fault α) (value : Json) : Except Fault α :=
  (reader value.toNode).mapError fun _ => .mismatch

end FormCompiler.Json
