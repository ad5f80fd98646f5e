import FormCompiler.Numeral.Reader
import FormCompiler.Pattern.Basic

/-!
# Reading patterns

A pattern is written as choices between sequences of items. An item is a character, an escape, a
class between brackets, an anchor or a group, each with any number of repetition marks after it. A
text that breaks these rules is no pattern.
-/

namespace FormCompiler.Pattern

/-- The hexadecimal digits of a text as a number. -/
def hexValue? (digits : List Char) : Option Nat :=
  if digits.isEmpty then none
  else
    digits.foldlM
      (fun value c =>
        if c.isDigit then some (value * 16 + (c.toNat - 48))
        else if 'a' ≤ c && c ≤ 'f' then some (value * 16 + (c.toNat - 87))
        else if 'A' ≤ c && c ≤ 'F' then some (value * 16 + (c.toNat - 55))
        else none)
      0

def charOf? (code : Nat) : Option Char := if code.isValidChar then some (Char.ofNat code) else none

/-- A character by its code: so many hexadecimal digits, or any number of them between braces. -/
def readCode? (width : Nat) : List Char → Option (Char × List Char)
  | '\x7b' :: rest =>
      match rest.dropWhile (· != '\x7d') with
      | _ :: after => do
          let c ← charOf? (← hexValue? (rest.takeWhile (· != '\x7d')))
          pure (c, after)
      | [] => none
  | rest =>
      if rest.length < width then none
      else do
        let c ← charOf? (← hexValue? (rest.take width))
        pure (c, rest.drop width)

/-- The characters that stand for themselves after a backslash: all of ASCII but letters, digits and
angle brackets. -/
def isEscapable (c : Char) : Bool := c.toNat < 128 && !c.isAlphanum && c ≠ '<' && c ≠ '>'

/-- What an escape in a pattern or a class may stand for. -/
inductive EscapeValue where
  | set (s : CharSet)
  | anchor (p : Pattern)

/-- The escape after a backslash. -/
def readEscape? : List Char → Option (EscapeValue × List Char)
  | [] => none
  | c :: rest =>
      let set (s : CharSet) : Option (EscapeValue × List Char) := some (.set s, rest)
      let code (width : Nat) : Option (EscapeValue × List Char) :=
        (readCode? width rest).map fun (c, rest) => (.set (.one c), rest)
      match c with
      | 'd' => set .digit
      | 'D' => set (.complement .digit)
      | 'w' => set .word
      | 'W' => set (.complement .word)
      | 's' => set .blank
      | 'S' => set (.complement .blank)
      | 'n' => set (.one '\n')
      | 't' => set (.one '\t')
      | 'r' => set (.one '\r')
      | 'f' => set (.one (Char.ofNat 12))
      | 'v' => set (.one (Char.ofNat 11))
      | 'a' => set (.one (Char.ofNat 7))
      | 'x' => code 2
      | 'u' => code 4
      | 'U' => code 8
      | 'A' => some (.anchor .textStart, rest)
      | 'z' => some (.anchor .textEnd, rest)
      | 'b' => some (.anchor (.wordEdge false), rest)
      | 'B' => some (.anchor (.wordEdge true), rest)
      | c => if isEscapable c then set (.one c) else none

/-- One character of a class or an escaped set, and what follows it. -/
def readClassItem? : List Char → Option (CharSet × List Char)
  | [] => none
  | '\\' :: rest =>
      match readEscape? rest with
      | some (.set s, rest) => some (s, rest)
      | _ => none
  | c :: rest => some (.one c, rest)

/-- The single character of a set. -/
def single? : CharSet → Option Char
  | .range low high => if low = high then some low else none
  | _ => none

/-- A character or a range of a class. A hyphen before another one is no part of a range. -/
def readRange? (input : List Char) : Option (CharSet × List Char) := do
  let (low, rest) ← readClassItem? input
  match rest with
  | '-' :: ']' :: _ => pure (low, rest)
  | '-' :: '-' :: _ => pure (low, rest)
  | '-' :: after => do
      let (high, rest) ← readClassItem? after
      let low ← single? low
      let high ← single? high
      if low ≤ high then pure (.range low high, rest) else none
  | _ => pure (low, rest)

def negateIf (negated : Bool) (set : CharSet) : CharSet := if negated then .complement set else set

/-- The sets that have a name within a class. -/
def asciiClass? : String → Option CharSet
  | "alnum" => some (.ranges [('0', '9'), ('A', 'Z'), ('a', 'z')])
  | "alpha" => some (.ranges [('A', 'Z'), ('a', 'z')])
  | "ascii" => some (.range (Char.ofNat 0) (Char.ofNat 127))
  | "blank" => some (.ranges [('\t', '\t'), (' ', ' ')])
  | "cntrl" => some (.ranges [(Char.ofNat 0, Char.ofNat 31), (Char.ofNat 127, Char.ofNat 127)])
  | "digit" => some (.range '0' '9')
  | "graph" => some (.range '!' '~')
  | "lower" => some (.range 'a' 'z')
  | "print" => some (.range ' ' '~')
  | "punct" => some (.ranges [('!', '/'), (':', '@'), ('[', '\x60'), ('\x7b', '~')])
  | "space" => some (.ranges [('\t', '\r'), (' ', ' ')])
  | "upper" => some (.range 'A' 'Z')
  | "word" => some (.ranges [('0', '9'), ('A', 'Z'), ('_', '_'), ('a', 'z')])
  | "xdigit" => some (.ranges [('0', '9'), ('A', 'F'), ('a', 'f')])
  | _ => none

/-- A set by its name, between colons and after the bracket that opens it. -/
def readAsciiClass? : List Char → Option (CharSet × List Char)
  | ':' :: rest =>
      let negated := rest.head? = some '^'
      let named := if negated then rest.drop 1 else rest
      match named.dropWhile (· != ':') with
      | ':' :: ']' :: rest =>
          (asciiClass? (String.ofList (named.takeWhile (· != ':')))).map fun set =>
            (negateIf negated set, rest)
      | _ => none
  | _ => none

mutual

/-- A class after its opening bracket. -/
def readClass? : Nat → List Char → Option (CharSet × List Char)
  | 0, _ => none
  | fuel + 1, input =>
      let negated := input.head? = some '^'
      let input := if negated then input.drop 1 else input
      let hyphens := input.takeWhile (· = '-')
      let afterHyphens := input.dropWhile (· = '-')
      let first : CharSet := if hyphens.isEmpty then .nothing else .one '-'
      -- a bracket directly after the opening one is a character of the class
      let (first, rest) :=
        match afterHyphens with
        | ']' :: rest => if hyphens.isEmpty then (.one ']', rest) else (first, afterHyphens)
        | _ => (first, afterHyphens)
      (readClassItems? fuel id first rest).map fun (set, rest) => (negateIf negated set, rest)

/-- The further items of a class, to its closing bracket. `set` holds the items since the last
operation, and `joined` is what the operations before make of them. -/
def readClassItems? : Nat → (CharSet → CharSet) → CharSet → List Char →
    Option (CharSet × List Char)
  | 0, _, _, _ => none
  | _, _, _, [] => none
  | _, joined, set, ']' :: rest => some (joined set, rest)
  | fuel + 1, joined, set, '&' :: '&' :: rest =>
      readClassItems? fuel (joined set).intersection .nothing rest
  | fuel + 1, joined, set, '-' :: '-' :: rest =>
      readClassItems? fuel (joined set).difference .nothing rest
  | fuel + 1, joined, set, '~' :: '~' :: rest =>
      readClassItems? fuel (joined set).symmetricDifference .nothing rest
  | fuel + 1, joined, set, '[' :: rest => do
      let (inner, rest) ← (readAsciiClass? rest).or (readClass? fuel rest)
      readClassItems? fuel joined (.union set inner) rest
  | fuel + 1, joined, set, input => do
      let (item, rest) ← readRange? input
      readClassItems? fuel joined (.union set item) rest

end

def readCount? (input : List Char) : Option (Nat × List Char) :=
  let (digits, rest) := Numeral.takeDigits (input.dropWhile Text.isBlank)
  if digits.isEmpty then none
  else some (Numeral.valueOf digits, rest.dropWhile Text.isBlank)

/-- The bounds of a counted repetition after its opening brace. -/
def readBounds? (input : List Char) : Option (Nat × Option Nat × List Char) := do
  let (least, rest) ← readCount? input
  match rest with
  | '\x7d' :: rest => pure (least, some least, rest)
  | ',' :: rest =>
      match rest.dropWhile Text.isBlank with
      | '\x7d' :: rest => pure (least, none, rest)
      | rest => do
          let (most, rest) ← readCount? rest
          match rest with
          | '\x7d' :: rest => if least ≤ most then pure (least, some most, rest) else none
          | _ => none
  | _ => none

/-- Whether a repetition is greedy: a question mark after it says that it is not. -/
def takeReluctance : List Char → Bool × List Char
  | '?' :: rest => (false, rest)
  | rest => (true, rest)

/-- An item with the repetition marks after it. -/
def readRepetitions? : Nat → Pattern → List Char → Option (Pattern × List Char)
  | 0, _, _ => none
  | fuel + 1, part, input =>
      let repeatedBy (least : Nat) (most : Option Nat) (rest : List Char) :=
        let (greedy, rest) := takeReluctance rest
        readRepetitions? fuel (.repeated part least most greedy) rest
      match input with
      | '*' :: rest => repeatedBy 0 none rest
      | '+' :: rest => repeatedBy 1 none rest
      | '?' :: rest => repeatedBy 0 (some 1) rest
      | '\x7b' :: rest => do
          let (least, most, rest) ← readBounds? rest
          repeatedBy least most rest
      | rest => some (part, rest)

def isGroupNameChar (c : Char) : Bool := c = '_' || c = '.' || c = '[' || c = ']' || c.isAlphanum

/-- The content of a named group, after the angle bracket. -/
def afterGroupName? (input : List Char) : Option (List Char) :=
  match input.takeWhile isGroupNameChar, input.dropWhile isGroupNameChar with
  | first :: _, '>' :: rest => if first = '_' || first.isAlpha then some rest else none
  | _, _ => none

/-- The content of a group, after the mark that says what kind of group it is. -/
def groupContent? : List Char → Option (List Char)
  | '?' :: ':' :: rest => some rest
  | '?' :: '<' :: rest => afterGroupName? rest
  | '?' :: 'P' :: '<' :: rest => afterGroupName? rest
  | '?' :: _ => none
  | rest => some rest

mutual

/-- Choices, up to a closing parenthesis or the end. -/
def readChoices? : Nat → List Char → Option (Pattern × List Char)
  | 0, _ => none
  | fuel + 1, input => do
      let (left, rest) ← readSequence? fuel input
      match rest with
      | '|' :: rest => do
          let (right, rest) ← readChoices? fuel rest
          pure (.choice left right, rest)
      | rest => pure (left, rest)

/-- Items one after another. -/
def readSequence? : Nat → List Char → Option (Pattern × List Char)
  | 0, _ => none
  | fuel + 1, input =>
      match input with
      | [] => some (.empty, [])
      | '|' :: rest => some (.empty, '|' :: rest)
      | ')' :: rest => some (.empty, ')' :: rest)
      | input => do
          let (item, rest) ← readItem? fuel input
          let (item, rest) ← readRepetitions? (rest.length + 1) item rest
          let (others, rest) ← readSequence? fuel rest
          pure (.sequence item others, rest)

/-- One item without the repetition marks after it. -/
def readItem? : Nat → List Char → Option (Pattern × List Char)
  | 0, _ => none
  | _, [] => none
  | fuel + 1, c :: rest =>
      match c with
      | '(' => do
          let (inner, rest) ← readChoices? fuel (← groupContent? rest)
          match rest with
          | ')' :: rest => pure (inner, rest)
          | _ => none
      | '[' => (readClass? (rest.length + 1) rest).map fun (set, rest) => (.member set, rest)
      | '\\' =>
          (readEscape? rest).map fun (value, rest) =>
            match value with
            | .set s => (.member s, rest)
            | .anchor p => (p, rest)
      | '.' => some (.member (.complement (.one '\n')), rest)
      | '^' => some (.textStart, rest)
      | '$' => some (.textEnd, rest)
      | '*' => none
      | '+' => none
      | '?' => none
      | '\x7b' => none
      | c => some (.member (.one c), rest)

end

def read? (source : String) : Option Pattern :=
  let chars := source.toList
  match readChoices? (3 * chars.length + 3) chars with
  | some (pattern, []) => some pattern
  | _ => none

end FormCompiler.Pattern
