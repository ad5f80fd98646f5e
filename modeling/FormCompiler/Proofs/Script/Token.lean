import FormCompiler.Proofs.Script.Units
import FormCompiler.Proofs.Source.Written
import FormCompiler.Values.Coercion

/-!
# Tokens of a script

The tokens of an expression, each as long as it can be: names, quoted texts with their escapes,
numerals and marks.  What a quoted text means is the list of its code units.  The principal result
is that a literal of generated source is read as the units of the text it was written from.
-/

namespace FormCompiler.Script

open Source

inductive Operator where
  | or
  | and
  | coalesce
  | equal
  | notEqual
  | greater
  | less
  deriving DecidableEq

inductive Token where
  | name (name : String)
  | text (units : List Nat)
  | numeral (digits : List Char)
  | operator (op : Operator)
  | minus
  | point
  | openRound
  | closeRound
  | openSquare
  | closeSquare
  deriving DecidableEq

/-! ## Quoted texts -/

/-- Where a reader of a quoted text stands: between characters, behind a backslash, or in a code
with some digits left. -/
inductive TextMode where
  | plain
  | escaped
  | coded (left value : Nat)

/-- The units that a character behind a backslash stands for. Digits, line ends and the escape with
two digits are not read. -/
def escapedUnits? (c : Char) : Option (List Nat) :=
  if c = 'n' then some [10]
  else if c = 'r' then some [13]
  else if c = 't' then some [9]
  else if c = 'b' then some [8]
  else if c = 'f' then some [12]
  else if c = 'v' then some [11]
  else if c.isDigit || c = 'x' || c = '\n' || c = '\r' || c.toNat = 0x2028 || c.toNat = 0x2029 then
    none
  else some (units c)

def prepend (first : List Nat) (found : Option (List Nat × List Char)) :
    Option (List Nat × List Char) :=
  found.map fun (others, rest) => (first ++ others, rest)

/-- The units up to the closing quote, and what follows it. -/
def readText? (quote : Char) : TextMode → List Char → Option (List Nat × List Char)
  | _, [] => none
  | .plain, c :: rest =>
      if c = quote then some ([], rest)
      else if c = '\\' then readText? quote .escaped rest
      else if c = '\n' || c = '\r' then none
      else prepend (units c) (readText? quote .plain rest)
  | .escaped, c :: rest =>
      if c = 'u' then readText? quote (.coded 3 0) rest
      else
        match escapedUnits? c with
        | some first => prepend first (readText? quote .plain rest)
        | none => none
  | .coded left value, c :: rest =>
      match Coercion.digit? 16 c with
      | none => none
      | some digit =>
          match left with
          | 0 => prepend [value * 16 + digit] (readText? quote .plain rest)
          | left + 1 => readText? quote (.coded left (value * 16 + digit)) rest

theorem digit?_digitChar : ∀ d < 16, Coercion.digit? 16 (Nat.digitChar d) = some d := by
  decide

/-- Four digits are read as the code that they write. -/
theorem readText?_fourDigits {n : Nat} (h : n < 65536) (quote : Char) (rest : List Char) :
    readText? quote (.coded 3 0) (fourDigits n ++ rest) =
      prepend [n] (readText? quote .plain rest) := by
  have hvalue :
      (((0 * 16 + n / 4096) * 16 + n / 256 % 16) * 16 + n / 16 % 16) * 16 + n % 16 = n := by
    omega
  simp only [fourDigits, List.cons_append, List.nil_append, readText?,
    digit?_digitChar _ (show n / 4096 < 16 by omega),
    digit?_digitChar _ (show n / 256 % 16 < 16 by omega),
    digit?_digitChar _ (show n / 16 % 16 < 16 by omega),
    digit?_digitChar _ (show n % 16 < 16 by omega), hvalue]

theorem escapedUnits?_of_mem_marks {c mark : Char} (h : (c, mark) ∈ marks) :
    mark ≠ 'u' ∧ escapedUnits? mark = some (units c) := by
  simp only [marks, List.mem_cons, Prod.mk.injEq, List.not_mem_nil, or_false] at h
  rcases h with ⟨rfl, rfl⟩ | ⟨rfl, rfl⟩ | ⟨rfl, rfl⟩ | ⟨rfl, rfl⟩ | ⟨rfl, rfl⟩ | ⟨rfl, rfl⟩ <;>
    exact ⟨by decide, by decide⟩

theorem units_of_lt {c : Char} (h : c.toNat < 65536) : units c = [c.toNat] := if_pos h

/-- A written character is read as its units. -/
theorem readText?_literalChar (c : Char) (rest : List Char) :
    readText? '"' .plain (literalChar c ++ rest) =
      prepend (units c) (readText? '"' .plain rest) := by
  have hwritten := writtenAs_literalChar c
  generalize literalChar c = written at hwritten ⊢
  cases hwritten with
  | bare h =>
      have hback := ne_of_holds h (show standsBare '\\' = false from rfl)
      have hquote := ne_of_holds h (show standsBare '"' = false from rfl)
      have hfeed := ne_of_holds h (show standsBare '\n' = false from rfl)
      have hreturn := ne_of_holds h (show standsBare '\r' = false from rfl)
      simp [readText?, hback, hquote, hfeed, hreturn]
  | marked h =>
      obtain ⟨hcode, hunits⟩ := escapedUnits?_of_mem_marks h
      simp [readText?, hcode, hunits]
  | coded h =>
      rw [units_of_lt h, ← readText?_fourDigits h]
      simp [readText?]

/-- The body of a literal is read up to its closing quote. -/
theorem readText?_literalBody (text : String) (rest : List Char) :
    readText? '"' .plain (literalBody text ++ '"' :: rest) = some (unitsOf text, rest) := by
  unfold literalBody unitsOf
  induction text.toList with
  | nil => simp [readText?]
  | cons c others ih =>
      rw [List.flatMap_cons, List.append_assoc, readText?_literalChar, ih, List.flatMap_cons]
      rfl

/-! ## Tokens -/

def scriptMarks : List (List Char × Token) :=
  [(['=', '=', '='], .operator .equal), (['!', '=', '='], .operator .notEqual),
    (['&', '&'], .operator .and), (['|', '|'], .operator .or), (['?', '?'], .operator .coalesce),
    (['>'], .operator .greater), (['<'], .operator .less), (['-'], .minus), (['.'], .point),
    (['('], .openRound), ([')'], .closeRound), (['['], .openSquare), ([']'], .closeSquare)]

def mark? (text : List Char) : Option (Token × List Char) :=
  scriptMarks.findSome? fun (lead, token) => (Text.after? lead text).map fun rest => (token, rest)

def isNumeralChar (c : Char) : Bool := isIdentifierChar c || c = '.'

def isSpace (c : Char) : Bool := c = ' ' || c = '\t' || c = '\n' || c = '\r'

/-- The token at the beginning of a text, and what follows it. -/
def token? : List Char → Option (Token × List Char)
  | [] => none
  | c :: rest =>
      if beginsIdentifier c then
        some (.name (String.ofList ((c :: rest).takeWhile isIdentifierChar)),
          (c :: rest).dropWhile isIdentifierChar)
      else if c.isDigit then
        some (.numeral ((c :: rest).takeWhile isNumeralChar), (c :: rest).dropWhile isNumeralChar)
      else if c = '"' || c = '\'' then
        (readText? c .plain rest).map fun (units, rest) => (.text units, rest)
      else mark? (c :: rest)

/-- The tokens of a text. The first `skip` characters belong to a token that was read before. -/
def tokensFrom : (skip : Nat) → List Char → Option (List Token)
  | _, [] => some []
  | skip + 1, _ :: rest => tokensFrom skip rest
  | 0, c :: rest =>
      if isSpace c then tokensFrom 0 rest
      else
        match token? (c :: rest) with
        | some (token, tail) => (tokensFrom (rest.length - tail.length) rest).map (token :: ·)
        | none => none

def tokens? (text : List Char) : Option (List Token) := tokensFrom 0 text

theorem tokensFrom_append (passed rest : List Char) :
    tokensFrom passed.length (passed ++ rest) = tokens? rest := by
  induction passed with
  | nil => rfl
  | cons c passed ih => exact ih

theorem tokens?_space {c : Char} (h : isSpace c = true) (rest : List Char) :
    tokens? (c :: rest) = tokens? rest := by
  unfold tokens?
  rw [tokensFrom, if_pos h]

/-- A token and the tokens behind it. -/
theorem tokens?_cons {c : Char} {passed rest : List Char} {token : Token}
    (hspace : isSpace c = false) (h : token? (c :: (passed ++ rest)) = some (token, rest)) :
    tokens? (c :: (passed ++ rest)) = (tokens? rest).map (token :: ·) := by
  have hlength : (passed ++ rest).length - rest.length = passed.length := by simp
  unfold tokens?
  rw [tokensFrom, hspace, h]
  change (tokensFrom ((passed ++ rest).length - rest.length) (passed ++ rest)).map (token :: ·) = _
  rw [hlength, tokensFrom_append]
  rfl

end FormCompiler.Script
