import FormCompiler.Text.Search

/-!
# Balanced delimiters

Parentheses, brackets and braces must nest outside of quoted literals. In a literal a backslash
hides the character after it, and only a literal between backticks may span several lines. The
walk below passes over the text once with the open delimiters on a stack; an imbalance names the
line and the column of the character that shows it.
-/

namespace FormCompiler.Source

/-- A place in a text: lines count from one, and columns count the characters of the line. -/
structure Position where
  line : Nat
  column : Nat
  deriving DecidableEq

namespace Position

def start : Position := ⟨1, 0⟩

/-- After one more character. -/
def after (c : Char) (place : Position) : Position :=
  if c = '\n' then ⟨place.line + 1, 0⟩ else { place with column := place.column + 1 }

def display (place : Position) : String :=
  "line " ++ Text.decimal place.line ++ ", column " ++ Text.decimal place.column

end Position

/-- Why the delimiters of a text are not balanced. -/
inductive Imbalance where
  /-- A closing delimiter where none is open. -/
  | unexpectedCloser (found : Char) (place : Position)
  /-- A closing delimiter of another kind than the innermost open one. -/
  | mismatched (expected found : Char) (place : Position)
  /-- A delimiter that is still open at the end. -/
  | unclosed (opener : Char) (place : Position)
  /-- A literal that does not end. -/
  | unterminated (place : Position)
  deriving DecidableEq

namespace Imbalance

def kindName : Imbalance → String
  | unexpectedCloser _ _ => "UnexpectedCloser"
  | mismatched _ _ _ => "Mismatched"
  | unclosed _ _ => "Unclosed"
  | unterminated _ => "UnterminatedString"

def shownMark (c : Char) : String := "'" ++ String.singleton c ++ "'"

def message : Imbalance → String
  | unexpectedCloser found place => "Unexpected " ++ shownMark found ++ " at " ++ place.display
  | mismatched expected found place =>
      "Expected " ++ shownMark expected ++ " but found " ++ shownMark found ++ " at " ++
        place.display
  | unclosed opener place => "Unclosed " ++ shownMark opener ++ " opened at " ++ place.display
  | unterminated place => "Unterminated string literal starting at " ++ place.display

end Imbalance

def closerOf? : Char → Option Char
  | '(' => some ')'
  | '[' => some ']'
  | '\x7b' => some '\x7d'
  | _ => none

def isCloser (c : Char) : Bool := c = ')' || c = ']' || c = '\x7d'

def isQuote (c : Char) : Bool := c = '"' || c = '\'' || c = '\x60'

/-- An open delimiter: the character, the one that closes it, and its place. -/
structure Opener where
  mark : Char
  closer : Char
  place : Position
  deriving DecidableEq

/-- Where the walk stands: between literals, in one, or after a backslash in one. -/
inductive WalkMode where
  | code
  | literal (quote : Char) (start : Position)
  | escaped (quote : Char) (start : Position)
  deriving DecidableEq

namespace Balance

/-- The imbalance at the end of a text. -/
def atEnd : WalkMode → List Opener → Option Imbalance
  | .literal _ start, _ => some (.unterminated start)
  | .escaped _ start, _ => some (.unterminated start)
  | .code, [] => none
  | .code, opener :: _ => some (.unclosed opener.mark opener.place)

/-- The first imbalance of the text from a place on; `stack` holds the open delimiters, the
innermost one first. -/
def walk (place : Position) (mode : WalkMode) (stack : List Opener) :
    List Char → Option Imbalance
  | [] => atEnd mode stack
  | c :: rest =>
      let next := place.after c
      match mode with
      | .escaped quote start => walk next (.literal quote start) stack rest
      | .literal quote start =>
          if c = '\\' then walk next (.escaped quote start) stack rest
          else if c = quote then walk next .code stack rest
          else if c = '\n' && quote ≠ '\x60' then some (.unterminated start)
          else walk next mode stack rest
      | .code =>
          if isQuote c then walk next (.literal c next) stack rest
          else
            match closerOf? c with
            | some closer => walk next .code (⟨c, closer, next⟩ :: stack) rest
            | none =>
                if isCloser c then
                  match stack with
                  | [] => some (.unexpectedCloser c next)
                  | opener :: outer =>
                      if opener.closer = c then walk next .code outer rest
                      else some (.mismatched opener.closer c next)
                else walk next .code stack rest

end Balance

/-- The first imbalance of a text, if its delimiters are not balanced. -/
def imbalance? (source : String) : Option Imbalance := Balance.walk .start .code [] source.toList

end FormCompiler.Source
