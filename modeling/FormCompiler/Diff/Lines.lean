/-!
# Lines of a text

A line ends after a line feed, a carriage return, or both in this order, and keeps its end. What
follows the last line end is a line too, unless it is empty. The lines of a text make up the text.
-/

namespace FormCompiler.Diff

/-- The lines of a text; `line` holds the characters of the current line, the last one first. -/
def linesFrom (line : List Char) : List Char → List (List Char)
  | [] => if line.isEmpty then [] else [line.reverse]
  | '\r' :: '\n' :: rest => (line.reverse ++ ['\r', '\n']) :: linesFrom [] rest
  | c :: rest =>
      if c = '\n' || c = '\r' then (line.reverse ++ [c]) :: linesFrom [] rest
      else linesFrom (c :: line) rest

def lines (text : String) : List String := (linesFrom [] text.toList).map String.ofList

def endsLine (text : String) : Bool :=
  match text.toList.getLast? with
  | some c => c = '\n' || c = '\r'
  | none => false

/-- A line as it is printed: with a line feed when it does not end itself. -/
def printed (line : String) : String := if endsLine line then line else line ++ "\n"

end FormCompiler.Diff
