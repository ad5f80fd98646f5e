/-!
# Styles of a terminal

A styled text stands between the code of its style and the code that ends all styles. Where the
text itself ends all styles, its own style begins again.
-/

namespace FormCompiler.Terminal

/-- How a text is shown. -/
inductive Style where
  | bold
  | red
  | green
  | yellow
  | boldRed
  | boldGreen
  deriving DecidableEq

/-- The escape that begins every code. -/
def escape : List Char := [Char.ofNat 27, '[']

def reset : List Char := escape ++ ['0', 'm']

def Style.code (style : Style) : List Char :=
  escape ++
    match style with
    | .bold => ['1', 'm']
    | .red => ['3', '1', 'm']
    | .green => ['3', '2', 'm']
    | .yellow => ['3', '3', 'm']
    | .boldRed => ['1', ';', '3', '1', 'm']
    | .boldGreen => ['1', ';', '3', '2', 'm']

/-- A text where the code of a style follows every code that ends all styles; `before` holds the
characters passed so far, the last one first. -/
def resume (code before : List Char) : List Char → List Char
  | [] => []
  | c :: rest =>
      let passed := c :: before
      if reset.reverse.isPrefixOf passed then c :: (code ++ resume code passed rest)
      else c :: resume code passed rest

/-- A text in a style; without colours it is the text itself. -/
def paint (colored : Bool) (style : Style) (text : String) : String :=
  if colored then
    String.ofList (style.code ++ resume style.code [] text.toList ++ reset)
  else text

end FormCompiler.Terminal
