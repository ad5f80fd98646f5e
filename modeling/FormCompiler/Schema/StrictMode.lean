import FormCompiler.Text.Search

/-!
# Strict and lenient reading

Strict reading refuses what lenient reading tolerates with a diagnostic.
-/

namespace FormCompiler

/-- How tolerable problems of records are treated. -/
inductive StrictMode where
  | strict
  | warn
  deriving DecidableEq

namespace StrictMode

def name : StrictMode → String
  | strict => "Strict"
  | warn => "Warn"

def table : List (String × StrictMode) := [("Strict", strict), ("Warn", warn)]

/-- The mode that a setting names; ASCII capitals and small letters are alike. A name that is none
is given back in small letters. -/
def parse (setting : String) : Except String StrictMode :=
  let lowered := Text.asciiLower setting
  if lowered = "strict" then .ok strict
  else if lowered = "warn" then .ok warn
  else .error lowered

end StrictMode

end FormCompiler
