import FormCompiler.Json.Value
import FormCompiler.Binary64.Shortest
import FormCompiler.Text.Search

/-!
# Writing JSON

Two layouts of a value: on one line, and with each item and member on a line of its own, two
spaces deeper than its container. Texts escape quotes, backslashes and control characters only.
-/

namespace FormCompiler

/-- Numbers with an exponent from -5 to 15 are written positionally, and a whole one ends in
`.0`. -/
def NumeralStyle.json : NumeralStyle :=
  ⟨fun exponent => -5 ≤ exponent && exponent ≤ 15, true, false⟩

namespace Json

def escapedChar (c : Char) : List Char :=
  if c = '"' then ['\\', '"']
  else if c = '\\' then ['\\', '\\']
  else if c = '\n' then ['\\', 'n']
  else if c = '\r' then ['\\', 'r']
  else if c = '\t' then ['\\', 't']
  else if c = Char.ofNat 8 then ['\\', 'b']
  else if c = Char.ofNat 12 then ['\\', 'f']
  else if c.toNat < 32 then ['\\', 'u'] ++ Text.paddedHex 4 c.toNat
  else [c]

def quoted (text : String) : String :=
  "\"" ++ String.ofList (text.toList.flatMap escapedChar) ++ "\""

def numberText : JsonNumber → String
  | .whole n => Text.signedDecimal n
  | .real x => String.ofList (x.finiteText NumeralStyle.json)

mutual

/-- The value on one line. -/
def compact : Json → String
  | .null => "null"
  | .boolean value => if value then "true" else "false"
  | .number value => numberText value
  | .text value => quoted value
  | .array items => "[" ++ ",".intercalate (compactItems items) ++ "]"
  | .object members => "\x7b" ++ ",".intercalate (compactMembers members) ++ "\x7d"

def compactItems : List Json → List String
  | [] => []
  | item :: rest => compact item :: compactItems rest

def compactMembers : List (String × Json) → List String
  | [] => []
  | (name, value) :: rest => (quoted name ++ ":" ++ compact value) :: compactMembers rest

end

/-- Line break and indentation of a depth. -/
def newLine (depth : Nat) : String := "\n" ++ String.ofList (List.replicate (2 * depth) ' ')

mutual

/-- The value over several lines, inside a container of the given depth. -/
def prettyAt (depth : Nat) : Json → String
  | .null => "null"
  | .boolean value => if value then "true" else "false"
  | .number value => numberText value
  | .text value => quoted value
  | .array [] => "[]"
  | .array (item :: rest) =>
      "[" ++ ",".intercalate (prettyItems (depth + 1) (item :: rest)) ++ newLine depth ++ "]"
  | .object [] => "\x7b\x7d"
  | .object (member :: rest) =>
      "\x7b" ++ ",".intercalate (prettyMembers (depth + 1) (member :: rest)) ++ newLine depth ++
        "\x7d"

def prettyItems (depth : Nat) : List Json → List String
  | [] => []
  | item :: rest => (newLine depth ++ prettyAt depth item) :: prettyItems depth rest

def prettyMembers (depth : Nat) : List (String × Json) → List String
  | [] => []
  | (name, value) :: rest =>
      (newLine depth ++ quoted name ++ ": " ++ prettyAt depth value) :: prettyMembers depth rest

end

def pretty (value : Json) : String := prettyAt 0 value

end Json

end FormCompiler
