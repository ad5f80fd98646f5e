import FormCompiler.Text.Blank
import FormCompiler.Text.Search

/-!
# Writing TOML documents

A document of sections with scalar entries. A text is written in the first form that takes it: with
escapes but needing none, without escapes, the same two over several lines, and with the escapes
that it needs.
-/

namespace FormCompiler.Toml

/-- What decides in which form a text is written. -/
structure Traits where
  singleQuotes : Nat
  doubleQuotes : Nat
  hasBackslash : Bool
  hasLineFeed : Bool
  /-- Whether there is a control character other than a tab and a line feed. -/
  hasControl : Bool

/-- The length of the longest run of a character; `run` is the length of the run before. -/
def longestRun (mark : Char) (run : Nat) : List Char → Nat
  | [] => run
  | c :: rest =>
      if c = mark then longestRun mark (run + 1) rest else max run (longestRun mark 0 rest)

def Traits.of (text : List Char) : Traits :=
  { singleQuotes := longestRun '\'' 0 text
    doubleQuotes := longestRun '"' 0 text
    hasBackslash := text.contains '\\'
    hasLineFeed := text.contains '\n'
    hasControl := text.any fun c => (c.toNat < 32 && c ≠ '\t' && c ≠ '\n') || c.toNat = 127 }

/-- Upper-case hexadecimal digits after a mark. -/
def codeEscape (c : Char) : List Char := '\\' :: 'u' :: (Text.paddedHex 4 c.toNat).map Char.toUpper

/-- The content of a text with escapes. Over several lines only every third quote of a run is
escaped; `run` counts the quotes before that are not. -/
def escapeFrom (long : Bool) (run : Nat) : List Char → List Char
  | [] => []
  | c :: rest =>
      if c = '"' then
        if long && run < 2 then '"' :: escapeFrom long (run + 1) rest
        else '\\' :: '"' :: escapeFrom long 0 rest
      else
        let shown : List Char :=
          if c = Char.ofNat 8 then ['\\', 'b']
          else if c = '\t' then ['\\', 't']
          else if c = '\n' then if long then ['\n'] else ['\\', 'n']
          else if c = Char.ofNat 12 then ['\\', 'f']
          else if c = '\r' then ['\\', 'r']
          else if c = '\\' then ['\\', '\\']
          else if c.toNat < 32 || c.toNat = 127 then codeEscape c
          else [c]
        shown ++ escapeFrom long 0 rest

/-- A text between quotes. A text with line feeds begins on a line of its own. -/
def enclose (quotes : String) (long hasLineFeed : Bool) (content : List Char) : String :=
  quotes ++ (if long && hasLineFeed then "\n" else "") ++ String.ofList content ++ quotes

def textValue (text : String) : String :=
  let chars := text.toList
  let traits := Traits.of chars
  let escaped (long : Bool) := escapeFrom long 0 chars
  if !traits.hasControl && !traits.hasBackslash && traits.doubleQuotes = 0 &&
      !traits.hasLineFeed then
    enclose "\"" false false (escaped false)
  else if !traits.hasControl && traits.singleQuotes = 0 && !traits.hasLineFeed then
    enclose "'" false false chars
  else if !traits.hasControl && !traits.hasBackslash && traits.doubleQuotes ≤ 2 then
    enclose "\"\"\"" true traits.hasLineFeed (escaped true)
  else if !traits.hasControl && traits.singleQuotes ≤ 2 then
    enclose "'''" true traits.hasLineFeed chars
  else if traits.hasLineFeed then enclose "\"\"\"" true true (escaped true)
  else enclose "\"" false false (escaped false)

def booleanValue (value : Bool) : String := if value then "true" else "false"

def entryLines : List (String × String) → String
  | [] => ""
  | (key, value) :: rest => key ++ " = " ++ value ++ "\n" ++ entryLines rest

def sectionText (name : String) (entries : List (String × String)) : String :=
  "[" ++ name ++ "]\n" ++ entryLines entries

/-- Sections with an empty line between neighbours. -/
def documentText (sections : List (String × List (String × String))) : String :=
  "\n".intercalate (sections.map fun (name, entries) => sectionText name entries)

end FormCompiler.Toml
