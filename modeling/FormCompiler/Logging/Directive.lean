import FormCompiler.Pattern.Language
import FormCompiler.Text.Alphanumeric
import FormCompiler.Values.Coercion

/-!
# Log directives

A log level is a list of directives. A directive is a level, a target, or a target with a span in
brackets, a span with fields in braces, and a level after an equals sign. The check below walks a
directive once and says whether it is well formed.
-/

namespace FormCompiler.Logging

/-- Whether a text names a level: a word in any case or a digit up to five. -/
def isLevel (text : List Char) : Bool :=
  let digits := if text.head? = some '+' then text.drop 1 else text
  text.isEmpty || (!digits.isEmpty && digits.all Char.isDigit && Numeral.valueOf digits ≤ 5) ||
    ["trace", "debug", "info", "warn", "error", "off"].contains
      (String.ofList (text.map Char.toLower))

/-- Whether a text is a number after a plus sign, which is no pattern. -/
def isPlusNumber : List Char → Bool
  | '+' :: rest =>
      (Numeral.read? rest).isSome ||
        ["inf", "infinity", "nan"].contains (String.ofList (rest.map Char.toLower))
  | _ => false

/-- Whether a field is well formed: a name, and after an equals sign a value to compare with. -/
def isField (field : List Char) : Bool :=
  !field.isEmpty &&
    match Text.pieces '=' field with
    | _ :: value :: _ =>
        isPlusNumber value || (PatternLanguage.plain.matcher? (String.ofList value)).isSome
    | _ => true

/-- Where the walk over a directive stands. -/
inductive Place where
  | start
  | target
  | span
  | field (read : List Char)
  | afterFields
  | afterSpan
  | level (read : List Char)

/-- Whether a character can begin a target or a level. -/
def beginsTarget (c : Char) : Bool := c = '-' || c = ':' || c = '_' || Text.isAlphanumeric c

/-- One step of the walk; no place means that the directive is not well formed. -/
def step (place : Place) (c : Char) : Option Place :=
  match place with
  | .start => if c = '[' then some .span else if beginsTarget c then some .target else none
  | .target => if c = '=' then some (.level []) else if c = '[' then some .span else some .target
  | .span =>
      if c = ']' then some .afterSpan else if c = '\x7b' then some (.field []) else some .span
  | .field read =>
      if c = '\x7d' then if isField read then some .afterFields else none
      else some (.field (read ++ [c]))
  | .afterFields => if c = ']' then some .afterSpan else none
  | .afterSpan => if c = '=' then some (.level []) else none
  | .level read => some (.level (read ++ [c]))

/-- Whether a directive may end at a place. A directive with a level has no blanks around it. -/
def mayEnd (spaced : Bool) : Place → Bool
  | .target => true
  | .afterSpan => true
  | .level read => !spaced && isLevel read
  | .start => false
  | .span => false
  | .field _ => false
  | .afterFields => false

def isDirective (directive : List Char) : Bool :=
  let trimmed := Text.trim directive
  match trimmed.foldlM step .start with
  | some place => mayEnd (trimmed ≠ directive) place
  | none => false

/-- Whether a text is a list of directives with commas between them. Empty ones do not count. -/
def isDirectiveList (text : String) : Bool :=
  ((Text.pieces ',' text.toList).filter fun directive => !directive.isEmpty).all isDirective

end FormCompiler.Logging
