import FormCompiler.Pattern.Reader

/-!
# Languages of patterns

Masks and expected errors are written in a language of patterns. What uses them needs to know only
which texts are patterns, whether one occurs in a text, and what a text becomes when all its matches
are replaced, so the language is a parameter.

The plain language is that of `Pattern.read?`. It has no flags such as `(?i)`, no classes by Unicode
property such as `\pL`, no edges of one side such as `\<`, and no bound on the size of a pattern: a
text with one of the first three is no pattern of the language.
-/

namespace FormCompiler

/-- What a pattern does with texts. -/
structure Matcher where
  occursIn : (text : String) → Bool
  replaceAll : (replacement text : String) → String

def Pattern.matcher (pattern : Pattern) : Matcher := ⟨pattern.occursIn, pattern.replaceAll⟩

/-- A language of patterns. A text may be no pattern at all. -/
structure PatternLanguage where
  matcher? : (source : String) → Option Matcher

def PatternLanguage.plain : PatternLanguage where
  matcher? source := (Pattern.read? source).map Pattern.matcher

end FormCompiler
