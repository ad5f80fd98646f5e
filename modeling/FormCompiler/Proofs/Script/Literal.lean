import FormCompiler.Proofs.Script.Token
import Mathlib.Algebra.Group.Nat.Even
import Mathlib.Data.List.DropRight

/-!
# Literals are read back

A reader of literals that knows few escapes: those of the backslash, of both quotes and of three
control characters, and the code of four hexadecimal digits.  The principal result is that it undoes
the writing of a text, whatever follows the literal, and that nothing between the quotes could end
the literal or the line before its time.
-/

namespace FormCompiler.Script

open Source

/-! ## The reader -/

/-- The character that a mark behind a backslash stands for. -/
def markedChar? : Char → Option Char
  | '\\' => some '\\'
  | '"' => some '"'
  | '\'' => some '\''
  | 'n' => some '\n'
  | 'r' => some '\r'
  | 't' => some '\t'
  | _ => none

/-- The character whose code four hexadecimal digits write, unless it is one half of a pair. -/
def codedChar? (a b c d : Char) : Option Char := do
  let a ← Coercion.digit? 16 a
  let b ← Coercion.digit? 16 b
  let c ← Coercion.digit? 16 c
  let d ← Coercion.digit? 16 d
  let code := ((a * 16 + b) * 16 + c) * 16 + d
  if code.isValidChar then some (Char.ofNat code) else none

def endsLine (c : Char) : Bool := c = '\n' || c = '\r' || c.toNat = 0x2028 || c.toNat = 0x2029

/-- A character, if there is one, before the text that was read and what follows that. -/
def prependChar (c? : Option Char) (found? : Option (List Char × List Char)) :
    Option (List Char × List Char) := do
  let c ← c?
  let (text, rest) ← found?
  some (c :: text, rest)

/-- The text up to the closing quote, and what follows the quote. -/
def readBody? : List Char → Option (List Char × List Char)
  | [] => none
  | c :: rest =>
      if c = '"' then some ([], rest)
      else if c = '\\' then
        match rest with
        | 'u' :: a :: b :: c :: d :: rest => prependChar (codedChar? a b c d) (readBody? rest)
        | mark :: rest => prependChar (markedChar? mark) (readBody? rest)
        | [] => none
      else if endsLine c then none
      else prependChar (some c) (readBody? rest)

def readLiteral? (text : List Char) : Option (String × List Char) := do
  let body ← Text.after? ['"'] text
  let (chars, rest) ← readBody? body
  some (String.ofList chars, rest)

/-! ## Written characters are read back -/

theorem readBody?_quote (rest : List Char) : readBody? ('"' :: rest) = some ([], rest) := by
  simp [readBody?.eq_def]

theorem readBody?_of_mem_marks {c mark : Char} (h : (c, mark) ∈ marks) (rest : List Char) :
    readBody? ('\\' :: mark :: rest) = prependChar (some c) (readBody? rest) := by
  simp only [marks, List.mem_cons, Prod.mk.injEq, List.not_mem_nil, or_false] at h
  rcases h with ⟨rfl, rfl⟩ | ⟨rfl, rfl⟩ | ⟨rfl, rfl⟩ | ⟨rfl, rfl⟩ | ⟨rfl, rfl⟩ | ⟨rfl, rfl⟩ <;>
    rfl

/-- Four digits are read as the character whose code they write. -/
theorem readBody?_fourDigits {c : Char} (h : c.toNat < 65536) (rest : List Char) :
    readBody? ('\\' :: 'u' :: (fourDigits c.toNat ++ rest)) =
      prependChar (some c) (readBody? rest) := by
  have hcode : (((c.toNat / 4096) * 16 + c.toNat / 256 % 16) * 16 + c.toNat / 16 % 16) * 16 +
      c.toNat % 16 = c.toNat := by
    omega
  have hchar : codedChar? (Nat.digitChar (c.toNat / 4096)) (Nat.digitChar (c.toNat / 256 % 16))
      (Nat.digitChar (c.toNat / 16 % 16)) (Nat.digitChar (c.toNat % 16)) = some c := by
    have hvalid : c.toNat.isValidChar := c.valid
    simp only [codedChar?, digit?_digitChar _ (show c.toNat / 4096 < 16 by omega),
      digit?_digitChar _ (show c.toNat / 256 % 16 < 16 by omega),
      digit?_digitChar _ (show c.toNat / 16 % 16 < 16 by omega),
      digit?_digitChar _ (show c.toNat % 16 < 16 by omega), Option.bind_eq_bind,
      Option.bind_some, hcode, if_pos hvalid, Char.ofNat_toNat]
  rw [← hchar]
  rfl

/-- A written character is read as what it was written from. -/
theorem readBody?_literalChar (c : Char) (rest : List Char) :
    readBody? (literalChar c ++ rest) = prependChar (some c) (readBody? rest) := by
  have hwritten := writtenAs_literalChar c
  generalize literalChar c = written at hwritten ⊢
  cases hwritten with
  | bare h =>
      have hquote := ne_of_holds h (show standsBare '"' = false from rfl)
      have hback := ne_of_holds h (show standsBare '\\' = false from rfl)
      have hfeed := ne_of_holds h (show standsBare '\n' = false from rfl)
      have hreturn := ne_of_holds h (show standsBare '\r' = false from rfl)
      have hline : endsLine c = false := by
        simp only [standsBare, Bool.not_eq_true', Bool.or_eq_false_iff] at h
        simp [endsLine, hfeed, hreturn, h.1.1.2, h.1.2]
      rw [List.singleton_append, readBody?.eq_def]
      simp only [if_neg hquote, if_neg hback, hline, Bool.false_eq_true, if_false]
  | marked h => exact readBody?_of_mem_marks h rest
  | coded h => exact readBody?_fourDigits h rest

/-- The body of a literal is read up to its closing quote. -/
theorem readBody?_literalBody (text : String) (rest : List Char) :
    readBody? (literalBody text ++ '"' :: rest) = some (text.toList, rest) := by
  unfold literalBody
  induction text.toList with
  | nil => exact readBody?_quote rest
  | cons c others ih =>
      rw [List.flatMap_cons, List.append_assoc, readBody?_literalChar, ih]
      rfl

/-! ## What stands between the quotes -/

/-- What follows the text is escaped: an odd number of backslashes ends it. -/
def Escapes (before : List Char) : Prop := Odd (before.rtakeWhile (· = '\\')).length

theorem not_escapes_concat {c : Char} (hc : c ≠ '\\') (before : List Char) :
    ¬Escapes (before ++ [c]) := by
  rw [Escapes, List.rtakeWhile_concat_neg _ _ _ (by simpa using hc)]
  decide

/-- One more backslash turns the number of backslashes from even to odd, and back. -/
theorem escapes_concat_iff (before : List Char) :
    Escapes (before ++ ['\\']) ↔ ¬Escapes before := by
  unfold Escapes
  rw [List.rtakeWhile_concat_pos _ _ _ (by decide), List.length_append, List.length_singleton,
    Nat.odd_add_one]

def isQuote (c : Char) : Bool := c = '"' || c = '\''

/-- Behind the text before it a piece of a literal has all its quotes escaped, and leaves what
follows it as it is. -/
structure Guards (before piece : List Char) : Prop where
  quotes : ∀ first quote rest, piece = first ++ quote :: rest → isQuote quote = true →
    Escapes (before ++ first)
  settled : ¬Escapes (before ++ piece)

theorem Guards.append {before first second : List Char} (hfirst : Guards before first)
    (hsecond : Guards (before ++ first) second) : Guards before (first ++ second) := by
  constructor
  · intro part quote rest hpart hquote
    rcases List.append_eq_append_iff.mp hpart with ⟨more, rfl, hmore⟩ | ⟨more, hmore, hrest⟩
    · rw [← List.append_assoc]
      exact hsecond.quotes more quote rest hmore hquote
    · cases more with
      | nil =>
          rw [List.append_nil] at hmore
          have hhere := hsecond.quotes [] quote rest hrest.symm hquote
          rwa [hmore, List.append_nil] at hhere
      | cons c more =>
          obtain ⟨rfl, -⟩ := List.cons.inj hrest
          exact hfirst.quotes part quote more hmore hquote
  · rw [← List.append_assoc]
    exact hsecond.settled

/-- A piece without quotes that ends in no backslash. -/
theorem guards_of_forall (before piece : List Char) {last : Char}
    (hpiece : ∀ c ∈ piece ++ [last], isQuote c = false) (hlast : last ≠ '\\') :
    Guards before (piece ++ [last]) := by
  constructor
  · intro first quote rest heq hquote
    rw [hpiece quote (by simp [heq])] at hquote
    cases hquote
  · rw [← List.append_assoc]
    exact not_escapes_concat hlast _

/-- A literal guards every character. -/
theorem guards_literalChar {before : List Char} (hbefore : ¬Escapes before) (c : Char) :
    Guards before (literalChar c) := by
  have hwritten := writtenAs_literalChar c
  generalize literalChar c = written at hwritten ⊢
  cases hwritten with
  | bare h =>
      refine guards_of_forall before [] (List.forall_mem_singleton.mpr ?_)
        (ne_of_holds h (show standsBare '\\' = false from rfl))
      simp [isQuote, ne_of_holds h (show standsBare '"' = false from rfl),
        ne_of_holds h (show standsBare '\'' = false from rfl)]
  | @marked mark h =>
      have hback := (escapes_concat_iff before).mpr hbefore
      constructor
      · intro first quote rest heq hquote
        rcases first with _ | ⟨d, first⟩
        · cases heq
          cases hquote
        · obtain ⟨rfl, hmark⟩ := List.cons.inj heq
          rcases first with _ | ⟨e, first⟩
          · exact hback
          · simp at hmark
      · rw [← List.singleton_append, ← List.append_assoc]
        -- a pair of backslashes leaves the number of them even, any other mark ends the run
        by_cases hmark : mark = '\\'
        · rw [hmark, escapes_concat_iff]
          exact fun h => h hback
        · exact not_escapes_concat hmark _
  | coded h =>
      have hdigits : ∀ d ∈ fourDigits c.toNat, isQuote d = false ∧ d ≠ '\\' := by
        intro d hmem
        have halnum := isAlphanum_of_mem_fourDigits h hmem
        refine ⟨?_, ne_of_holds halnum (show Char.isAlphanum '\\' = false from rfl)⟩
        simp [isQuote, ne_of_holds halnum (show Char.isAlphanum '"' = false from rfl),
          ne_of_holds halnum (show Char.isAlphanum '\'' = false from rfl)]
      -- what follows the code stands behind its last digit, so this one is split off
      have hpiece : '\\' :: 'u' :: fourDigits c.toNat =
          '\\' :: 'u' :: (fourDigits c.toNat).take 3 ++ [Nat.digitChar (c.toNat % 16)] := rfl
      rw [hpiece]
      refine guards_of_forall before _ (fun d hmem => ?_) (hdigits _ (by simp [fourDigits])).2
      rw [← hpiece] at hmem
      rcases List.mem_cons.mp hmem with rfl | hmem
      · rfl
      · rcases List.mem_cons.mp hmem with rfl | hmem
        · rfl
        · exact (hdigits d hmem).1

/-- The induction is on the text; what is carried along is that nothing before escapes it. -/
theorem guards_flatMap_literalChar {before : List Char} (hbefore : ¬Escapes before)
    (text : List Char) : Guards before (text.flatMap literalChar) := by
  induction text generalizing before with
  | nil => exact ⟨fun first quote rest heq _ => by simp at heq, by simpa using hbefore⟩
  | cons c text ih =>
      have hfirst := guards_literalChar hbefore c
      rw [List.flatMap_cons]
      exact hfirst.append (ih hfirst.settled)

/-- A character that is no control character and separates neither lines nor paragraphs. -/
def isTame (c : Char) : Bool := !(c.toNat = 0x2028 || c.toNat = 0x2029 || Text.isControl c)

/-- Only tame characters are written. -/
theorem isTame_of_mem_literalChar {c d : Char} (hmem : d ∈ literalChar c) : isTame d = true := by
  have hwritten := writtenAs_literalChar c
  generalize literalChar c = written at hwritten hmem
  cases hwritten with
  | bare h =>
      rw [List.mem_singleton.mp hmem]
      simp only [standsBare, Bool.not_eq_true', Bool.or_eq_false_iff] at h
      simp [isTame, h.1.1.2, h.1.2, h.2]
  | marked h =>
      have hmarks : marks.all (fun pair => ['\\', pair.2].all isTame) = true := rfl
      exact List.all_eq_true.mp (List.all_eq_true.mp hmarks _ h) d hmem
  | coded h =>
      have hdigit : ∀ n < 16, isTame (Nat.digitChar n) = true := by decide
      simp only [fourDigits, List.mem_cons, List.not_mem_nil, or_false] at hmem
      rcases hmem with rfl | rfl | rfl | rfl | rfl | rfl
      · rfl
      · rfl
      all_goals exact hdigit _ (by omega)

/-! ## Literals -/

/-- A literal is read as the text that it was written from, whatever follows it.  Between its quotes
every quote is escaped, and there is neither a control character nor a separator of lines or
paragraphs. -/
theorem readLiteral?_literal (text : String) (rest : List Char) :
    readLiteral? ((literal text).toList ++ rest) = some (text, rest) ∧
      ∃ body, (literal text).toList = '"' :: (body ++ ['"']) ∧
        (∀ before quote after, body = before ++ quote :: after →
          quote = '"' ∨ quote = '\'' → Escapes before) ∧
        ∀ c ∈ body, Text.isControl c = false ∧ c ≠ '\u2028' ∧ c ≠ '\u2029' := by
  constructor
  · have hbody := readBody?_literalBody text rest
    rw [toList_literal_eq_body, List.cons_append, List.append_assoc, List.singleton_append]
    simp [readLiteral?, Text.after?, hbody]
  · refine ⟨literalBody text, toList_literal_eq_body text, ?_, ?_⟩
    · intro before quote after hbody hquote
      have hnothing : ¬Escapes [] := by simp [Escapes]
      have hguards := guards_flatMap_literalChar hnothing text.toList
      exact hguards.quotes before quote after hbody (by simpa [isQuote] using hquote)
    · intro c hmem
      obtain ⟨d, -, hd⟩ := List.mem_flatMap.mp hmem
      have htame := isTame_of_mem_literalChar hd
      refine ⟨?_, ne_of_holds htame (by decide), ne_of_holds htame (by decide)⟩
      simp only [isTame, Bool.not_eq_true', Bool.or_eq_false_iff] at htame
      exact htame.2

end FormCompiler.Script
