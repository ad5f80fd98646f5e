import FormCompiler.Proofs.Script.Token

/-!
# The places of a text

A text of a user is written as the child of an element, as the value of an attribute, as the key
of a property, or as the name of a member.  For each place there is a reader of what stands there,
which says where it stops.  The principal result is that every place reads back the text that was
written, whatever follows it.  Where a text stands bare in markup, no character of it could mean
anything there but itself.
-/

namespace FormCompiler.Script

open Source

/-! ## Readers -/

def quoted? : List Char → Option (List Nat × List Char)
  | [] => none
  | quote :: rest => if quote = '"' || quote = '\'' then readText? quote .plain rest else none

/-- A quoted text with a closing mark behind it, and what follows the mark. -/
def enclosed? (closer : Char) (text : List Char) : Option (List Nat × List Char) :=
  (quoted? text).bind fun (units, rest) => (Text.after? [closer] rest).map fun rest => (units, rest)

/-- A character that is part of the raw text between two tags. -/
def isRaw (c : Char) : Bool := c ≠ '<' && c ≠ '\x7b'

/-- The child of an element: a quoted text between braces, or raw text up to the next tag or
brace. -/
def child? : List Char → Option (List Nat × List Char)
  | '\x7b' :: rest => enclosed? '\x7d' rest
  | text => some ((text.takeWhile isRaw).flatMap units, text.dropWhile isRaw)

/-- The value of an attribute: a quoted text between braces, or all that stands between two
quotes, where a backslash means nothing. -/
def attributeValue? : List Char → Option (List Nat × List Char)
  | [] => none
  | '\x7b' :: rest => enclosed? '\x7d' rest
  | quote :: rest =>
      if quote = '"' || quote = '\'' then
        (Text.cutAt? quote rest).map fun (value, rest) => (value.flatMap units, rest)
      else none

def attribute? (name : String) (text : List Char) : Option (List Nat × List Char) :=
  (Text.after? (name.toList ++ ['=']) text).bind attributeValue?

/-- The characters of identifiers.  A script admits many letters beyond ASCII; which they are does
not matter here. -/
structure IdentifierClass where
  begins : Char → Bool
  continues : Char → Bool
  begins_of_ascii : ∀ c, beginsIdentifier c = true → begins c = true
  continues_of_ascii : ∀ c, isIdentifierChar c = true → continues c = true
  continues_colon : continues ':' = false

def IdentifierClass.ascii : IdentifierClass :=
  ⟨beginsIdentifier, isIdentifierChar, fun _ h => h, fun _ h => h, rfl⟩

variable (letters : IdentifierClass)

/-- An identifier, as long as it can be. -/
def identifier? : List Char → Option (List Nat × List Char)
  | [] => none
  | c :: rest =>
      if letters.begins c then
        some (((c :: rest).takeWhile letters.continues).flatMap units,
          (c :: rest).dropWhile letters.continues)
      else none

def key? (text : List Char) : Option (List Nat × List Char) :=
  if text.head? = some '"' || text.head? = some '\'' then quoted? text else identifier? letters text

/-- The name behind an object: an identifier behind a point, or a quoted text in brackets. -/
def memberName? : List Char → Option (List Nat × List Char)
  | '.' :: rest => identifier? letters rest
  | '[' :: rest => enclosed? ']' rest
  | _ => none

def member? (object : String) (text : List Char) : Option (List Nat × List Char) :=
  (Text.after? object.toList text).bind (memberName? letters)

/-! ## Quoted forms -/

theorem quoted?_literal (text : String) (rest : List Char) :
    quoted? ((literal text).toList ++ rest) = some (unitsOf text, rest) := by
  rw [toList_literal_eq_body, List.cons_append, List.append_assoc]
  exact readText?_literalBody text rest

theorem enclosed?_literal (text : String) (closer : Char) (rest : List Char) :
    enclosed? closer ((literal text).toList ++ closer :: rest) = some (unitsOf text, rest) := by
  unfold enclosed?
  rw [quoted?_literal]
  simp [Text.after?]

/-- Braces around a literal are one more closing mark. -/
theorem toList_braced_append (text : String) (rest : List Char) :
    (braced text).toList ++ rest = '\x7b' :: ((literal text).toList ++ '\x7d' :: rest) := by
  simp [braced]

/-! ## Bare forms -/

/-- A bare identifier ends where no further character can belong to it. -/
theorem identifier?_append {name : String} (h : isIdentifier name = true) {rest : List Char}
    (hrest : Apart letters.continues rest) :
    identifier? letters (name.toList ++ rest) = some (unitsOf name, rest) := by
  have hchars : ∀ c ∈ name.toList, letters.continues c = true := fun c hmem =>
    letters.continues_of_ascii c (isIdentifierChar_of_mem h hmem)
  have htake := takeWhile_append_of_apart hchars hrest
  have hdrop := dropWhile_append_of_apart hchars hrest
  obtain ⟨first, others, hname, hfirst⟩ := exists_cons_of_isIdentifier h
  unfold unitsOf
  rw [hname] at htake hdrop ⊢
  rw [List.cons_append] at htake hdrop ⊢
  rw [identifier?, if_pos (letters.begins_of_ascii first hfirst), htake, hdrop]

/-- Raw text ends at the next tag. -/
theorem child?_append {text : List Char} (h : ∀ c ∈ text, isRaw c = true) (hne : text ≠ [])
    (rest : List Char) : child? (text ++ '<' :: rest) = some (text.flatMap units, '<' :: rest) := by
  have hrest : Apart isRaw ('<' :: rest) := apart_cons rfl rest
  have htake := takeWhile_append_of_apart h hrest
  have hdrop := dropWhile_append_of_apart h hrest
  obtain ⟨first, others, rfl⟩ := List.exists_cons_of_ne_nil hne
  have hfirst : first ≠ '\x7b' :=
    ne_of_holds (h first List.mem_cons_self) (show isRaw '\x7b' = false from rfl)
  unfold child?
  split
  · next heq => exact absurd (List.cons.inj heq).1 hfirst
  · rw [htake, hdrop]

theorem cutAt?_append {mark : Char} {text : List Char} (h : mark ∉ text) (rest : List Char) :
    Text.cutAt? mark (text ++ mark :: rest) = some (text, rest) := by
  induction text with
  | nil => simp [Text.cutAt?]
  | cons c text ih =>
      rw [List.mem_cons, not_or] at h
      simp [Text.cutAt?, Ne.symm h.1, ih h.2]

/-- A character means nothing in markup but itself: it is no quote of either kind, no brace, no
angle bracket, no ampersand, no backslash and no control character. -/
def IsBare (c : Char) : Prop :=
  c ∉ ['"', '\'', '\x7b', '\x7d', '<', '>', '&', '\\'] ∧ Text.isControl c = false

theorem isBare_of_isPlainInAttribute {c : Char} (h : isPlainInAttribute c = true) : IsBare c := by
  simp only [isPlainInAttribute, Bool.not_eq_true', Bool.or_eq_false_iff, decide_eq_false_iff_not]
    at h
  simpa [IsBare, and_assoc] using h

/-- The table of letters and digits has no control character. -/
theorem isControl_of_isAlphanumeric {c : Char} (h : Text.isAlphanumeric c = true) :
    Text.isControl c = false := by
  have htable : ∀ range ∈ Text.alphanumericRanges,
      32 ≤ range.1 ∧ (range.2 < 127 ∨ 159 < range.1) := by
    decide +kernel
  obtain ⟨range, hrange, hlow, hhigh⟩ := Text.RangeTable.exists_of_holds h
  have hbounds := htable range hrange
  simp only [Text.isControl, Bool.or_eq_false_iff, Bool.and_eq_false_iff, decide_eq_false_iff_not]
  omega

theorem isBare_of_isPlainBetweenTags {c : Char} (h : isPlainBetweenTags c = true) : IsBare c := by
  constructor
  · intro hmem
    have hclass : ['"', '\'', '\x7b', '\x7d', '<', '>', '&', '\\'].any isPlainBetweenTags = false :=
      rfl
    exact List.any_eq_false.mp hclass c hmem h
  · rcases Bool.or_eq_true_iff.mp h with hletter | hmark
    · exact isControl_of_isAlphanumeric hletter
    · have hmarks : plainMarks.any Text.isControl = false := rfl
      exact Bool.eq_false_iff.mpr (List.any_eq_false.mp hmarks c (List.contains_iff_mem.mp hmark))

/-! ## The places -/

theorem child?_childText (text : String) (rest : List Char) :
    child? ((childText text).toList ++ '<' :: rest) = some (unitsOf text, '<' :: rest) := by
  unfold childText
  split
  · next h =>
    have hraw : ∀ c ∈ text.toList, isRaw c = true := by
      intro c hmem
      have hc := (isBare_of_isPlainBetweenTags (isPlainBetweenTags_of_mem h hmem)).1
      simp only [List.mem_cons, not_or] at hc
      simp [isRaw, hc]
    have hne : text.toList ≠ [] := by
      intro hnil
      simp [isPlainText, hnil] at h
    exact child?_append hraw hne rest
  · rw [toList_braced_append]
    exact enclosed?_literal text '\x7d' ('<' :: rest)

theorem attribute?_attributeText (name text : String) (rest : List Char) :
    attribute? name ((attributeText name text).toList ++ rest) = some (unitsOf text, rest) := by
  unfold attribute? attributeText
  split
  · next h =>
    have hquote : '"' ∉ text.toList := by
      intro hmem
      exact ne_of_holds (isPlainInAttribute_of_mem h hmem)
        (show isPlainInAttribute '"' = false from rfl) rfl
    have hchars : (name ++ "=\"" ++ text ++ "\"").toList ++ rest =
        (name.toList ++ ['=']) ++ '"' :: (text.toList ++ '"' :: rest) := by
      simp
    have hvalue : attributeValue? ('"' :: (text.toList ++ '"' :: rest)) =
        (Text.cutAt? '"' (text.toList ++ '"' :: rest)).map
          fun (value, rest) => (value.flatMap units, rest) := rfl
    rw [hchars, Text.after?_append, Option.bind_some, hvalue, cutAt?_append hquote]
    rfl
  · have hchars : (name ++ "=" ++ braced text).toList ++ rest =
        (name.toList ++ ['=']) ++ ((braced text).toList ++ rest) := by
      simp
    rw [hchars, Text.after?_append, Option.bind_some, toList_braced_append]
    exact enclosed?_literal text '\x7d' rest

theorem key?_objectKey (text : String) (rest : List Char) :
    key? letters ((objectKey text).toList ++ ':' :: rest) = some (unitsOf text, ':' :: rest) := by
  unfold objectKey
  split
  · next h =>
    have hrest : Apart letters.continues (':' :: rest) := apart_cons letters.continues_colon rest
    have hread := identifier?_append letters h hrest
    obtain ⟨first, others, hname, hfirst⟩ := exists_cons_of_isIdentifier h
    have hdouble := ne_of_holds hfirst (show beginsIdentifier '"' = false from rfl)
    have hsingle := ne_of_holds hfirst (show beginsIdentifier '\'' = false from rfl)
    rw [hname] at hread ⊢
    simpa [key?, hdouble, hsingle] using hread
  · have hquote : ((literal text).toList ++ ':' :: rest).head? = some '"' := by
      rw [toList_literal]
      rfl
    rw [key?, hquote, if_pos (by decide)]
    exact quoted?_literal text (':' :: rest)

theorem member?_memberAccess (object text : String) {rest : List Char}
    (hrest : Apart letters.continues rest) :
    member? letters object ((memberAccess object text).toList ++ rest) =
      some (unitsOf text, rest) := by
  unfold member? memberAccess
  split
  · next h =>
    have hchars : (object ++ "." ++ text).toList ++ rest =
        object.toList ++ '.' :: (text.toList ++ rest) := by
      simp
    rw [hchars, Text.after?_append, Option.bind_some]
    exact identifier?_append letters h hrest
  · have hchars : (object ++ "[" ++ literal text ++ "]").toList ++ rest =
        object.toList ++ '[' :: ((literal text).toList ++ ']' :: rest) := by
      simp
    rw [hchars, Text.after?_append, Option.bind_some]
    exact enclosed?_literal text ']' rest

/-- A child that is not put between braces is the text itself, and bare. -/
theorem bare_of_childText {text : String} (h : childText text ≠ braced text) :
    childText text = text ∧ ∀ c ∈ text.toList, IsBare c := by
  unfold childText at h ⊢
  split at h
  · next hplain =>
    rw [if_pos hplain]
    exact ⟨rfl, fun c hmem => isBare_of_isPlainBetweenTags (isPlainBetweenTags_of_mem hplain hmem)⟩
  · exact absurd rfl h

/-- An attribute that is not put between braces is the text itself between quotes, and bare. -/
theorem bare_of_attributeText {name text : String}
    (h : attributeText name text ≠ name ++ "=" ++ braced text) :
    attributeText name text = name ++ "=\"" ++ text ++ "\"" ∧ ∀ c ∈ text.toList, IsBare c := by
  unfold attributeText at h ⊢
  split at h
  · next hplain =>
    rw [if_pos hplain]
    exact ⟨rfl, fun c hmem => isBare_of_isPlainInAttribute (isPlainInAttribute_of_mem hplain hmem)⟩
  · exact absurd rfl h

/-- Every place reads back the text that was written there and stops right behind it: a child
before the next tag, an attribute before anything, a key before its colon, the name of a member
before whatever cannot belong to an identifier.  In markup a text stands without braces only if all
its characters are bare. -/
theorem places_read_back (text : String) :
    (∀ rest, child? ((childText text).toList ++ '<' :: rest) = some (unitsOf text, '<' :: rest)) ∧
      (∀ name rest, attribute? name ((attributeText name text).toList ++ rest) =
        some (unitsOf text, rest)) ∧
      (∀ rest, key? letters ((objectKey text).toList ++ ':' :: rest) =
        some (unitsOf text, ':' :: rest)) ∧
      (∀ object rest, Apart letters.continues rest →
        member? letters object ((memberAccess object text).toList ++ rest) =
          some (unitsOf text, rest)) ∧
      (childText text ≠ braced text → childText text = text ∧ ∀ c ∈ text.toList, IsBare c) ∧
      ∀ name, attributeText name text ≠ name ++ "=" ++ braced text →
        attributeText name text = name ++ "=\"" ++ text ++ "\"" ∧ ∀ c ∈ text.toList, IsBare c := by
  refine ⟨child?_childText text, fun name => attribute?_attributeText name text,
    key?_objectKey letters text, ?_, bare_of_childText, fun name => bare_of_attributeText⟩
  exact fun object rest hrest => member?_memberAccess letters object text hrest

/-- A word with letters beyond ASCII stands bare in markup and quoted in code. -/
theorem places_read_back_umlauts :
    (childText "Größe" ≠ braced "Größe" ∧
        attributeText "label" "Größe" ≠ "label" ++ "=" ++ braced "Größe" ∧
        Apart IdentifierClass.ascii.continues (' ' :: "> 18".toList)) ∧
      childText "Größe" = "Größe" ∧ (∀ c ∈ "Größe".toList, IsBare c) ∧
      attributeText "label" "Größe" = "label" ++ "=\"" ++ "Größe" ++ "\"" ∧
      child? ((childText "Größe").toList ++ '<' :: "/label>".toList) =
        some (unitsOf "Größe", '<' :: "/label>".toList) ∧
      member? .ascii "values" ((memberAccess "values" "Größe").toList ++ ' ' :: "> 18".toList) =
        some (unitsOf "Größe", ' ' :: "> 18".toList) := by
  obtain ⟨hchild, -, -, hmember, hbare, hattribute⟩ := places_read_back .ascii "Größe"
  have hunbraced : childText "Größe" ≠ braced "Größe" := by
    rw [childText, if_pos (by decide), ne_eq, ← String.toList_inj]
    simp [braced]
  have hunbraced' : attributeText "label" "Größe" ≠ "label" ++ "=" ++ braced "Größe" := by
    rw [attributeText, if_pos (by decide), ne_eq, ← String.toList_inj]
    simp [braced]
  have hapart : Apart IdentifierClass.ascii.continues (' ' :: "> 18".toList) := apart_cons rfl _
  obtain ⟨hsame, hall⟩ := hbare hunbraced
  exact ⟨⟨hunbraced, hunbraced', hapart⟩, hsame, hall, (hattribute "label" hunbraced').1,
    hchild "/label>".toList, hmember "values" (' ' :: "> 18".toList) hapart⟩

end FormCompiler.Script
