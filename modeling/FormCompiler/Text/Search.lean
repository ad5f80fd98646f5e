/-!
# Searching and splitting text

Functions on lists of characters: where one text occurs in another, what stands before and after
the first occurrence of a separator, and the replacement of every occurrence.
-/

namespace FormCompiler.Text

/-- What follows `lead`, when the text begins with it. -/
def after? : (lead text : List Char) → Option (List Char)
  | [], text => some text
  | _ :: _, [] => none
  | a :: lead, b :: text => if a = b then after? lead text else none

theorem after?_eq_some_iff {lead text rest : List Char} :
    after? lead text = some rest ↔ text = lead ++ rest := by
  induction lead generalizing text with
  | nil => simp [after?, eq_comm]
  | cons a lead ih =>
      cases text with
      | nil => simp [after?]
      | cons b text =>
          simp only [after?]
          split
          · subst_vars; simp [ih]
          · simp; intro h; exact absurd h.symm (by assumption)

@[simp] theorem after?_append (lead rest : List Char) : after? lead (lead ++ rest) = some rest :=
  after?_eq_some_iff.2 rfl

def occurs (part : List Char) : List Char → Bool
  | [] => part.isEmpty
  | c :: rest => part.isPrefixOf (c :: rest) || occurs part rest

theorem occurs_iff {part text : List Char} :
    occurs part text = true ↔ ∃ before rest, text = before ++ part ++ rest := by
  induction text with
  | nil => simp [occurs]
  | cons c text ih =>
      simp only [occurs, Bool.or_eq_true, ih, List.isPrefixOf_iff_prefix]
      constructor
      · rintro (⟨rest, h⟩ | ⟨before, rest, h⟩)
        · exact ⟨[], rest, by simpa using h.symm⟩
        · exact ⟨c :: before, rest, by simp [h]⟩
      · rintro ⟨before, rest, h⟩
        cases before with
        | nil => exact Or.inl ⟨rest, by simpa using h.symm⟩
        | cons d before =>
            simp only [List.cons_append, List.cons.injEq] at h
            exact Or.inr ⟨before, rest, h.2⟩

/-- What stands before and after the first occurrence of a non-empty separator. -/
def cut? (separator : List Char) : List Char → Option (List Char × List Char)
  | [] => none
  | c :: rest =>
      match after? separator (c :: rest) with
      | some tail => some ([], tail)
      | none => (cut? separator rest).map fun (before, tail) => (c :: before, tail)

/-- What stands before and after the first occurrence of a character. -/
def cutAt? (mark : Char) : List Char → Option (List Char × List Char)
  | [] => none
  | c :: rest =>
      if c = mark then some ([], rest)
      else (cutAt? mark rest).map fun (before, tail) => (c :: before, tail)

/-- The pieces between the occurrences of a character; one more than there are occurrences. -/
def pieces (mark : Char) : List Char → List (List Char)
  | [] => [[]]
  | c :: rest =>
      if c = mark then [] :: pieces mark rest
      else
        match pieces mark rest with
        | [] => [[c]]
        | first :: others => (c :: first) :: others

/-- Every carriage return that a line feed follows is dropped. -/
def unifyNewlines : List Char → List Char
  | [] => []
  | '\r' :: '\n' :: rest => '\n' :: unifyNewlines rest
  | c :: rest => c :: unifyNewlines rest

def endsWith (tail text : List Char) : Bool := tail.reverse.isPrefixOf text.reverse

def decimal (n : Nat) : String := String.ofList (Nat.toDigits 10 n)

def signedDecimal : Int → String
  | .ofNat n => decimal n
  | .negSucc n => "-" ++ decimal (n + 1)

/-- The lower-case hexadecimal digits of a number, padded with zeros to a width. -/
def paddedHex (width n : Nat) : List Char :=
  let digits := Nat.toDigits 16 n
  List.replicate (width - digits.length) '0' ++ digits

def paddedDecimal (width n : Nat) : String :=
  let digits := Nat.toDigits 10 n
  String.ofList (List.replicate (width - digits.length) '0' ++ digits)

/-- A text where each ASCII capital is replaced by its small letter. -/
def asciiLower (text : String) : String := text.map Char.toLower

end FormCompiler.Text
