import FormCompiler.Proofs.Extraction.Assignments
import FormCompiler.Source.Component

/-!
# Written texts assign nothing

Literals, attributes, texts between tags and expressions are quiet together with the one character
that follows them.  The reason for quoted texts is that every quote in them stands behind a
backslash, so that only the closing quote could begin the value of an assignment.  The attribute
`name` assigns its text exactly when this is an identifier name.
-/

namespace FormCompiler.Extraction

open Source

/-! ## Quiet before a character -/

/-- The text is quiet together with a character that follows it. -/
def QuietBefore (follow : Char) (text : List Char) : Prop := Quiet (text ++ [follow])

theorem Quiet.before {follow : Char} {first second : List Char} (hfirst : Quiet first)
    (hsecond : QuietBefore follow second) : QuietBefore follow (first ++ second) := by
  unfold QuietBefore
  rw [List.append_assoc]
  exact hfirst.append hsecond

/-- The text that follows may begin with the character. -/
theorem QuietBefore.append {follow : Char} {first second rest : List Char}
    (hfirst : QuietBefore follow first) (hsecond : second = follow :: rest) (hrest : Quiet rest) :
    Quiet (first ++ second) := by
  have hsplit : first ++ second = (first ++ [follow]) ++ rest := by simp [hsecond]
  rw [hsplit]
  exact Quiet.append hfirst hrest

theorem Quiet.quietBefore {text : List Char} (h : Quiet text) {follow : Char}
    (hfollow : follow ≠ '=') : QuietBefore follow text :=
  h.append (quiet_of_not_mem (by simpa using Ne.symm hfollow))

/-- A fixed text is quiet when the check says so. -/
theorem quiet_ofList {chars : List Char} (h : isQuietFrom false chars = true) :
    Quiet (String.ofList chars).toList := by
  rw [String.toList_ofList]
  exact quiet_of_isQuietFrom h

/-! ## Marked quotes -/

/-- A quote with which the value of an assignment may begin. -/
def quotesValue (c : Char) : Bool := c = '"' || c = '\''

/-- Every quote stands behind a backslash, where `last` is the character before the text. -/
def Marked : (last : Char) → List Char → Prop
  | _, [] => True
  | last, c :: rest => (quotesValue c = true → last = '\\') ∧ Marked c rest

theorem Marked.tail {last c : Char} {before rest : List Char}
    (h : Marked last (before ++ c :: rest)) : Marked c rest := by
  induction before generalizing last with
  | nil => exact h.2
  | cons d before ih => exact ih h.2

/-- A text without quotes may stand before a text that is marked behind every character. -/
theorem marked_append {first rest : List Char} (hfirst : ∀ c ∈ first, quotesValue c = false)
    (hrest : ∀ last, Marked last rest) (last : Char) : Marked last (first ++ rest) := by
  induction first generalizing last with
  | nil => exact hrest last
  | cons c first ih =>
      refine ⟨fun hquote => ?_, ih (fun d hmem => hfirst d (List.mem_cons_of_mem _ hmem)) c⟩
      rw [hfirst c (by simp)] at hquote
      cases hquote

theorem marked_of_forall {text : List Char} (h : ∀ c ∈ text, quotesValue c = false)
    (last : Char) : Marked last text := by
  have hnil : ∀ last, Marked last [] := fun _ => trivial
  simpa using marked_append h hnil last

/-- A literal marks its quotes. -/
theorem marked_literalBody (text : String) (last : Char) : Marked last (literalBody text) := by
  unfold literalBody
  induction text.toList generalizing last with
  | nil => trivial
  | cons c rest ih =>
      rw [List.flatMap_cons]
      have hwritten := writtenAs_literalChar c
      generalize literalChar c = written at hwritten ⊢
      cases hwritten with
      | bare h =>
          refine marked_append (fun d hmem => ?_) ih last
          rw [List.mem_singleton.mp hmem]
          simp only [standsBare, Bool.not_eq_true', Bool.or_eq_false_iff,
            decide_eq_false_iff_not] at h
          simp [quotesValue, h]
      | marked h => exact ⟨by simp [quotesValue], fun _ => rfl, ih _⟩
      | coded h =>
          refine marked_append (fun d hmem => ?_) ih last
          rcases List.mem_cons.mp hmem with rfl | hmem
          · rfl
          · rcases List.mem_cons.mp hmem with rfl | hmem
            · rfl
            · have halnum := isAlphanum_of_mem_fourDigits h hmem
              simp [quotesValue, ne_of_holds halnum (show Char.isAlphanum '"' = false from rfl),
                ne_of_holds halnum (show Char.isAlphanum '\'' = false from rfl)]

theorem Marked.skipBlanks {last : Char} {text : List Char} (h : Marked last text)
    (hlast : last ≠ '\\') : ∃ before, before ≠ '\\' ∧ Marked before (skipBlanks text) := by
  induction text generalizing last with
  | nil => exact ⟨last, hlast, h⟩
  | cons c rest ih =>
      unfold Extraction.skipBlanks
      rw [List.dropWhile_cons]
      split
      · next hblank => exact ih h.2 (ne_of_holds hblank rfl)
      · exact ⟨last, hlast, h⟩

theorem skipBlanks_append_cons {c : Char} (hc : Text.isBlank c = false) (text rest : List Char) :
    skipBlanks (text ++ c :: rest) = skipBlanks text ++ c :: rest := by
  unfold skipBlanks
  induction text with
  | nil => simp [hc]
  | cons d text ih =>
      rw [List.cons_append, List.dropWhile_cons, List.dropWhile_cons]
      split
      · exact ih
      · rfl

/-- In a marked text and behind its closing quote no quoted identifier begins, if no identifier
goes on behind the quote. -/
theorem quotedName?_of_marked {last quote follow : Char} {text : List Char}
    (h : Marked last text) (hlast : last ≠ '\\') (hquote : quotesValue quote = true)
    (hfollow : isNameChar follow = false) (rest : List Char) :
    quotedName? quote (text ++ '"' :: follow :: rest) = none := by
  cases text with
  | nil =>
      simp only [List.nil_append, quotedName?]
      split
      · simp [hfollow]
      · rfl
  | cons c text =>
      have hc : c ≠ quote := by
        intro heq
        rw [← heq] at hquote
        exact hlast (h.1 hquote)
      simp [quotedName?, hc]

/-- The same behind blanks and a brace. -/
theorem bracedName?_of_marked {last follow : Char} {text : List Char} (h : Marked last text)
    (hfollow : isNameChar follow = false) (rest : List Char) :
    bracedName? (text ++ '"' :: follow :: rest) = none := by
  cases text with
  | nil => rfl
  | cons c text =>
      by_cases hc : c = '\x7b'
      · obtain ⟨before, hbefore, hmarked⟩ := h.2.skipBlanks (by rw [hc]; decide)
        have hquoted : quotedName? '"' (skipBlanks (text ++ '"' :: follow :: rest)) = none := by
          rw [skipBlanks_append_cons rfl]
          exact quotedName?_of_marked hmarked hbefore rfl hfollow rest
        simp [bracedName?, hc, Text.after?, hquoted]
      · simp [bracedName?, Text.after?, Ne.symm hc]

/-- A marked text and its closing quote are refused. -/
theorem refuses_of_marked {last follow : Char} {text : List Char} (h : Marked last text)
    (hlast : last ≠ '\\') (hfollow : isNameChar follow = false) :
    Refuses (text ++ ['"', follow]) := by
  intro rest
  obtain ⟨before, hbefore, hmarked⟩ := h.skipBlanks hlast
  have hskip : skipBlanks (text ++ ['"', follow] ++ rest) =
      skipBlanks text ++ '"' :: follow :: rest := by
    rw [List.append_assoc]
    exact skipBlanks_append_cons rfl text (follow :: rest)
  unfold assignedValue?
  rw [hskip, quotedName?_of_marked hmarked hbefore rfl hfollow,
    quotedName?_of_marked hmarked hbefore rfl hfollow, bracedName?_of_marked hmarked hfollow]

/-! ## Texts of a user -/

/-- The signs of a text are quiet when what follows each of them is refused. -/
theorem quiet_append_of_refuses {text rest : List Char}
    (h : ∀ before value, text = before ++ '=' :: value → Refuses (value ++ rest))
    (hrest : Quiet rest) : Quiet (text ++ rest) := by
  induction text with
  | nil => exact hrest
  | cons c text ih =>
      have htail := ih fun before value htext => h (c :: before) value (by simp [htext])
      by_cases hc : c = '='
      · subst hc
        exact quiet_sign (h [] text rfl) htail
      · exact (quiet_of_not_mem (by simpa using Ne.symm hc) : Quiet [c]).append htail

/-- A quoted text is quiet before a character with which no identifier goes on. -/
theorem quietBefore_quoted {follow : Char} {text : List Char} (h : ∀ last, Marked last text)
    (hfollow : isNameChar follow = false) : QuietBefore follow ('"' :: (text ++ ['"'])) := by
  have hopen : Quiet ['"'] := quiet_of_not_mem (by decide)
  have hclose : Quiet ['"', follow] := by
    intro before value htext
    cases before with
    | nil => simp at htext
    | cons c before =>
        simp only [List.cons_append, List.cons.injEq] at htext
        rw [← htext.1]
        cases before with
        | nil => exact Or.inl (shut_of_stops rfl [])
        | cons d before => simp at htext
  have hbody : Quiet (text ++ ['"', follow]) := by
    refine quiet_append_of_refuses (fun before value htext => ?_) hclose
    have hmarked := h '"'
    rw [htext] at hmarked
    exact refuses_of_marked hmarked.tail (by decide) hfollow
  unfold QuietBefore
  simpa using hopen.append hbody

theorem quietBefore_literal {follow : Char} (text : String)
    (hfollow : isNameChar follow = false) : QuietBefore follow (literal text).toList := by
  rw [toList_literal_eq_body]
  exact quietBefore_quoted (marked_literalBody text) hfollow

theorem quotesValue_of_isPlainInAttribute {c : Char} (h : isPlainInAttribute c = true) :
    quotesValue c = false := by
  simp [quotesValue, ne_of_holds h (show isPlainInAttribute '"' = false from rfl),
    ne_of_holds h (show isPlainInAttribute '\'' = false from rfl)]

theorem quiet_braced (text : String) : Quiet (braced text).toList := by
  simp only [braced, String.toList_append]
  exact ((quiet_ofList rfl).before (quietBefore_literal text rfl)).append String.toList_ofList
    (quiet_of_not_mem (by decide))

/-- An attribute is quiet if its name does not complete the word of an assignment. -/
theorem quietBefore_attributeText {name : String} (hname : Quiet (name.toList ++ ['=']))
    {follow : Char} (text : String) (hfollow : isNameChar follow = false) (hsign : follow ≠ '=') :
    QuietBefore follow (attributeText name text).toList := by
  unfold attributeText
  split
  · next hplain =>
    have hmarked : ∀ last, Marked last text.toList := marked_of_forall fun c hmem =>
      quotesValue_of_isPlainInAttribute (isPlainInAttribute_of_mem hplain hmem)
    simpa using hname.before (quietBefore_quoted hmarked hfollow)
  · simpa using (hname.append (quiet_braced text)).quietBefore hsign

theorem beginsNoValue_or_isBlank {c : Char} (h : isPlainBetweenTags c = true) :
    beginsNoValue c = true ∨ Text.isBlank c = true := by
  cases hblank : Text.isBlank c with
  | true => exact Or.inr rfl
  | false =>
      simp [beginsNoValue, hblank,
        ne_of_holds h (show isPlainBetweenTags '"' = false from by decide),
        ne_of_holds h (show isPlainBetweenTags '\'' = false from by decide),
        ne_of_holds h (show isPlainBetweenTags '\x7b' = false from by decide)]

/-- What stands between tags is refused together with the tag behind it. -/
theorem refuses_between_tags {text : List Char} (h : ∀ c ∈ text, isPlainBetweenTags c = true) :
    Refuses (text ++ ['<']) := by
  induction text with
  | nil => exact refuses_of_begins rfl []
  | cons c text ih =>
      rcases beginsNoValue_or_isBlank (h c (by simp)) with hbegins | hblank
      · exact refuses_of_begins hbegins _
      · intro rest
        have hrest := ih (fun d hmem => h d (List.mem_cons_of_mem _ hmem)) rest
        have hskip :
            skipBlanks (c :: text ++ ['<'] ++ rest) = skipBlanks (text ++ ['<'] ++ rest) := by
          simp [skipBlanks, hblank]
        unfold assignedValue? at hrest ⊢
        rwa [hskip]

theorem quietBefore_childText (text : String) : QuietBefore '<' (childText text).toList := by
  unfold childText
  split
  · next hplain =>
    refine quiet_append_of_refuses (fun before value htext => ?_) (quiet_of_not_mem (by decide))
    refine refuses_between_tags fun c hmem => isPlainBetweenTags_of_mem hplain ?_
    simp [htext, hmem]
  · exact (quiet_braced text).quietBefore (by decide)

theorem quiet_identifier {name : String} (h : isIdentifier name = true) : Quiet name.toList :=
  quiet_of_not_mem fun hmem =>
    absurd (isIdentifierChar_of_mem h hmem) (by decide)

theorem quiet_number (x : Binary64) : Quiet x.sourceText.toList :=
  quiet_of_not_mem fun hmem => absurd (isNumberChar_of_mem_sourceText x hmem) (by decide)

theorem quietBefore_objectKey (name : String) : QuietBefore ':' (objectKey name).toList := by
  unfold objectKey
  split
  · next h => exact (quiet_identifier h).quietBefore (by decide)
  · exact quietBefore_literal name rfl

theorem quiet_memberAccess {object : String} (hobject : Quiet object.toList) (name : String) :
    Quiet (memberAccess object name).toList := by
  unfold memberAccess
  split
  · next h =>
    simp only [String.toList_append]
    exact (hobject.append (quiet_ofList rfl)).append (quiet_identifier h)
  · simp only [String.toList_append]
    exact ((hobject.append (quiet_ofList rfl)).before (quietBefore_literal name rfl)).append
      String.toList_ofList (quiet_of_not_mem (by decide))

/-! ## Silent texts -/

/-- A text that is quiet and shut. -/
structure Silent (text : List Char) : Prop where
  quiet : Quiet text
  shut : Shut text

theorem Silent.assigns {text : List Char} (h : Silent text) : Assigns [] text :=
  assigns_nil_of_quiet h.quiet h.shut

theorem Quiet.silent {first second : List Char} (hfirst : Quiet first) (hsecond : Silent second) :
    Silent (first ++ second) := ⟨hfirst.append hsecond.quiet, hsecond.shut.prepend first⟩

/-- A fixed text is silent when the checks say so. -/
theorem silent_ofList {chars : List Char} (hquiet : isQuietFrom false chars = true)
    (hshut : chars.foldl shutAfter false = true) : Silent (String.ofList chars).toList := by
  rw [String.toList_ofList]
  exact ⟨quiet_of_isQuietFrom hquiet, shut_of_foldl [] (by simp) hshut⟩

/-- A fixed text behind one that is quiet before its first character. -/
theorem QuietBefore.silent {follow : Char} {first second rest : List Char}
    (hfirst : QuietBefore follow first) (hsecond : second = follow :: rest)
    (hquiet : isQuietFrom false rest = true)
    (hshut : (follow :: rest).foldl shutAfter false = true) :
    Silent (first ++ second) := by
  refine ⟨hfirst.append hsecond (quiet_of_isQuietFrom hquiet), ?_⟩
  rw [hsecond]
  exact Shut.prepend (shut_of_foldl [] (by simp) hshut) first

theorem silent_clause (clause : RuleClause) : Silent clause.sourceText.toList := by
  unfold RuleClause.sourceText
  cases clause with
  | required message =>
      simp only [String.toList_append]
      exact ((quiet_ofList rfl).before (quietBefore_literal message rfl)).silent
        String.toList_ofList rfl rfl
  | min limit message =>
      simp only [String.toList_append]
      exact ((((quiet_ofList rfl).append (quiet_number limit)).append (quiet_ofList rfl)).before
        (quietBefore_literal message rfl)).silent String.toList_ofList rfl rfl
  | max limit message =>
      simp only [String.toList_append]
      exact ((((quiet_ofList rfl).append (quiet_number limit)).append (quiet_ofList rfl)).before
        (quietBefore_literal message rfl)).silent String.toList_ofList rfl rfl
  | pattern source message =>
      simp only [String.toList_append]
      exact ((((quiet_ofList rfl).before (quietBefore_literal source rfl)).append
        String.toList_ofList (quiet_of_isQuietFrom rfl)).before
          (quietBefore_literal message rfl)).silent String.toList_ofList rfl rfl
  | crossField other message =>
      have hparent : Quiet "this.parent".toList := quiet_ofList rfl
      simp only [String.toList_append]
      exact ((((quiet_ofList rfl).before (quietBefore_literal message rfl)).append
        String.toList_ofList (quiet_of_isQuietFrom rfl)).append
          (quiet_memberAccess hparent other)).silent (silent_ofList rfl rfl)

theorem silent_append_clauses {text : List Char} (h : Silent text) (clauses : List RuleClause) :
    Silent (text ++ (RuleClause.listText clauses).toList) := by
  induction clauses generalizing text with
  | nil => simpa [RuleClause.listText] using h
  | cons clause rest ih =>
      rw [RuleClause.listText, String.toList_append, ← List.append_assoc]
      exact ih (h.quiet.silent (silent_clause clause))

theorem silent_chain (chain : ValidationChain) : Silent chain.sourceText.toList := by
  have hbase : Silent chain.base.sourceText.toList := by
    cases chain.base <;> exact silent_ofList rfl rfl
  rw [ValidationChain.sourceText, String.toList_append]
  exact silent_append_clauses hbase chain.clauses

theorem quietBefore_operand (operand : Operand) :
    QuietBefore ')' operand.sourceText.toList := by
  cases operand with
  | text value => exact quietBefore_literal value rfl
  | number x => exact (quiet_number x).quietBefore (by decide)
  | coerced value =>
      simp only [Operand.sourceText, String.toList_append]
      exact (((quiet_ofList rfl).before (quietBefore_literal value rfl)).append
        String.toList_ofList (quiet_of_isQuietFrom rfl)).quietBefore (by decide)

theorem quietBefore_predicate (p : Predicate) : QuietBefore ')' p.sourceText.toList := by
  have hmember := quiet_memberAccess (quiet_ofList rfl : Quiet "values".toList) p.field
  have hoperand := quietBefore_operand p.operand
  unfold Predicate.sourceText
  cases p.operator with
  | contains =>
      simp only [String.toList_append]
      exact (((((quiet_ofList rfl).append hmember).append (quiet_ofList rfl)).before
        hoperand).append String.toList_ofList (quiet_of_isQuietFrom rfl)).quietBefore (by decide)
  | equal | notEqual | greater | less =>
      simp only [String.toList_append]
      exact (hmember.append (quiet_ofList rfl)).before hoperand

theorem quietBefore_expression (expr : BoolExpr) : QuietBefore ')' expr.sourceText.toList := by
  induction expr with
  | predicate p => exact quietBefore_predicate p
  | combine left logic right hleft hright =>
      have hlogic : Quiet logic.sourceText.toList := by
        cases logic <;> exact quiet_ofList rfl
      simp only [BoolExpr.sourceText, String.toList_append]
      exact ((((((quiet_ofList rfl).before hleft).append String.toList_ofList
        (quiet_of_isQuietFrom rfl)).append hlogic).append (quiet_ofList rfl)).before hright).append
          String.toList_ofList (quiet_of_isQuietFrom rfl) |>.quietBefore (by decide)

/-! ## The attribute that assigns a name -/

/-- The identifier that the attribute with a name assigns. -/
def assignedBy (name : String) : List (List Char) :=
  if isIdentifierName name then [name.toList] else []

theorem assignedFrom_append (passed rest : List Char) :
    assignedFrom passed.length (passed ++ rest) = assignedFrom 0 rest := by
  induction passed with
  | nil => rfl
  | cons c passed ih => exact ih

/-- A text that is an assignment whatever follows it. -/
theorem assigns_of_assignment? {text name : List Char} (hne : text ≠ [])
    (h : ∀ rest, assignment? (text ++ rest) = some (name, rest)) : Assigns [name] text := by
  intro rest
  have hfound := h rest
  cases text with
  | nil => exact absurd rfl hne
  | cons c text =>
      have hlength : (text ++ rest).length - rest.length = text.length := by simp
      rw [List.cons_append] at hfound ⊢
      rw [assignedFrom, hfound]
      change name :: assignedFrom ((text ++ rest).length - rest.length) (text ++ rest) = _
      rw [hlength, assignedFrom_append]
      rfl

/-- A value that begins with a double quote is what stands between double quotes. -/
theorem assignedValue?_quote (text : List Char) :
    assignedValue? ('"' :: text) = quotedName? '"' ('"' :: text) := by
  have hskip : skipBlanks ('"' :: text) = '"' :: text := rfl
  unfold assignedValue?
  rw [hskip]
  cases quotedName? '"' ('"' :: text) with
  | some found => rfl
  | none => rfl

theorem bounds_of_isAlphanum {c : Char} (h : c.isAlphanum = true) :
    48 ≤ c.toNat ∧ c.toNat ≤ 122 := by
  rcases Bool.or_eq_true_iff.mp h with hletter | hdigit
  · rcases Bool.or_eq_true_iff.mp hletter with hupper | hlower
    · obtain ⟨hlow, hhigh⟩ := of_decide_eq_true hupper
      exact ⟨Nat.le_trans (by decide) hlow, Nat.le_trans hhigh (by decide)⟩
    · obtain ⟨hlow, hhigh⟩ := Bool.and_eq_true_iff.mp hlower
      exact ⟨Nat.le_trans (by decide) (of_decide_eq_true hlow), of_decide_eq_true hhigh⟩
  · obtain ⟨hlow, hhigh⟩ := Bool.and_eq_true_iff.mp hdigit
    exact ⟨of_decide_eq_true hlow, Nat.le_trans (of_decide_eq_true hhigh) (by decide)⟩

theorem bounds_of_isNameChar {c : Char} (h : isNameChar c = true) :
    45 ≤ c.toNat ∧ c.toNat ≤ 122 := by
  simp only [isNameChar, Text.isAsciiAlphanumeric, Bool.or_eq_true, decide_eq_true_eq] at h
  rcases h with (halnum | rfl) | rfl
  · obtain ⟨hlow, hhigh⟩ := bounds_of_isAlphanum halnum
    exact ⟨by omega, hhigh⟩
  · decide
  · decide

theorem isBlank_of_isNameChar {c : Char} (h : isNameChar c = true) : Text.isBlank c = false := by
  have htable : ∀ code < 123, 45 ≤ code → Text.blankRanges.holds code = false := by decide
  obtain ⟨hlow, hhigh⟩ := bounds_of_isNameChar h
  exact htable c.toNat (by omega) hlow

theorem isPlainInAttribute_of_isNameChar {c : Char} (h : isNameChar c = true) :
    isPlainInAttribute c = true := by
  have hbounds := bounds_of_isNameChar h
  have hcontrol : Text.isControl c = false := by
    simp only [Text.isControl, Bool.or_eq_false_iff, Bool.and_eq_false_iff,
      decide_eq_false_iff_not]
    omega
  simp [isPlainInAttribute, hcontrol, ne_of_holds h (show isNameChar '"' = false from rfl),
    ne_of_holds h (show isNameChar '\'' = false from rfl),
    ne_of_holds h (show isNameChar '\x7b' = false from rfl),
    ne_of_holds h (show isNameChar '\x7d' = false from rfl),
    ne_of_holds h (show isNameChar '<' = false from rfl),
    ne_of_holds h (show isNameChar '>' = false from rfl),
    ne_of_holds h (show isNameChar '&' = false from rfl),
    ne_of_holds h (show isNameChar '\\' = false from rfl)]

theorem isPlainAttribute_of_isIdentifierName {name : String} (h : isIdentifierName name = true) :
    isPlainAttribute name = true := by
  simp only [isIdentifierName, Bool.and_eq_true, List.all_eq_true] at h
  simp only [isPlainAttribute, Bool.and_eq_true, List.all_eq_true]
  exact ⟨h.1, fun c hmem => isPlainInAttribute_of_isNameChar (h.2 c hmem)⟩

/-- A quoted identifier is read up to its closing quote. -/
theorem quotedName?_of_forall {name : List Char} (hne : name ≠ [])
    (h : ∀ c ∈ name, isNameChar c = true) (rest : List Char) :
    quotedName? '"' ('"' :: (name ++ '"' :: rest)) = some (name, rest) := by
  have hquote : isNameChar '"' = false := rfl
  have htake : (name ++ '"' :: rest).takeWhile isNameChar = name := by
    rw [List.takeWhile_append_of_pos h, List.takeWhile_cons_of_neg (by simp [hquote]),
      List.append_nil]
  have hdrop : (name ++ '"' :: rest).dropWhile isNameChar = '"' :: rest := by
    rw [List.dropWhile_append_of_pos h, List.dropWhile_cons_of_neg (by simp [hquote])]
  simp [quotedName?, htake, hdrop, hne, Text.after?]

/-- A character that is neither of an identifier nor the closing quote ends the identifier. -/
def Blocked (text : List Char) : Prop :=
  ∃ first c rest, text = first ++ c :: rest ∧ (∀ d ∈ first, isNameChar d = true) ∧
    isNameChar c = false ∧ c ≠ '"'

theorem Blocked.cons {c : Char} {text : List Char} (hc : isNameChar c = true)
    (h : Blocked text) : Blocked (c :: text) := by
  obtain ⟨first, d, rest, rfl, hfirst, hd, hne⟩ := h
  refine ⟨c :: first, d, rest, rfl, fun e hmem => ?_, hd, hne⟩
  rcases List.mem_cons.mp hmem with rfl | hmem
  · exact hc
  · exact hfirst e hmem

theorem quotedName?_of_blocked {text : List Char} (h : text = [] ∨ Blocked text)
    (rest : List Char) : quotedName? '"' ('"' :: (text ++ '"' :: rest)) = none := by
  have hquote : isNameChar '"' = false := rfl
  rcases h with rfl | ⟨first, c, others, rfl, hfirst, hc, hne⟩
  · simp [quotedName?, hquote]
  · have hdrop : (first ++ c :: (others ++ '"' :: rest)).dropWhile isNameChar =
        c :: (others ++ '"' :: rest) := by
      rw [List.dropWhile_append_of_pos hfirst, List.dropWhile_cons_of_neg (by simp [hc])]
    simp [quotedName?, hdrop, Text.after?, Ne.symm hne]

theorem blocked_of_not_all {text : List Char} (h : text.all isNameChar = false)
    (hquote : ∀ c ∈ text, c ≠ '"') : Blocked text := by
  induction text with
  | nil => simp at h
  | cons c text ih =>
      cases hc : isNameChar c with
      | true =>
          have hrest : text.all isNameChar = false := by simpa [hc] using h
          exact (ih hrest fun d hmem => hquote d (List.mem_cons_of_mem _ hmem)).cons hc
      | false => exact ⟨[], c, text, rfl, by simp, hc, hquote c (by simp)⟩

/-- A literal writes a character that is not of an identifier as one that is not the quote. -/
theorem blocked_literalBody {text : String} (h : text.toList.all isNameChar = false) :
    Blocked (literalBody text) := by
  unfold literalBody
  generalize text.toList = chars at h
  induction chars with
  | nil => simp at h
  | cons c rest ih =>
      rw [List.flatMap_cons]
      have hback : ∀ others, Blocked ('\\' :: others) := fun others =>
        ⟨[], '\\', others, rfl, by simp, rfl, by decide⟩
      have hwritten := writtenAs_literalChar c
      generalize literalChar c = written at hwritten ⊢
      cases hwritten with
      | bare hbare =>
          cases hc : isNameChar c with
          | true =>
              have hrest : rest.all isNameChar = false := by simpa [hc] using h
              exact (ih hrest).cons hc
          | false =>
              exact ⟨[], c, _, rfl, by simp, hc,
                ne_of_holds hbare (show standsBare '"' = false from rfl)⟩
      | marked _ => exact hback _
      | coded _ => exact hback _

/-- The attribute with an identifier name assigns it. -/
theorem assigns_attribute {name : String} (h : isIdentifierName name = true) :
    Assigns [name.toList] (attributeText "name" name).toList := by
  have htext : (attributeText "name" name).toList =
      nameWord ++ '=' :: '"' :: (name.toList ++ ['"']) := by
    simp [attributeText, isPlainAttribute_of_isIdentifierName h, nameWord]
  simp only [isIdentifierName, Bool.and_eq_true, List.all_eq_true, Bool.not_eq_true',
    List.isEmpty_eq_false_iff] at h
  rw [htext]
  refine assigns_of_assignment? (by simp [nameWord]) fun rest => ?_
  have hquoted := quotedName?_of_forall h.1 h.2 rest
  rw [← assignedValue?_quote, ← assignment?_nameWord_append] at hquoted
  simpa using hquoted

theorem refuses_quoted {text : List Char} (h : text = [] ∨ Blocked text) (rest : List Char) :
    Refuses ('"' :: (text ++ '"' :: rest)) := by
  intro more
  have hquoted := quotedName?_of_blocked h (rest ++ more)
  rw [← assignedValue?_quote] at hquoted
  simpa using hquoted

theorem refuses_braced {text : List Char} (h : text = [] ∨ Blocked text) (rest : List Char) :
    Refuses ('\x7b' :: '"' :: (text ++ '"' :: rest)) := by
  intro more
  have hquoted := quotedName?_of_blocked h (rest ++ more)
  have hskip : ∀ others, skipBlanks ('\x7b' :: others) = '\x7b' :: others := fun _ => rfl
  have hinside : ∀ others, skipBlanks ('"' :: others) = '"' :: others := fun _ => rfl
  have hdouble : ∀ others, quotedName? '"' ('\x7b' :: others) = none := fun _ => rfl
  have hsingle : ∀ others, quotedName? '\'' ('\x7b' :: others) = none := fun _ => rfl
  simp [assignedValue?, hskip, hinside, hdouble, hsingle, bracedName?, Text.after?, hquoted]

/-- The attribute with any other name assigns nothing. -/
theorem quietBefore_attribute {name : String} (h : isIdentifierName name = false) :
    QuietBefore '>' (attributeText "name" name).toList := by
  have hword : Quiet nameWord := quiet_of_not_mem (by decide)
  have hnot : name.toList = [] ∨ name.toList.all isNameChar = false := by
    unfold isIdentifierName at h
    cases hname : name.toList with
    | nil => exact Or.inl rfl
    | cons c rest =>
        rw [hname] at h
        exact Or.inr h
  unfold attributeText
  split
  · next hplain =>
    have hvalues : ∀ c ∈ name.toList, quotesValue c = false := fun c hmem =>
      quotesValue_of_isPlainInAttribute (isPlainInAttribute_of_mem hplain hmem)
    have hblocked := hnot.imp_right fun hall => blocked_of_not_all hall fun c hmem =>
      ne_of_holds (isPlainInAttribute_of_mem hplain hmem)
        (show isPlainInAttribute '"' = false from rfl)
    have hvalue : Quiet ('"' :: (name.toList ++ ['"']) ++ ['>']) :=
      quietBefore_quoted (marked_of_forall hvalues) rfl
    have hsign := quiet_sign (refuses_quoted hblocked ['>']) (by simpa using hvalue)
    simpa [QuietBefore, nameWord] using hword.append hsign
  · have hblocked : literalBody name = [] ∨ Blocked (literalBody name) := by
      refine hnot.imp (fun hnil => ?_) blocked_literalBody
      simp [literalBody, hnil]
    have hbraced : (braced name).toList = '\x7b' :: '"' :: (literalBody name ++ ['"', '\x7d']) := by
      simp [braced, toList_literal_eq_body]
    have hvalue : Quiet ((braced name).toList ++ ['>']) :=
      (quiet_braced name).quietBefore (by decide)
    rw [hbraced] at hvalue
    have hsign := quiet_sign (refuses_braced hblocked ['\x7d', '>']) (by simpa using hvalue)
    simpa [QuietBefore, nameWord, hbraced] using hword.append hsign

/-- The attribute with a name and the end of its tag assign the name if it is an identifier. -/
theorem assigns_assignedBy (name : String) :
    Assigns (assignedBy name) ((attributeText "name" name).toList ++ ['>']) := by
  unfold assignedBy
  split
  · next h =>
    have hend : Assigns [] ['>'] := assigns_nil_of_not_mem (by decide)
    exact (assigns_attribute h).append hend
  · next h =>
    exact assigns_nil_of_quiet (quietBefore_attribute (by simpa using h))
      (shut_of_stops rfl _)

end FormCompiler.Extraction
