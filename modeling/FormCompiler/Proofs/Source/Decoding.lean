import FormCompiler.Proofs.Compiled.Alike
import FormCompiler.Proofs.Source.Written

/-!
# Generated source can be read back

Every written piece can be told from any other, whatever follows the two: from `a ++ x = b ++ y`
it follows that the pieces are written from the same texts, and that `x = y`.  Literals end
themselves; identifiers and numbers end at the first character of another class.
-/

namespace FormCompiler.Source

/-! ## Where a piece ends -/

/-- Texts of a class are told apart when another class goes on behind them. -/
theorem append_inj_of_holds {holds : Char → Bool} {a b x y : List Char}
    (ha : ∀ c ∈ a, holds c = true) (hb : ∀ c ∈ b, holds c = true) (hx : Apart holds x)
    (hy : Apart holds y) (h : a ++ x = b ++ y) : a = b ∧ x = y := by
  have hsame : a = b := by
    rw [← takeWhile_append_of_apart ha hx, h, takeWhile_append_of_apart hb hy]
  rw [hsame] at h
  exact ⟨hsame, List.append_cancel_left h⟩

/-- Two texts differ at a place that both have. -/
def clash : List Char → List Char → Bool
  | c :: a, d :: b => c ≠ d || clash a b
  | _, _ => false

theorem not_append_eq_of_clash {a b x y : List Char} (hclash : clash a b = true) :
    a ++ x ≠ b ++ y := by
  induction a generalizing b with
  | nil => simp [clash] at hclash
  | cons c a ih =>
      cases b with
      | nil => simp [clash] at hclash
      | cons d b =>
          intro h
          simp only [List.cons_append, List.cons.injEq] at h
          simp only [clash, Bool.or_eq_true, decide_eq_true_eq] at hclash
          rcases hclash with hne | hclash
          · exact hne h.1
          · exact ih hclash h.2

/-- Fixed texts that clash begin no equal texts. -/
theorem false_of_clash {a b x y : List Char}
    (h : (String.ofList a).toList ++ x = (String.ofList b).toList ++ y)
    (hclash : clash a b = true) : False := by
  rw [String.toList_ofList, String.toList_ofList] at h
  exact not_append_eq_of_clash hclash h

theorem append_ne_of_clash {a b : List Char} (x y : String) (hclash : clash a b = true) :
    String.ofList a ++ x ≠ String.ofList b ++ y := by
  intro h
  have hchars := congrArg String.toList h
  rw [String.toList_append, String.toList_append] at hchars
  exact false_of_clash hchars hclash

/-! ## Literals -/

theorem digitChar_inj : ∀ a < 16, ∀ b < 16, Nat.digitChar a = Nat.digitChar b → a = b := by
  decide

theorem fourDigits_inj {m n : Nat} (hm : m < 65536) (hn : n < 65536)
    (h : fourDigits m = fourDigits n) : m = n := by
  simp only [fourDigits, List.cons.injEq] at h
  obtain ⟨hfirst, hsecond, hthird, hfourth, -⟩ := h
  have h1 := digitChar_inj _ (by omega) _ (by omega) hfirst
  have h2 := digitChar_inj _ (by omega) _ (by omega) hsecond
  have h3 := digitChar_inj _ (by omega) _ (by omega) hthird
  have h4 := digitChar_inj _ (by omega) _ (by omega) hfourth
  omega

theorem marks_inj {c d mark : Char} (hc : (c, mark) ∈ marks) (hd : (d, mark) ∈ marks) : c = d := by
  simp only [marks, List.mem_cons, Prod.mk.injEq, List.not_mem_nil, or_false] at hc hd
  rcases hc with ⟨rfl, rfl⟩ | ⟨rfl, rfl⟩ | ⟨rfl, rfl⟩ | ⟨rfl, rfl⟩ | ⟨rfl, rfl⟩ | ⟨rfl, rfl⟩ <;>
    rcases hd with ⟨rfl, h⟩ | ⟨rfl, h⟩ | ⟨rfl, h⟩ | ⟨rfl, h⟩ | ⟨rfl, h⟩ | ⟨rfl, h⟩ <;>
    first | rfl | cases h

theorem ne_code_of_mem_marks {c mark : Char} (h : (c, mark) ∈ marks) : mark ≠ 'u' := by
  have hmarks : marks.all (fun pair => pair.2 ≠ 'u') = true := rfl
  simpa using List.all_eq_true.mp hmarks _ h

/-- The way in which a literal writes a character tells which one it is. -/
theorem WrittenAs.append_inj {c d : Char} {a b x y : List Char} (ha : WrittenAs c a)
    (hb : WrittenAs d b) (h : a ++ x = b ++ y) : c = d ∧ x = y := by
  cases ha with
  | bare hc =>
      cases hb with
      | bare hd => simpa using h
      | marked hd =>
          simp only [List.cons_append, List.cons.injEq] at h
          exact absurd h.1 (ne_of_holds hc rfl)
      | coded hd =>
          simp only [List.cons_append, List.cons.injEq] at h
          exact absurd h.1 (ne_of_holds hc rfl)
  | marked hc =>
      cases hb with
      | bare hd =>
          simp only [List.cons_append, List.cons.injEq] at h
          exact absurd h.1.symm (ne_of_holds hd rfl)
      | marked hd =>
          simp only [List.cons_append, List.cons.injEq, List.nil_append, true_and] at h
          obtain ⟨rfl, hrest⟩ := h
          exact ⟨marks_inj hc hd, hrest⟩
      | coded hd =>
          simp only [List.cons_append, List.cons.injEq, true_and] at h
          exact absurd h.1 (ne_code_of_mem_marks hc)
  | coded hc =>
      cases hb with
      | bare hd =>
          simp only [List.cons_append, List.cons.injEq] at h
          exact absurd h.1.symm (ne_of_holds hd rfl)
      | marked hd =>
          simp only [List.cons_append, List.cons.injEq, true_and] at h
          exact absurd h.1.symm (ne_code_of_mem_marks hd)
      | coded hd =>
          simp only [List.cons_append, List.cons.injEq, true_and] at h
          obtain ⟨hdigits, hrest⟩ := List.append_inj h rfl
          exact ⟨Char.toNat_inj.mp (fourDigits_inj hc hd hdigits), hrest⟩

/-- No written character begins with the closing quote. -/
theorem WrittenAs.ne_quote_cons {c : Char} {a x y : List Char} (ha : WrittenAs c a) :
    a ++ x ≠ '"' :: y := by
  intro h
  cases ha with
  | bare hc =>
      simp only [List.cons_append, List.cons.injEq] at h
      exact ne_of_holds hc (show standsBare '"' = false from rfl) h.1
  | marked _ => simp at h
  | coded _ => simp at h

theorem flatMap_literalChar_append_inj {a b x y : List Char}
    (h : a.flatMap literalChar ++ '"' :: x = b.flatMap literalChar ++ '"' :: y) :
    a = b ∧ x = y := by
  induction a generalizing b with
  | nil =>
      cases b with
      | nil => simpa using h
      | cons d b =>
          rw [List.flatMap_cons, List.append_assoc] at h
          exact absurd h.symm (writtenAs_literalChar d).ne_quote_cons
  | cons c a ih =>
      rw [List.flatMap_cons, List.append_assoc] at h
      cases b with
      | nil => exact absurd h (writtenAs_literalChar c).ne_quote_cons
      | cons d b =>
          rw [List.flatMap_cons, List.append_assoc] at h
          obtain ⟨rfl, hrest⟩ :=
            (writtenAs_literalChar c).append_inj (writtenAs_literalChar d) h
          obtain ⟨rfl, hend⟩ := ih hrest
          exact ⟨rfl, hend⟩

/-- A literal ends itself. -/
theorem literal_append_inj {a b : String} {x y : List Char}
    (h : (literal a).toList ++ x = (literal b).toList ++ y) : a = b ∧ x = y := by
  rw [toList_literal, toList_literal] at h
  simp only [List.cons_append, List.append_assoc, List.cons.injEq, true_and,
    List.nil_append] at h
  obtain ⟨htext, hrest⟩ := flatMap_literalChar_append_inj h
  exact ⟨String.toList_inj.mp htext, hrest⟩

theorem braced_append_inj {a b : String} {x y : List Char}
    (h : (braced a).toList ++ x = (braced b).toList ++ y) : a = b ∧ x = y := by
  simp only [braced, String.toList_append, List.append_assoc] at h
  obtain ⟨htext, hrest⟩ := literal_append_inj (List.append_cancel_left h)
  exact ⟨htext, List.append_cancel_left hrest⟩

/-! ## Names -/

theorem identifier_append_inj {a b : String} {x y : List Char} (ha : isIdentifier a = true)
    (hb : isIdentifier b = true) (hx : Apart isIdentifierChar x) (hy : Apart isIdentifierChar y)
    (h : a.toList ++ x = b.toList ++ y) : a = b ∧ x = y := by
  obtain ⟨hname, hrest⟩ := append_inj_of_holds (fun _ => isIdentifierChar_of_mem ha)
    (fun _ => isIdentifierChar_of_mem hb) hx hy h
  exact ⟨String.toList_inj.mp hname, hrest⟩

/-- No identifier begins like a literal. -/
theorem identifier_append_ne_literal {a b : String} {x y : List Char}
    (ha : isIdentifier a = true) : a.toList ++ x ≠ (literal b).toList ++ y := by
  intro h
  obtain ⟨first, rest, hchars, hfirst⟩ := exists_cons_of_isIdentifier ha
  rw [hchars, toList_literal] at h
  simp only [List.cons_append, List.cons.injEq] at h
  exact ne_of_holds hfirst (show beginsIdentifier '"' = false from rfl) h.1

theorem objectKey_append_inj {a b : String} {x y : List Char} (hx : Apart isIdentifierChar x)
    (hy : Apart isIdentifierChar y) (h : (objectKey a).toList ++ x = (objectKey b).toList ++ y) :
    a = b ∧ x = y := by
  unfold objectKey at h
  split at h
  · next ha =>
    split at h
    · next hb => exact identifier_append_inj ha hb hx hy h
    · exact absurd h (identifier_append_ne_literal ha)
  · split at h
    · next hb => exact absurd h.symm (identifier_append_ne_literal hb)
    · exact literal_append_inj h

theorem memberAccess_append_inj {object a b : String} {x y : List Char}
    (hx : Apart isIdentifierChar x) (hy : Apart isIdentifierChar y)
    (h : (memberAccess object a).toList ++ x = (memberAccess object b).toList ++ y) :
    a = b ∧ x = y := by
  unfold memberAccess at h
  split at h
  · next ha =>
    split at h
    · next hb =>
      simp only [String.toList_append, List.append_assoc] at h
      exact identifier_append_inj ha hb hx hy
        (List.append_cancel_left (List.append_cancel_left h))
    · simp only [String.toList_append, List.append_assoc] at h
      exact (false_of_clash (List.append_cancel_left h) rfl).elim
  · split at h
    · simp only [String.toList_append, List.append_assoc] at h
      exact (false_of_clash (List.append_cancel_left h) rfl).elim
    · simp only [String.toList_append, List.append_assoc] at h
      obtain ⟨hname, hrest⟩ :=
        literal_append_inj (List.append_cancel_left (List.append_cancel_left h))
      exact ⟨hname, List.append_cancel_left hrest⟩

/-! ## Markup -/

/-- An attribute ends itself. -/
theorem attributeText_append_inj {name a b : String} {x y : List Char}
    (h : (attributeText name a).toList ++ x = (attributeText name b).toList ++ y) :
    a = b ∧ x = y := by
  unfold attributeText at h
  split at h
  · next ha =>
    split at h
    · next hb =>
      simp only [String.toList_append, List.append_assoc] at h
      have hquote : ∀ rest : List Char,
          Apart isPlainInAttribute ("\"".toList ++ rest) := fun rest =>
        apart_ofList rfl rest
      obtain ⟨htext, hrest⟩ := append_inj_of_holds (fun _ => isPlainInAttribute_of_mem ha)
        (fun _ => isPlainInAttribute_of_mem hb) (hquote x) (hquote y)
        (List.append_cancel_left (List.append_cancel_left h))
      exact ⟨String.toList_inj.mp htext, List.append_cancel_left hrest⟩
    · exact absurd h (by simp [braced])
  · split at h
    · exact absurd h (by simp [braced])
    · simp only [String.toList_append, List.append_assoc] at h
      exact braced_append_inj (List.append_cancel_left (List.append_cancel_left h))

/-- No text between tags begins with a brace unless it stands in braces. -/
theorem plainText_ne_braced {a b : String} (ha : isPlainText a = true) : a ≠ braced b := by
  intro h
  have hmem : '\x7b' ∈ a.toList := by
    rw [h]
    simp [braced]
  exact ne_of_holds (isPlainBetweenTags_of_mem ha hmem)
    (show isPlainBetweenTags '\x7b' = false from by decide) rfl

theorem childText_inj {a b : String} (h : childText a = childText b) : a = b := by
  unfold childText at h
  split at h
  · next ha =>
    split at h
    · exact h
    · exact absurd h (plainText_ne_braced ha)
  · split at h
    · next hb => exact absurd h.symm (plainText_ne_braced hb)
    · have hchars : (braced a).toList ++ [] = (braced b).toList ++ [] := by rw [h]
      exact (braced_append_inj hchars).1

/-! ## Expressions -/

theorem number_append_inj {a b : Binary64} {x y : List Char} (hx : Apart isNumberChar x)
    (hy : Apart isNumberChar y) (h : a.sourceText.toList ++ x = b.sourceText.toList ++ y) :
    a.sourceText = b.sourceText ∧ x = y := by
  obtain ⟨htext, hrest⟩ := append_inj_of_holds (fun _ => isNumberChar_of_mem_sourceText a)
    (fun _ => isNumberChar_of_mem_sourceText b) hx hy h
  exact ⟨String.toList_inj.mp htext, hrest⟩

/-- A number does not begin as a literal does. -/
theorem number_append_ne_quote {a : Binary64} {x y : List Char} :
    a.sourceText.toList ++ x ≠ '"' :: y := by
  intro h
  obtain ⟨c, rest, hchars, -⟩ := exists_cons_sourceText a
  have hc : isNumberChar c = true := isNumberChar_of_mem_sourceText a (by simp [hchars])
  rw [hchars] at h
  simp only [List.cons_append, List.cons.injEq] at h
  exact ne_of_holds hc (show isNumberChar '"' = false from rfl) h.1

/-- A number does not begin as the call that reads numbers. -/
theorem number_append_ne_call {a : Binary64} {x y : List Char} :
    a.sourceText.toList ++ x ≠ 'N' :: 'u' :: y := by
  intro h
  obtain ⟨c, rest, hchars, hname⟩ := exists_cons_sourceText a
  rw [hchars] at h
  simp only [List.cons_append, List.cons.injEq] at h
  rw [hname h.1] at h
  simp at h

theorem toList_coerced (value : String) :
    (Operand.coerced value).sourceText.toList =
      'N' :: 'u' :: 'm' :: 'b' :: 'e' :: 'r' :: '(' :: ((literal value).toList ++ [')']) := by
  have hcall : "Number(".toList = ['N', 'u', 'm', 'b', 'e', 'r', '('] := String.toList_ofList
  have hend : ")".toList = [')'] := String.toList_ofList
  simp only [Operand.sourceText, String.toList_append, hcall, hend]
  simp

theorem toList_text (value : String) :
    (Operand.text value).sourceText.toList = '"' :: (literalBody value ++ ['"']) :=
  toList_literal_eq_body value

theorem operand_append_inj {a b : Operand} {x y : List Char} (hx : Closes x) (hy : Closes y)
    (h : a.sourceText.toList ++ x = b.sourceText.toList ++ y) : a.Alike b ∧ x = y := by
  cases a with
  | text v =>
      cases b with
      | text w =>
          obtain ⟨rfl, hrest⟩ := literal_append_inj h
          exact ⟨.text v, hrest⟩
      | number w =>
          rw [toList_text] at h
          exact absurd h.symm number_append_ne_quote
      | coerced w =>
          rw [toList_text, toList_coerced] at h
          simp at h
  | number v =>
      cases b with
      | text w =>
          rw [toList_text] at h
          exact absurd h number_append_ne_quote
      | number w =>
          obtain ⟨htext, hrest⟩ := number_append_inj (hx.apart rfl) (hy.apart rfl) h
          exact ⟨.number htext, hrest⟩
      | coerced w =>
          rw [toList_coerced] at h
          exact absurd h number_append_ne_call
  | coerced v =>
      cases b with
      | text w =>
          rw [toList_text, toList_coerced] at h
          simp at h
      | number w =>
          rw [toList_coerced] at h
          exact absurd h.symm number_append_ne_call
      | coerced w =>
          rw [toList_coerced, toList_coerced] at h
          simp only [List.cons_append, List.append_assoc, List.cons.injEq, true_and] at h
          obtain ⟨rfl, hrest⟩ := literal_append_inj h
          exact ⟨.coerced v, by simpa using hrest⟩

/-- The mark between a member and what it is compared with. -/
def comparisonMark : ComparisonOp → String
  | .equal => " === "
  | .notEqual => " !== "
  | .greater => " > "
  | .less => " < "
  | .contains => ""

theorem sourceText_predicate {p : Predicate} (h : p.operator ≠ .contains) :
    p.sourceText = memberAccess "values" p.field ++ comparisonMark p.operator ++
      p.operand.sourceText := by
  unfold Predicate.sourceText
  cases hop : p.operator with
  | contains => exact absurd hop h
  | equal | notEqual | greater | less => rfl

theorem sourceText_contains {p : Predicate} (h : p.operator = .contains) :
    p.sourceText = "String(" ++ memberAccess "values" p.field ++ " ?? \"\").includes(" ++
      p.operand.sourceText ++ ")" := by
  unfold Predicate.sourceText
  rw [h]

theorem comparisonMark_append_inj {a b : ComparisonOp} {x y : List Char} (ha : a ≠ .contains)
    (hb : b ≠ .contains)
    (h : (comparisonMark a).toList ++ x = (comparisonMark b).toList ++ y) : a = b ∧ x = y := by
  cases a <;> cases b <;>
    first
    | contradiction
    | exact (false_of_clash h rfl).elim
    | exact ⟨rfl, List.append_cancel_left h⟩

/-- The comparisons differ from the search for a part in their first character. -/
theorem exists_cons_memberAccess (name : String) :
    ∃ rest, (memberAccess "values" name).toList = 'v' :: rest := by
  have hvalues : "values".toList = 'v' :: ['a', 'l', 'u', 'e', 's'] := String.toList_ofList
  unfold memberAccess
  split
  · simp only [String.toList_append, hvalues, List.cons_append]
    exact ⟨_, rfl⟩
  · simp only [String.toList_append, hvalues, List.cons_append]
    exact ⟨_, rfl⟩

theorem comparison_ne_contains {p q : Predicate} {x y : List Char} (hp : p.operator ≠ .contains)
    (hq : q.operator = .contains) : p.sourceText.toList ++ x ≠ q.sourceText.toList ++ y := by
  intro h
  obtain ⟨rest, hmember⟩ := exists_cons_memberAccess p.field
  have hcall : "String(".toList = 'S' :: ['t', 'r', 'i', 'n', 'g', '('] := String.toList_ofList
  rw [sourceText_predicate hp, sourceText_contains hq] at h
  simp only [String.toList_append, hmember, hcall, List.cons_append, List.cons.injEq] at h
  exact absurd h.1 (by decide)

theorem predicate_append_inj {p q : Predicate} {x y : List Char} (hx : Closes x) (hy : Closes y)
    (h : p.sourceText.toList ++ x = q.sourceText.toList ++ y) : p.Alike q ∧ x = y := by
  by_cases hp : p.operator = .contains
  · by_cases hq : q.operator = .contains
    · rw [sourceText_contains hp, sourceText_contains hq] at h
      simp only [String.toList_append, List.append_assoc] at h
      obtain ⟨hfield, hmember⟩ := memberAccess_append_inj (apart_ofList rfl _)
        (apart_ofList rfl _) (List.append_cancel_left h)
      obtain ⟨hoperand, hrest⟩ := operand_append_inj (closes_ofList _) (closes_ofList _)
        (List.append_cancel_left hmember)
      exact ⟨⟨hfield, hp.trans hq.symm, hoperand⟩, List.append_cancel_left hrest⟩
    · exact absurd h.symm (comparison_ne_contains hq hp)
  · by_cases hq : q.operator = .contains
    · exact absurd h (comparison_ne_contains hp hq)
    · rw [sourceText_predicate hp, sourceText_predicate hq] at h
      simp only [String.toList_append, List.append_assoc] at h
      have hmark : ∀ (op : ComparisonOp) (rest : List Char), op ≠ .contains →
          Apart isIdentifierChar ((comparisonMark op).toList ++ rest) := by
        intro op rest hop
        cases op with
        | contains => exact absurd rfl hop
        | equal | notEqual | greater | less => exact apart_ofList rfl rest
      obtain ⟨hfield, hmember⟩ := memberAccess_append_inj (hmark _ _ hp) (hmark _ _ hq) h
      obtain ⟨hoperator, hmarks⟩ := comparisonMark_append_inj hp hq hmember
      obtain ⟨hoperand, hrest⟩ := operand_append_inj hx hy hmarks
      exact ⟨⟨hfield, hoperator, hoperand⟩, hrest⟩

theorem logic_append_inj {a b : LogicOp} {x y : List Char}
    (h : a.sourceText.toList ++ x = b.sourceText.toList ++ y) : a = b ∧ x = y := by
  cases a <;> cases b <;>
    first
    | exact (false_of_clash h rfl).elim
    | exact ⟨rfl, List.append_cancel_left h⟩

/-- A comparison does not begin with a parenthesis. -/
theorem predicate_append_ne_combine {p : Predicate} {left right : BoolExpr} {logic : LogicOp}
    {x y : List Char} :
    p.sourceText.toList ++ x ≠ (BoolExpr.combine left logic right).sourceText.toList ++ y := by
  intro h
  have hopen : "(".toList = ['('] := String.toList_ofList
  by_cases hp : p.operator = .contains
  · have hcall : "String(".toList = 'S' :: ['t', 'r', 'i', 'n', 'g', '('] := String.toList_ofList
    rw [sourceText_contains hp] at h
    simp only [BoolExpr.sourceText, String.toList_append, hcall, hopen, List.cons_append,
      List.cons.injEq] at h
    exact absurd h.1 (by decide)
  · obtain ⟨rest, hmember⟩ := exists_cons_memberAccess p.field
    rw [sourceText_predicate hp] at h
    simp only [BoolExpr.sourceText, String.toList_append, hmember, hopen, List.cons_append,
      List.cons.injEq] at h
    exact absurd h.1 (by decide)

/-- An expression ends at its end or at the parenthesis that closes it: the parentheses around
both sides tell the tree. -/
theorem expression_append_inj {a b : BoolExpr} {x y : List Char} (hx : Closes x) (hy : Closes y)
    (h : a.sourceText.toList ++ x = b.sourceText.toList ++ y) : a.Alike b ∧ x = y := by
  induction a generalizing b x y with
  | predicate p =>
      cases b with
      | predicate q =>
          obtain ⟨hpredicate, hrest⟩ := predicate_append_inj hx hy h
          exact ⟨.predicate hpredicate, hrest⟩
      | combine left logic right => exact absurd h predicate_append_ne_combine
  | combine left logic right hleft hright =>
      cases b with
      | predicate q => exact absurd h.symm predicate_append_ne_combine
      | combine left' logic' right' =>
          simp only [BoolExpr.sourceText, String.toList_append, List.append_assoc] at h
          obtain ⟨hl, hafter⟩ := hleft (closes_ofList _) (closes_ofList _)
            (List.append_cancel_left h)
          obtain ⟨rfl, hlogic⟩ := logic_append_inj (List.append_cancel_left hafter)
          obtain ⟨hr, hrest⟩ := hright (closes_ofList _) (closes_ofList _)
            (List.append_cancel_left hlogic)
          exact ⟨.combine logic hl hr, List.append_cancel_left hrest⟩

theorem expression_inj {a b : BoolExpr} (h : a.sourceText = b.sourceText) : a.Alike b := by
  have hchars : a.sourceText.toList ++ [] = b.sourceText.toList ++ [] := by rw [h]
  exact (expression_append_inj (Or.inl rfl) (Or.inl rfl) hchars).1

/-! ## Chains -/

theorem clause_append_inj {a b : RuleClause} {x y : List Char}
    (h : a.sourceText.toList ++ x = b.sourceText.toList ++ y) : a.Alike b ∧ x = y := by
  unfold RuleClause.sourceText at h
  cases a with
  | required message =>
      cases b with
      | required message' =>
          simp only [String.toList_append, List.append_assoc] at h
          obtain ⟨rfl, hrest⟩ := literal_append_inj (List.append_cancel_left h)
          exact ⟨.required message, List.append_cancel_left hrest⟩
      | min | max | pattern | crossField =>
          simp only [String.toList_append, List.append_assoc] at h
          exact (false_of_clash h rfl).elim
  | min limit message =>
      cases b with
      | min limit' message' =>
          simp only [String.toList_append, List.append_assoc] at h
          obtain ⟨hlimit, hafter⟩ := number_append_inj (apart_ofList rfl _) (apart_ofList rfl _)
            (List.append_cancel_left h)
          obtain ⟨rfl, hrest⟩ := literal_append_inj (List.append_cancel_left hafter)
          exact ⟨.min hlimit message, List.append_cancel_left hrest⟩
      | required | max | pattern | crossField =>
          simp only [String.toList_append, List.append_assoc] at h
          exact (false_of_clash h rfl).elim
  | max limit message =>
      cases b with
      | max limit' message' =>
          simp only [String.toList_append, List.append_assoc] at h
          obtain ⟨hlimit, hafter⟩ := number_append_inj (apart_ofList rfl _) (apart_ofList rfl _)
            (List.append_cancel_left h)
          obtain ⟨rfl, hrest⟩ := literal_append_inj (List.append_cancel_left hafter)
          exact ⟨.max hlimit message, List.append_cancel_left hrest⟩
      | required | min | pattern | crossField =>
          simp only [String.toList_append, List.append_assoc] at h
          exact (false_of_clash h rfl).elim
  | pattern source message =>
      cases b with
      | pattern source' message' =>
          simp only [String.toList_append, List.append_assoc] at h
          obtain ⟨rfl, hafter⟩ := literal_append_inj (List.append_cancel_left h)
          obtain ⟨rfl, hrest⟩ := literal_append_inj (List.append_cancel_left hafter)
          exact ⟨.pattern source message, List.append_cancel_left hrest⟩
      | required | min | max | crossField =>
          simp only [String.toList_append, List.append_assoc] at h
          exact (false_of_clash h rfl).elim
  | crossField other message =>
      cases b with
      | crossField other' message' =>
          simp only [String.toList_append, List.append_assoc] at h
          obtain ⟨rfl, hafter⟩ := literal_append_inj (List.append_cancel_left h)
          obtain ⟨rfl, hrest⟩ := memberAccess_append_inj (apart_ofList rfl _) (apart_ofList rfl _)
            (List.append_cancel_left hafter)
          exact ⟨.crossField other message, List.append_cancel_left hrest⟩
      | required | min | max | pattern =>
          simp only [String.toList_append, List.append_assoc] at h
          exact (false_of_clash h rfl).elim

/-- Every clause begins with the point of its call. -/
theorem exists_cons_clause (clause : RuleClause) :
    ∃ rest, clause.sourceText.toList = '.' :: rest := by
  have hcalls : ∀ {rest : List Char} (more : List Char),
      ∃ others, (String.ofList ('.' :: rest)).toList ++ more = '.' :: others := by
    intro rest more
    rw [String.toList_ofList]
    exact ⟨_, rfl⟩
  unfold RuleClause.sourceText
  cases clause <;> simp only [String.toList_append, List.append_assoc] <;> exact hcalls _

theorem listText_inj {clauses clauses' : List RuleClause}
    (h : (RuleClause.listText clauses).toList = (RuleClause.listText clauses').toList) :
    List.Forall₂ RuleClause.Alike clauses clauses' := by
  have hnil : (RuleClause.listText []).toList = [] := rfl
  induction clauses generalizing clauses' with
  | nil =>
      cases clauses' with
      | nil => exact .nil
      | cons clause' rest' =>
          obtain ⟨others, hclause⟩ := exists_cons_clause clause'
          rw [hnil, RuleClause.listText, String.toList_append, hclause] at h
          cases h
  | cons clause rest ih =>
      cases clauses' with
      | nil =>
          obtain ⟨others, hclause⟩ := exists_cons_clause clause
          rw [hnil, RuleClause.listText, String.toList_append, hclause] at h
          cases h
      | cons clause' rest' =>
          simp only [RuleClause.listText, String.toList_append] at h
          obtain ⟨hclause, hrest⟩ := clause_append_inj h
          exact .cons hclause (ih hrest)

theorem chain_inj {chain chain' : ValidationChain} (h : chain.sourceText = chain'.sourceText) :
    chain.Alike chain' := by
  have hchars := congrArg String.toList h
  simp only [ValidationChain.sourceText, String.toList_append] at hchars
  have hbase : ∀ {a b : BaseRule} {x y : List Char},
      a.sourceText.toList ++ x = b.sourceText.toList ++ y → a = b ∧ x = y := by
    intro a b x y hbases
    cases a <;> cases b <;>
      first
      | exact (false_of_clash hbases rfl).elim
      | exact ⟨rfl, List.append_cancel_left hbases⟩
  obtain ⟨hsame, hclauses⟩ := hbase hchars
  exact ⟨hsame, listText_inj hclauses⟩

end FormCompiler.Source
