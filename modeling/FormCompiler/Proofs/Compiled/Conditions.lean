import FormCompiler.Proofs.Compiled.References
import FormCompiler.Proofs.Values.NumericText
import Mathlib.Data.List.Infix

/-!
# Compiled conditions

A list of conditions means the fold of their truths from left to right, each joined to the result so
far by its own operator.  The principal result is that the compiled visibility computes this fold.
The numbers that compilation folds into the expression are those into which the texts of the
conditions would be turned at run time.
-/

namespace FormCompiler

/-! ## The meaning of conditions -/

namespace Condition

/-- The number of a value; the number of an absent value is undefined. -/
def numberOf (value? : Option FormValue) : Binary64 :=
  (value?.map FormValue.toNumber).getD .undefined

/-- The text of a value; that of an absent value and of null is empty. -/
def textOf : Option FormValue → String
  | some (.text value) => value
  | some (.number x) => Coercion.numberToText x
  | some (.boolean value) => if value then "true" else "false"
  | some .null | none => ""

/-- Whether a condition is true of some values, as it is written. -/
def truth (values : FormValues) (c : Condition) : Bool :=
  let value? := values.get? c.field
  match c.operator with
  | .equal => value? = some (.text c.value)
  | .notEqual => value? ≠ some (.text c.value)
  | .greater => (Coercion.textToNumber c.value).less (numberOf value?)
  | .less => (numberOf value?).less (Coercion.textToNumber c.value)
  | .contains => c.value.toList <:+: (textOf value?).toList

/-- The truth of the conditions from the left to the right, after a result so far. -/
def truthAfter (values : FormValues) (result : Bool) (conditions : List Condition) : Bool :=
  conditions.foldl (fun result c => c.logic.apply result (c.truth values)) result

end Condition

/-! ## Folded operands -/

/-- A decimal numeral is turned into the same number at run time: it is neither empty nor an
infinity, and no mark of a radix stands in it. -/
theorem Coercion.textToNumber_of_decimalNumber? {value : String} {x : Binary64}
    (h : decimalNumber? value = some x) : textToNumber value = x := by
  obtain ⟨d, hd, -, -⟩ := decimalNumber?_eq_some_iff.mp h
  have hagain : decimalNumber? (Text.trimmed value) = some x := by
    rw [decimalNumber?_eq_some_iff] at h ⊢
    rw [Text.toList_trimmed, Text.trim_eq_trimBy, Text.trim_eq_trimBy, Text.trimBy_trimBy]
    exact h
  rw [← Text.toList_trimmed] at hd
  have hne : Text.trimmed value ≠ "" := by
    intro hempty
    rw [hempty] at hd
    cases Numeral.read?_eq_some_iff.mpr hd
  have hinfinite : ¬((Text.trimmed value = "Infinity" || Text.trimmed value = "+Infinity") = true ∨
      Text.trimmed value = "-Infinity") := by
    rw [← sign_infinity_iff]
    rintro ⟨_, sign, -, heq⟩
    rw [heq] at hd
    exact absurd (hd.chars 'I' (List.mem_append_right sign (by decide))) (by decide)
  unfold textToNumber
  dsimp only
  rw [if_neg hne, if_neg fun hplain => hinfinite (Or.inl hplain),
    if_neg fun hminus => hinfinite (Or.inr hminus), radix?_of_decimalLiteral hd]
  dsimp only
  rw [hagain, Option.getD_some]

/-- Whether or not it was folded, the operand of an order has the number of its text. -/
theorem Operand.toNumber_compile {operator : ComparisonOp}
    (h : operator = .greater ∨ operator = .less) (value : String) :
    (compile operator value).toNumber = Coercion.textToNumber value := by
  have hfolded : compile operator value =
      ((Coercion.decimalNumber? value).map number).getD (coerced value) := by
    rcases h with rfl | rfl <;> cases hnumber : Coercion.decimalNumber? value <;>
      simp [compile, hnumber]
  rw [hfolded]
  cases hnumber : Coercion.decimalNumber? value with
  | none => rfl
  | some x => exact (Coercion.textToNumber_of_decimalNumber? hnumber).symm

/-! ## Conditions and their comparisons -/

namespace Predicate

theorem sameText_text (value? : Option FormValue) (text : String) :
    sameText value? (.text text) = decide (value? = some (.text text)) := by
  cases value? with
  | none => rfl
  | some value =>
      cases value with
      | text value =>
          apply decide_eq_decide.mpr
          rw [Option.some.injEq, FormValue.text.injEq]
          rfl
      | number x => rfl
      | boolean value => rfl
      | null => rfl

theorem searchedText_eq (value? : Option FormValue) :
    searchedText value? = Condition.textOf value? := by
  cases value? with
  | none => rfl
  | some value =>
      cases value with
      | text value => rfl
      | number x => rfl
      | boolean value => cases value <;> rfl
      | null => rfl

end Predicate

theorem Text.occurs_eq_isInfix (part text : List Char) :
    Text.occurs part text = decide (part <:+: text) := by
  rw [Bool.eq_iff_iff, decide_eq_true_iff, Text.occurs_iff]
  constructor
  · rintro ⟨before, rest, rfl⟩
    exact ⟨before, rest, rfl⟩
  · rintro ⟨before, rest, rfl⟩
    exact ⟨before, rest, rfl⟩

/-- The compiled comparison holds when the condition is true. -/
theorem Condition.holds_predicate (values : FormValues) (c : Condition) :
    c.predicate.holds values = c.truth values := by
  obtain ⟨logic, field, operator, value⟩ := c
  cases operator with
  | equal => exact Predicate.sameText_text (values.get? field) value
  | notEqual =>
      change (!Predicate.sameText (values.get? field) (.text value)) = _
      rw [Predicate.sameText_text]
      exact (decide_not).symm
  | greater =>
      change (Operand.compile .greater value).toNumber.less _ = _
      rw [Operand.toNumber_compile (Or.inl rfl)]
      rfl
  | less =>
      change Binary64.less _ (Operand.compile .less value).toNumber = _
      rw [Operand.toNumber_compile (Or.inr rfl)]
      rfl
  | contains =>
      change Text.occurs value.toList (Predicate.searchedText (values.get? field)).toList = _
      rw [Predicate.searchedText_eq, Text.occurs_eq_isInfix]
      rfl

/-- The induction is on the conditions that are still to be joined. -/
theorem BoolExpr.holds_extend (values : FormValues) (expr : BoolExpr) (rest : List Condition) :
    (expr.extend rest).holds values = Condition.truthAfter values (expr.holds values) rest := by
  induction rest generalizing expr with
  | nil => rfl
  | cons c rest ih =>
      change ((combine expr c.logic (.predicate c.predicate)).extend rest).holds values = _
      rw [ih, holds, holds, Condition.holds_predicate]
      rfl

/-- A field is visible exactly when the conditions hold from the left to the right: the truth of the
first one, whose operator is ignored, is joined with those of the others, each by its own operator.
The fields that are read are those of the conditions, in order. -/
theorem Visibility.isVisible_compile (first : Condition) (rest : List Condition)
    (values : FormValues) :
    (compile (first :: rest)).isVisible values =
        Condition.truthAfter values (first.truth values) rest ∧
      (compile (first :: rest)).referencedFields = (first :: rest).map (·.field) := by
  constructor
  · change ((BoolExpr.predicate first.predicate).extend rest).holds values = _
    rw [BoolExpr.holds_extend, BoolExpr.holds, Condition.holds_predicate]
  · exact referencedFields_compile (first :: rest)

end FormCompiler
