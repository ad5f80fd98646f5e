import FormCompiler.Proofs.Compiled.References
import FormCompiler.Proofs.Script.Reading
import FormCompiler.Proofs.Script.Semantics

/-!
# Visibility in a script

The principal result is that the text of a visibility expression is read as the tree that was
compiled, and that its value in the script is whether the field is visible.  The script may run on
any engine that turns texts and numbers into one another as conditions do and that reads the
numerals of the conditions back.
-/

namespace FormCompiler.Script

open Source

variable {engine : Engine}

/-! ## Engines -/

/-- The engine turns texts into numbers and numbers into texts as conditions do. -/
structure Engine.Converts (engine : Engine) : Prop where
  numberOfText : ∀ text, engine.numberOfText (unitsOf text) = Coercion.textToNumber text
  textOfNumber : ∀ x, engine.textOfNumber x = unitsOf (Coercion.numberToText x)

/-- The engine reads a printed number back. -/
def Engine.ReadsBack (engine : Engine) (x : Binary64) : Prop :=
  engine.numeral? x.sourceText.toList = some x

/-- The engine reads the numeral of a condition back, if there is one. -/
def Engine.Reads (engine : Engine) (c : Condition) : Prop :=
  ∀ x, c.predicate.operand = .number x → engine.ReadsBack x.absolute

/-- An engine that decodes the units of a text and reads a numeral as conditions do. -/
def Engine.standard : Engine where
  numberOfText units := Coercion.textToNumber (String.ofList (charsOf units))
  textOfNumber x := unitsOf (Coercion.numberToText x)
  numeral? digits := (Numeral.read? digits).map Binary64.ofDecimal

theorem Engine.standard_converts : Engine.standard.Converts := by
  constructor
  · intro text
    simp only [Engine.standard, unitsOf, charsOf_flatMap_units, String.ofList_toList]
  · exact fun _ => rfl

/-! ## Operands -/

theorem isFinite_of_decimalNumber? {value : String} {x : Binary64}
    (h : Coercion.decimalNumber? value = some x) : x.isFinite = true := by
  unfold Coercion.decimalNumber? at h
  simp only at h
  split at h
  · cases h
  · exact (Option.filter_eq_some_iff.mp h).2

/-- The operand of an order is the number of a decimal numeral, or else the text to be coerced. -/
theorem compile_order {operator : ComparisonOp} (h : operator = .greater ∨ operator = .less)
    (value : String) :
    Operand.compile operator value =
      match Coercion.decimalNumber? value with
      | some x => .number x
      | none => .coerced value := by
  rcases h with rfl | rfl <;> rfl

/-- Only the operand of an order is a number. -/
theorem order_of_compile {operator : ComparisonOp} {value : String} {x : Binary64}
    (h : Operand.compile operator value = .number x) :
    operator = .greater ∨ operator = .less := by
  cases operator with
  | greater => exact Or.inl rfl
  | less => exact Or.inr rfl
  | equal => cases h
  | notEqual => cases h
  | contains => cases h

theorem finiteOperand_predicate (c : Condition) : FiniteOperand c.predicate.operand := by
  intro x hx
  have hcompile : Operand.compile c.operator c.value = .number x := hx
  rw [compile_order (order_of_compile hcompile)] at hcompile
  split at hcompile
  · next y hy =>
    cases hcompile
    exact isFinite_of_decimalNumber? hy
  · cases hcompile

/-- The value of a number is read with its sign. -/
theorem eval_number {x : Binary64} (hfinite : x.isFinite = true)
    (hread : engine.ReadsBack x.absolute) (values : FormValues) :
    (Expr.ofOperand (.number x)).eval engine values = some (.number x) := by
  have habsolute : x.absolute.isFinite = true := by
    unfold Binary64.isFinite at hfinite ⊢
    rw [x.magnitude_absolute]
    exact hfinite
  have hdigits : engine.numeral? (unsignedText x) = some x.absolute := by
    rw [← unsignedText_congr x.magnitude_absolute]
    unfold Engine.ReadsBack at hread
    rw [toList_sourceText_of_isFinite habsolute, x.isNegative_absolute] at hread
    exact hread
  rw [Expr.ofOperand]
  cases hsign : x.isNegative with
  | false =>
      rw [Binary64.absolute_of_not_isNegative hsign] at hdigits
      simp [Expr.eval, hdigits]
  | true => simp [Expr.eval, hdigits, Value.number?, Binary64.negated_absolute hsign]

/-- The operand of an order comparison has its number. -/
theorem eval_orderOperand (hengine : engine.Converts) {c : Condition} (hreads : engine.Reads c)
    (horder : c.operator = .greater ∨ c.operator = .less) (values : FormValues) :
    (Expr.ofOperand c.predicate.operand).eval engine values =
      some (.number c.predicate.operand.toNumber) := by
  have hoperand : c.predicate.operand = Operand.compile c.operator c.value := rfl
  rw [compile_order horder] at hoperand
  split at hoperand
  · next x _ =>
    rw [hoperand, eval_number (finiteOperand_predicate c x hoperand) (hreads x hoperand)]
    rfl
  · rw [hoperand, Operand.toNumber, ← hengine.numberOfText]
    rfl

/-! ## Fields -/

theorem number?_ofField (hengine : engine.Converts) (actual : Option FormValue) :
    Value.number? engine (.ofField actual) = some (Predicate.numberOf actual) := by
  cases actual with
  | none => rfl
  | some value =>
      cases value with
      | text value =>
          simp [Value.number?, Value.ofField, Predicate.numberOf, FormValue.toNumber,
            hengine.numberOfText]
      | number x => rfl
      | boolean value => cases value <;> rfl
      | null => rfl

/-- Only a text equals a text. -/
theorem strictlyEquals_ofField (actual : Option FormValue) (text : String) :
    Value.strictlyEquals (.ofField actual) (.text (unitsOf text)) =
      Predicate.sameText actual (.text text) := by
  cases actual with
  | none => rfl
  | some value =>
      cases value with
      | text value =>
          change decide (Value.text (unitsOf value) = .text (unitsOf text)) = decide (value = text)
          apply decide_eq_decide.mpr
          rw [Value.text.injEq, unitsOf_inj]
      | number x => rfl
      | boolean value => rfl
      | null => rfl

theorem eval_shownText (hengine : engine.Converts) (values : FormValues) (field : String) :
    (Expr.shownText field).eval engine values =
      some (.text (unitsOf (Predicate.searchedText (values.get? field)))) := by
  unfold Expr.shownText
  simp only [Expr.eval, eval_valueOf]
  cases values.get? field with
  | none => rfl
  | some value =>
      cases value with
      | text value => rfl
      | number x =>
          change some (Value.text (engine.textOfNumber x)) = _
          rw [hengine.textOfNumber]
          rfl
      | boolean value => cases value <;> rfl
      | null => rfl

theorem less?_number {value : Value} {x : Binary64} (h : Value.number? engine value = some x)
    (y : Binary64) :
    Value.less? engine value (.number y) = some (x.less y) ∧
      Value.less? engine (.number y) value = some (y.less x) := by
  cases value <;> simp_all [Value.less?, Value.number?]

/-! ## Conditions -/

/-- A comparison in a script agrees with the condition. -/
theorem eval_predicate (hengine : engine.Converts) {c : Condition} (hreads : engine.Reads c)
    (values : FormValues) :
    (Expr.ofPredicate c.predicate).eval engine values =
      some (.boolean (c.predicate.holds values)) := by
  have hfield := eval_valueOf engine values c.field
  have hnumber := number?_ofField hengine (values.get? c.field)
  obtain ⟨logic, field, operator, value⟩ := c
  -- the order of two texts does not matter: a comparison by size turns its operand into a number
  cases operator with
  | equal =>
      change (Expr.binary .equal (.valueOf field) (.text (unitsOf value))).eval engine values =
        some (.boolean (Predicate.sameText (values.get? field) (.text value)))
      rw [← strictlyEquals_ofField]
      simp [Expr.eval, hfield, Value.compare?]
  | notEqual =>
      change (Expr.binary .notEqual (.valueOf field) (.text (unitsOf value))).eval engine values =
        some (.boolean (!Predicate.sameText (values.get? field) (.text value)))
      rw [← strictlyEquals_ofField]
      simp [Expr.eval, hfield, Value.compare?]
  | greater =>
      have hoperand : (Expr.ofOperand (.compile .greater value)).eval engine values =
          some (.number (Operand.compile .greater value).toNumber) :=
        eval_orderOperand hengine hreads (Or.inl rfl) values
      have hless := (less?_number hnumber (Operand.compile .greater value).toNumber).2
      change (Expr.binary .greater (.valueOf field) (.ofOperand (.compile .greater value))).eval
        engine values = some (.boolean ((Operand.compile .greater value).toNumber.less
          (Predicate.numberOf (values.get? field))))
      simp [Expr.eval, hfield, hoperand, Value.compare?, hless]
  | less =>
      have hoperand : (Expr.ofOperand (.compile .less value)).eval engine values =
          some (.number (Operand.compile .less value).toNumber) :=
        eval_orderOperand hengine hreads (Or.inr rfl) values
      have hless := (less?_number hnumber (Operand.compile .less value).toNumber).1
      change (Expr.binary .less (.valueOf field) (.ofOperand (.compile .less value))).eval
        engine values = some (.boolean ((Predicate.numberOf (values.get? field)).less
          (Operand.compile .less value).toNumber))
      simp [Expr.eval, hfield, hoperand, Value.compare?, hless]
  | contains =>
      change (Expr.call (.member (.shownText field) (.text (unitsOf "includes")))
        (.text (unitsOf value))).eval engine values = some (.boolean (Text.occurs value.toList
          (Predicate.searchedText (values.get? field)).toList))
      rw [occurs_eq_decide]
      simp [Expr.eval, eval_shownText hengine, Value.member?, Value.call?, Value.units?, unitsOf]

theorem eval_combine {values : FormValues} {left right : Expr} {a b : Bool}
    (hleft : left.eval engine values = some (.boolean a))
    (hright : right.eval engine values = some (.boolean b)) (logic : LogicOp) :
    (Expr.binary (Expr.ofLogic logic) left right).eval engine values =
      some (.boolean (logic.apply a b)) := by
  cases logic <;> cases a <;> simp [Expr.ofLogic, Expr.eval, hleft, hright, Value.truthy,
    LogicOp.apply]

/-- The induction is on the conditions that are still to be joined. -/
theorem eval_extend (hengine : engine.Converts) {values : FormValues} {expr : BoolExpr}
    (hexpr : (Expr.ofBoolExpr expr).eval engine values = some (.boolean (expr.holds values)))
    {rest : List Condition} (hreads : ∀ c ∈ rest, engine.Reads c) :
    (Expr.ofBoolExpr (expr.extend rest)).eval engine values =
      some (.boolean ((expr.extend rest).holds values)) := by
  induction rest generalizing expr with
  | nil => exact hexpr
  | cons c rest ih =>
      have hcondition := eval_predicate hengine (hreads c List.mem_cons_self) values
      have hcombine := eval_combine hexpr hcondition c.logic
      exact ih hcombine fun other hother => hreads other (List.mem_cons_of_mem c hother)

/-- The text of a visibility expression is read as the tree that was compiled, and its value is
whether the field is visible. -/
theorem isVisible_eq_eval (hengine : engine.Converts) (first : Condition) (rest : List Condition)
    (hreads : ∀ c ∈ first :: rest, engine.Reads c) (values : FormValues) :
    ∃ expr, Visibility.compile (first :: rest) = .when expr ∧
      parse? expr.sourceText = some (.ofBoolExpr expr) ∧
      (Expr.ofBoolExpr expr).eval engine values =
        some (.boolean ((Visibility.compile (first :: rest)).isVisible values)) := by
  refine ⟨_, rfl, ?_, ?_⟩
  · apply parse?_sourceText
    intro p hp
    rw [predicates_extend] at hp
    obtain ⟨c, -, rfl⟩ : ∃ c ∈ first :: rest, c.predicate = p := List.mem_map.mp hp
    exact finiteOperand_predicate c
  · apply eval_extend hengine
    · exact eval_predicate hengine (hreads first List.mem_cons_self) values
    · exact fun c hc => hreads c (List.mem_cons_of_mem first hc)

/-- Conditions with a negative number, with brackets and quotes, and with a pair of surrogates. -/
def crossedConditions : List Condition :=
  [⟨.or, "age", .greater, "-18.5"⟩, ⟨.and, "a\") || (\"", .notEqual, "\") && (\""⟩,
    ⟨.or, "note", .contains, "\"😀"⟩]

/-- Values for these conditions, with a field that is null. -/
def crossedValues : FormValues :=
  (FormValues.empty.insert "age" .null).insert "note" (.text "say \"😀\"")

theorem isVisible_eq_eval_crossedConditions :
    Engine.standard.Converts ∧ (∀ c ∈ crossedConditions, Engine.standard.Reads c) ∧
      ∃ expr, Visibility.compile crossedConditions = .when expr ∧
        parse? expr.sourceText = some (.ofBoolExpr expr) ∧
        (Expr.ofBoolExpr expr).eval .standard crossedValues =
          some (.boolean ((Visibility.compile crossedConditions).isVisible crossedValues)) := by
  have hreads : ∀ c ∈ crossedConditions, Engine.standard.Reads c := by
    intro c hc x hx
    simp only [crossedConditions, List.mem_cons, List.not_mem_nil, or_false] at hc
    rcases hc with rfl | rfl | rfl
    · have hnumber : (Condition.mk .or "age" .greater "-18.5").predicate.operand =
          .number ⟨0xC032800000000000⟩ := by decide +kernel
      rw [hnumber] at hx
      cases hx
      unfold Engine.ReadsBack
      decide +kernel
    · cases hx
    · cases hx
  exact ⟨Engine.standard_converts, hreads,
    isVisible_eq_eval Engine.standard_converts _ _ hreads crossedValues⟩

end FormCompiler.Script
