import FormCompiler.Proofs.Binary64.Magnitude
import FormCompiler.Proofs.Compiled.References
import Mathlib.Data.Option.Defs

/-!
# What visibility depends on

A comparison reads one value, as it is, as a number or as a text, and in none of these ways does it
tell two equal numbers apart or two undefined ones.  The principal result is about two sets of
values that agree on the names to which a field refers: the field is shown for both or for neither.
So what is shown has to be found again only after a change to one of these names.
-/

namespace FormCompiler

/-! ## The same numbers -/

/-- Numbers that no comparison tells apart: equal ones, and any two that are undefined. -/
def Binary64.Same (x y : Binary64) : Prop :=
  x.equals y = true ∨ (x.isUndefined = true ∧ y.isUndefined = true)

namespace Binary64

variable {x y : Binary64}

theorem equals_iff : x.equals y = true ↔
    x.isUndefined = false ∧ y.isUndefined = false ∧ x.position = y.position := by
  simp only [equals, Bool.and_eq_true, Bool.not_eq_true', beq_iff_eq, and_assoc]

/-- Only the two zeros are equal and yet not one number. -/
theorem eq_or_isZero_of_position_eq (h : x.position = y.position) :
    x = y ∨ (x.isZero = true ∧ y.isZero = true) := by
  unfold position at h
  by_cases hzero : x.magnitude = 0
  · have hzero' : y.magnitude = 0 := by
      split_ifs at h <;> omega
    exact Or.inr ⟨beq_iff_eq.mpr hzero, beq_iff_eq.mpr hzero'⟩
  · refine Or.inl (ext_sign ?_ ?_)
    · cases hx : x.isNegative <;> cases hy : y.isNegative <;> simp [hx, hy] at h ⊢ <;> omega
    · split_ifs at h <;> omega

theorem Same.refl (x : Binary64) : x.Same x := by
  cases hx : x.isUndefined with
  | true => exact Or.inr ⟨hx, hx⟩
  | false => exact Or.inl (equals_iff.mpr ⟨hx, hx, rfl⟩)

theorem Same.less_left (h : x.Same y) (z : Binary64) : x.less z = y.less z := by
  rcases h with h | ⟨hx, hy⟩
  · obtain ⟨hx, hy, hposition⟩ := equals_iff.mp h
    simp only [less, hx, hy, hposition]
  · simp only [less, hx, hy, Bool.not_true, Bool.false_and]

theorem Same.less_right (h : x.Same y) (z : Binary64) : z.less x = z.less y := by
  rcases h with h | ⟨hx, hy⟩
  · obtain ⟨hx, hy, hposition⟩ := equals_iff.mp h
    simp only [less, hx, hy, hposition]
  · simp only [less, hx, hy, Bool.not_true, Bool.and_false, Bool.false_and]

theorem numberToText_of_isZero (h : x.isZero = true) : Coercion.numberToText x = "0" := by
  have hmagnitude : x.magnitude = 0 := beq_iff_eq.mp h
  have hfinite : x.isFinite = true := by
    rw [isFinite, hmagnitude]
    decide
  simp only [Coercion.numberToText, isUndefined_of_isFinite hfinite,
    isInfinite_of_isFinite hfinite, h, Bool.false_eq_true, if_false, if_true]

theorem Same.numberToText_eq (h : x.Same y) :
    Coercion.numberToText x = Coercion.numberToText y := by
  rcases h with h | ⟨hx, hy⟩
  · rcases eq_or_isZero_of_position_eq (equals_iff.mp h).2.2 with rfl | ⟨hx, hy⟩
    · rfl
    · rw [numberToText_of_isZero hx, numberToText_of_isZero hy]
  · simp only [Coercion.numberToText, hx, hy, if_true]

end Binary64

/-! ## The same values -/

/-- Values that no comparison tells apart. -/
inductive FormValue.Same : FormValue → FormValue → Prop where
  | refl (value : FormValue) : Same value value
  | number {x y : Binary64} (h : x.Same y) : Same (.number x) (.number y)

/-- Whether both have a value for each of the names or neither has one, and the values are the
same. -/
def FormValues.AgreeOn (names : List String) (u v : FormValues) : Prop :=
  ∀ name ∈ names, Option.Rel FormValue.Same (u.get? name) (v.get? name)

theorem FormValues.AgreeOn.mono {names names' : List String} {u v : FormValues}
    (h : AgreeOn names u v) (hsubset : names' ⊆ names) : AgreeOn names' u v :=
  fun name hname => h name (hsubset hname)

namespace Predicate

variable {a b : Option FormValue}

theorem sameText_congr (h : Option.Rel FormValue.Same a b) (operand : Operand) :
    sameText a operand = sameText b operand := by
  cases h with
  | none => rfl
  | some h =>
      cases h with
      | refl value => rfl
      | number h => rfl

theorem same_numberOf (h : Option.Rel FormValue.Same a b) : (numberOf a).Same (numberOf b) := by
  cases h with
  | none => exact .refl _
  | some h =>
      cases h with
      | refl value => exact .refl _
      | number h => exact h

theorem searchedText_congr (h : Option.Rel FormValue.Same a b) :
    searchedText a = searchedText b := by
  cases h with
  | none => rfl
  | some h =>
      cases h with
      | refl value => rfl
      | number h => exact h.numberToText_eq

/-- A comparison reads the value of its field and no other. -/
theorem holds_congr {p : Predicate} {u v : FormValues}
    (h : Option.Rel FormValue.Same (u.get? p.field) (v.get? p.field)) :
    p.holds u = p.holds v := by
  unfold holds
  cases p.operator with
  | equal => exact sameText_congr h p.operand
  | notEqual => exact congrArg Bool.not (sameText_congr h p.operand)
  | greater => exact (same_numberOf h).less_right p.operand.toNumber
  | less => exact (same_numberOf h).less_left p.operand.toNumber
  | contains =>
      dsimp only
      rw [searchedText_congr h]

end Predicate

/-! ## The same fields -/

/-- The induction is on the expression; both of its parts refer to no more than the whole does. -/
theorem BoolExpr.holds_congr {expr : BoolExpr} {u v : FormValues}
    (h : FormValues.AgreeOn expr.referencedFields u v) : expr.holds u = expr.holds v := by
  induction expr with
  | predicate p => exact Predicate.holds_congr (h p.field (List.mem_singleton_self p.field))
  | combine left logic right hleft hright =>
      have hsplit : (combine left logic right).referencedFields =
          left.referencedFields ++ right.referencedFields := List.map_append
      rw [hsplit] at h
      unfold holds
      rw [hleft (h.mono (List.subset_append_left _ _)),
        hright (h.mono (List.subset_append_right _ _))]

theorem Visibility.isVisible_congr {visibility : Visibility} {u v : FormValues}
    (h : FormValues.AgreeOn visibility.referencedFields u v) :
    visibility.isVisible u = visibility.isVisible v := by
  cases visibility with
  | always => rfl
  | «when» expr => exact BoolExpr.holds_congr h

namespace CompiledForm

/-- The names that are read when the fields to be shown are found. -/
def referencedFields (form : CompiledForm) : List String :=
  form.fields.flatMap fun c => c.visibility.referencedFields

theorem visibleFields_congr {form : CompiledForm} {u v : FormValues}
    (h : FormValues.AgreeOn form.referencedFields u v) :
    form.visibleFields u = form.visibleFields v := by
  unfold visibleFields
  refine congrArg _ (List.filter_congr fun c hc => Visibility.isVisible_congr (h.mono ?_))
  exact fun name hname => List.mem_flatMap_of_mem hc hname

theorem visibleFields_sublist (form : CompiledForm) (values : FormValues) :
    (form.visibleFields values).Sublist form.names :=
  List.filter_sublist.map _

end CompiledForm

namespace FormSchema

/-- Two sets of values that agree on the names to which a field refers show the field both or
neither; if they agree on the names to which any field refers, they show the same fields.  The
fields that are shown stand in the order of their declaration. -/
theorem visibleFields_eq_of_agreeOn (form : FormSchema) (u v : FormValues) :
    (∀ c ∈ form.compile.fields, FormValues.AgreeOn c.visibility.referencedFields u v →
        c.visibility.isVisible u = c.visibility.isVisible v) ∧
      (FormValues.AgreeOn form.compile.referencedFields u v →
        form.compile.visibleFields u = form.compile.visibleFields v) ∧
      (form.compile.visibleFields u).Sublist form.names := by
  refine ⟨fun _ _ => Visibility.isVisible_congr, CompiledForm.visibleFields_congr, ?_⟩
  rw [← names_compile]
  exact form.compile.visibleFields_sublist u

/-- A license is asked for below the age of one, or if a mother is the guardian. -/
def licenseField : FieldSchema :=
  { (FieldDraft.new "license" .input).withId "2" with
    conditions := [⟨.and, "age", .less, "1"⟩, ⟨.or, "guardian", .contains, "mother"⟩] }

def licenseForm : FormSchema :=
  ⟨[(FieldDraft.new "age" .number).withId "1", licenseField,
    (FieldDraft.new "comment" .textarea).withId "3"]⟩

/-- Zeros of either sign agree, and so do absent guardians; the comment does not matter. -/
theorem visibleFields_eq_of_agreeOn_licenseForm :
    ∃ u v : FormValues, u.get? "age" ≠ v.get? "age" ∧ u.get? "comment" ≠ v.get? "comment" ∧
      licenseField.compile ∈ licenseForm.compile.fields ∧
      FormValues.AgreeOn licenseField.compile.visibility.referencedFields u v ∧
      licenseField.compile.visibility.isVisible u =
        licenseField.compile.visibility.isVisible v ∧
      FormValues.AgreeOn licenseForm.compile.referencedFields u v ∧
      licenseForm.compile.visibleFields u = licenseForm.compile.visibleFields v ∧
      (licenseForm.compile.visibleFields u).Sublist licenseForm.names ∧
      licenseForm.compile.visibleFields v = ["age", "license", "comment"] := by
  have hagree : FormValues.AgreeOn ["age", "guardian"]
      ⟨[("age", .number (.ofMagnitude true 0)), ("comment", .text "later")]⟩
      ⟨[("age", .number .zero)]⟩ := by
    refine List.forall_mem_cons.mpr ⟨?_, List.forall_mem_singleton.mpr ?_⟩
    · exact .some (.number (Or.inl (by decide)))
    · exact .none
  have hmem : licenseField.compile ∈ licenseForm.compile.fields :=
    List.mem_cons_of_mem _ List.mem_cons_self
  obtain ⟨hfield, hshown, hsublist⟩ := visibleFields_eq_of_agreeOn licenseForm _ _
  exact ⟨_, _, by decide, by decide, hmem, hagree, hfield _ hmem hagree, hagree, hshown hagree,
    hsublist, by decide +kernel⟩

end FormSchema

end FormCompiler
