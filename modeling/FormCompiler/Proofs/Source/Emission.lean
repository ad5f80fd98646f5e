import FormCompiler.Proofs.Source.Rendering
import FormCompiler.Source.Component

/-!
# What the emission writes

The file is written line by line, at the level where the writer stands.  A step that writes a
layout does so at every level, and steps in a row write their layouts one behind the other.  The
principal result is that the whole emission writes the lines of the component.
-/

namespace FormCompiler

namespace Source

/-- A step writes a layout, wherever the writer stands. -/
def Writes (step : Writer → Writer) (layout : Layout) : Prop :=
  ∀ writer, step writer = writer.add layout

namespace Writes

variable {first second part : Writer → Writer} {a b layout : Layout}

theorem line (text : String) : Writes (·.line text) (.line text) := fun _ => rfl

theorem blank : Writes Writer.blank .blank := fun _ => rfl

/-- A step that does nothing writes nothing. -/
theorem nil : Writes id [] := by
  intro writer
  simp [Writer.add, Layout.indentBy]

theorem append (hfirst : Writes first a) (hsecond : Writes second b) :
    Writes (fun writer => second (first writer)) (a ++ b) := by
  intro writer
  calc second (first writer) = (writer.add a).add b := by rw [hfirst, hsecond]
    _ = writer.add (a ++ b) := by simp [Writer.add, Layout.indentBy_append]

theorem nested (h : Writes part layout) : Writes (·.nested part) layout.nested := by
  intro writer
  rw [← Writer.nested_add]
  simp only [Writer.nested, h writer.indent]

/-- A part between two lines. -/
theorem framed (opening closing : String) (h : Writes part layout) :
    Writes (fun writer => ((writer.line opening).nested part).line closing)
      (.line opening ++ layout.nested ++ .line closing) :=
  ((line opening).append h.nested).append (line closing)

/-! ## The parts of the emission -/

theorem options (options : List String) : Writes (·.options options) (optionLines options) := by
  induction options with
  | nil => exact nil
  | cons option _ ih => exact (line (optionText option)).append ih

theorem widget (field : FieldSchema) : Writes (·.widget field) (Source.widget field) := by
  unfold Writer.widget Source.widget
  cases field.kind with
  | input | textarea | checkbox => exact line _
  | number | date => exact framed _ _ (line _)
  | select items => exact framed _ _ (framed _ _ (options items))

/-- The loop over the properties from an index on: a comma stands behind all but the last one. -/
theorem properties_from (items : List (String × String)) (index last : Nat)
    (h : items ≠ [] → index + items.length = last + 1) :
    Writes (fun writer => (items.zipIdx index).foldl (fun writer ((key, value), index) =>
      writer.line (propertyText key value ++ if index < last then "," else "")) writer)
      (propertyLines items) := by
  induction items generalizing index with
  | nil => exact nil
  | cons property others ih =>
      obtain ⟨key, value⟩ := property
      have hlast := h (List.cons_ne_nil _ _)
      rw [List.length_cons] at hlast
      cases others with
      | nil =>
          have hindex : ¬ index < last := by simp at hlast; omega
          simpa [List.zipIdx, propertyLines, hindex] using line (propertyText key value)
      | cons next others =>
          have hindex : index < last := by simp at hlast; omega
          have hrest := ih (index + 1) fun _ => by omega
          simpa [List.zipIdx, propertyLines, hindex] using
            (line (propertyText key value ++ ",")).append hrest

theorem properties (items : List (String × String)) :
    Writes (·.properties items) (propertyLines items) :=
  properties_from items 0 (items.length - 1) fun h => by
    have := List.length_pos_iff.mpr h
    omega

theorem shown (visibility : Visibility) (field : FieldSchema) :
    Writes (·.shown visibility field) (shownLines visibility (Source.widget field)) := by
  cases visibility with
  | always => exact widget field
  | «when» expr => exact framed _ _ (widget field)

theorem field (c : CompiledField) : Writes (·.fieldBlock c) (fieldLines c) :=
  framed _ _ ((line (labelText c.field.label)).append (shown c.visibility c.field))

theorem blocks (fields : List CompiledField) :
    Writes (fields.foldl Writer.fieldBlock) (blockLines fields) := by
  induction fields with
  | nil => exact nil
  | cons c _ ih => exact (field c).append ih

theorem form (fields : List CompiledField) (submitLabel : String) :
    Writes (·.form fields submitLabel) (formLines fields submitLabel) :=
  framed _ _ ((blocks fields).append (line _))

theorem initialValues (fields : List CompiledField) :
    Writes (·.initialValues fields) (initialLines fields) := framed _ _ (properties _)

theorem state (fields : List CompiledField) (submitLabel : String) :
    Writes (·.state fields submitLabel) (stateLines fields submitLabel) := by
  have hattributes := ((initialValues fields).append
    (line "validationSchema=\x7bvalidationSchema\x7d")).append
      (line "onSubmit=\x7b(values) => console.log('submit', values)\x7d")
  -- the form is the only child, and stands in a function of its own
  have hchild :=
    framed "\x7b(\x7b handleSubmit, values \x7d) => (" ")\x7d" (form fields submitLabel)
  exact ((((line "<Formik").append hattributes.nested).append (line ">")).append
    hchild.nested).append (line "</Formik>")

theorem imports : Writes (Source.imports.foldl Writer.line) importLines :=
  (((line _).append (line _)).append (line _)).append (line _)

/-- Wherever the writer stands, the emission writes the lines of the component. -/
theorem component (fields : List CompiledField) (config : EmitterConfig) :
    Writes (·.component fields config) (componentLines fields config) :=
  (((imports.append blank).append (framed _ _ (properties _))).append blank).append
    (framed _ _ (framed _ _ (state fields config.submitLabel)))

end Writes

end Source

/-- The source of a form is its component, rendered. -/
theorem CompiledForm.source_eq (form : CompiledForm) (config : EmitterConfig) :
    form.source config = (Source.componentLines form.fields config).render config.indentWidth := by
  have hwritten : Source.Writer.empty.component form.fields config =
      Source.Writer.empty.add (Source.componentLines form.fields config) :=
    Source.Writes.component form.fields config .empty
  unfold CompiledForm.source
  rw [hwritten, Source.Writer.render]
  simp [Source.Writer.add, Source.Writer.empty, Source.Layout.indentBy_zero]

end FormCompiler
