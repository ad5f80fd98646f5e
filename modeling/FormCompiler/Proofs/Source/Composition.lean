import FormCompiler.Proofs.Source.Emission

/-!
# The composition of a component

A component is put together from lines that stand by themselves, from lines that bind a field by
its name, and from pairs of lines with a part between them.  The principal result is that every
component is composed in this way.  The composition notes the names that are bound and the levels
of the lines; what holds of the lines, and is kept when parts are put together, holds of every
component by induction on its composition.
-/

namespace FormCompiler

/-- What the lines of a field depend on. -/
structure FieldShape where
  type : FieldType
  options : Nat
  conditional : Bool
  deriving DecidableEq

/-- The type of a field, the number of its options, and whether it has conditions. -/
def FieldSchema.shape (field : FieldSchema) : FieldShape :=
  ⟨field.type, field.kind.options.length, !field.conditions.isEmpty⟩

def FormSchema.shapes (form : FormSchema) : List FieldShape := form.fields.map (·.shape)

/-- A visibility that always holds leaves no trace in the source. -/
def CompiledField.shape (c : CompiledField) : FieldShape :=
  ⟨c.field.type, c.field.kind.options.length, c.visibility ≠ .always⟩

theorem FieldSchema.shape_compile (field : FieldSchema) : field.compile.shape = field.shape := by
  unfold CompiledField.shape FieldSchema.shape FieldSchema.compile Visibility.compile
  cases field.conditions <;> simp

namespace Source

/-! ## Outlines -/

/-- The levels of lines; an empty line stands at none. -/
abbrev Outline := List (Option Nat)

namespace Outline

def deeper (outline : Outline) : Outline := outline.map fun level => level.map (· + 1)

/-- Lines one level deeper between two others. -/
def framed (content : Outline) : Outline := some 0 :: (deeper content ++ [some 0])

/-- One line for each item, at the outermost level. -/
def flat (count : Nat) : Outline := List.replicate count (some 0)

def widget (shape : FieldShape) : Outline :=
  match shape.type with
  | .input | .textarea | .checkbox => flat 1
  | .number | .date => framed (flat 1)
  | .select => framed (framed (flat shape.options))

/-- The block of a field: the label and the widget, which is framed when it has conditions. -/
def field (shape : FieldShape) : Outline :=
  framed (flat 1 ++ if shape.conditional then framed (widget shape) else widget shape)

def form (shapes : List FieldShape) : Outline := framed (shapes.flatMap field ++ flat 1)

/-- The element that holds the state: its attributes, and the form as its child. -/
def state (shapes : List FieldShape) : Outline :=
  flat 1 ++ deeper (framed (flat shapes.length) ++ flat 1 ++ flat 1) ++ flat 1 ++
    deeper (framed (form shapes)) ++ flat 1

def component (shapes : List FieldShape) : Outline :=
  flat 4 ++ [none] ++ framed (flat shapes.length) ++ [none] ++ framed (framed (state shapes))

end Outline

/-! ## The lines of a component -/

def fixedLines : List String :=
  imports ++ ["<Formik", "validationSchema=\x7bvalidationSchema\x7d",
    "onSubmit=\x7b(values) => console.log('submit', values)\x7d", ">", "</Formik>"]

/-- What a property of an object is set to. -/
inductive PropertyValue : String → Prop where
  | chain (chain : ValidationChain) : PropertyValue chain.sourceText
  | initial (type : FieldType) : PropertyValue (initialValue type)

/-- A line that stands by itself. -/
inductive PlainLine : String → Prop where
  | fixed {text : String} (h : text ∈ fixedLines) : PlainLine text
  | lastProperty (key : String) {value : String} (h : PropertyValue value) :
      PlainLine (propertyText key value)
  | property (key : String) {value : String} (h : PropertyValue value) :
      PlainLine (propertyText key value ++ ",")
  | option (option : String) : PlainLine (optionText option)
  | number (name : String) : PlainLine (numberText name)
  | date (name : String) : PlainLine (dateText name)
  | label (text : String) : PlainLine (labelText text)
  | button (text : String) : PlainLine (submitText text)

/-- Elements that are bound without further attributes. -/
def plainElements : List String := ["Input \x7b...field\x7d", "Input.TextArea \x7b...field\x7d"]

/-- A line that binds a field by its name. -/
inductive BindingLine (name : String) : String → Prop where
  | plain {element : String} (h : element ∈ plainElements) :
      BindingLine name (inlineText (attributeText "name" name) element)
  | checkbox :
      BindingLine name (inlineText ("type=\"checkbox\" " ++ attributeText "name" name)
        "Checkbox \x7b...field\x7d checked=\x7bfield.value\x7d")

/-- Two lines that belong together: the second closes what the first opens. -/
inductive Frame : String → String → Prop where
  | schema : Frame "const validationSchema = yup.object().shape(\x7b" "\x7d);"
  | initial : Frame "initialValues=\x7b\x7b" "\x7d\x7d"
  | form : Frame "<Form onSubmit=\x7bhandleSubmit\x7d>" "</Form>"
  | child : Frame "\x7b(\x7b handleSubmit, values \x7d) => (" ")\x7d"
  | body : Frame "return (" ");"
  | function {name : String} (h : isIdentifier name = true) : Frame (functionText name) "\x7d"
  | block (name : String) : Frame (blockText name) "</div>"
  | shown (expr : BoolExpr) : Frame (whenText expr) ")\x7d"
  | select (name : String) : Frame (selectText name) "</Select>"

/-- Layouts that are put together from such lines, with the names that are bound, in order, and the
outline. -/
inductive Composed : List String → Outline → Layout → Prop where
  | nil : Composed [] [] []
  | blank : Composed [] [none] .blank
  | line {text : String} (h : PlainLine text) : Composed [] (.flat 1) (.line text)
  | binding {name text : String} (h : BindingLine name text) :
      Composed [name] (.flat 1) (.line text)
  | append {names others : List String} {outline rest : Outline} {first second : Layout}
      (hfirst : Composed names outline first) (hsecond : Composed others rest second) :
      Composed (names ++ others) (outline ++ rest) (first ++ second)
  | nested {names : List String} {outline : Outline} {layout : Layout}
      (h : Composed names outline layout) : Composed names outline.deeper layout.nested
  | frame {names : List String} {outline : Outline} {first last : String} {content : Layout}
      (h : Frame first last) (hcontent : Composed names outline content) :
      Composed names outline.framed (.line first ++ content.nested ++ .line last)
  | bindingFrame (name : String) {names : List String} {outline : Outline} {content : Layout}
      (hcontent : Composed names outline content) :
      Composed (name :: names) outline.framed
        (framedWidget (attributeText "name" name) content)

namespace Composed

variable {names : List String} {outline rest : Outline} {first second content : Layout}

/-- A part that binds no name. -/
theorem append_plain (hfirst : Composed names outline first) (hsecond : Composed [] rest second) :
    Composed names (outline ++ rest) (first ++ second) := by
  simpa using hfirst.append hsecond

theorem fixed : ∀ text ∈ fixedLines, Composed [] (.flat 1) (.line text) :=
  fun _ h => .line (.fixed h)

/-! ## The parts of a component -/

theorem options (options : List String) :
    Composed [] (.flat options.length) (optionLines options) := by
  induction options with
  | nil => exact .nil
  | cons option _ ih => exact (line (.option option)).append ih

theorem widget (field : FieldSchema) (conditional : Bool) :
    Composed [field.name] (.widget ⟨field.type, field.kind.options.length, conditional⟩)
      (widget field) := by
  unfold Source.widget Outline.widget FieldSchema.type
  cases field.kind with
  | input => exact .binding (.plain (by simp [plainElements]))
  | textarea => exact .binding (.plain (by simp [plainElements]))
  | checkbox => exact .binding .checkbox
  | number => exact .bindingFrame field.name (.line (.number field.name))
  | select items =>
      exact .bindingFrame field.name (.frame (.select field.name) (Composed.options items))
  | date => exact .bindingFrame field.name (.line (.date field.name))

theorem properties {items : List (String × String)}
    (h : ∀ property ∈ items, PropertyValue property.2) :
    Composed [] (.flat items.length) (propertyLines items) := by
  induction items with
  | nil => exact .nil
  | cons property others ih =>
      obtain ⟨hproperty, hothers⟩ := List.forall_mem_cons.mp h
      cases others with
      | nil => exact .line (.lastProperty property.1 hproperty)
      | cons next others => exact (line (.property property.1 hproperty)).append (ih hothers)

theorem schema (fields : List CompiledField) :
    Composed [] (Outline.flat fields.length).framed (schemaLines fields) := by
  refine .frame .schema ?_
  rw [← List.length_map fun c : CompiledField => (c.field.name, c.validation.sourceText)]
  refine properties fun property hmem => ?_
  obtain ⟨c, -, rfl⟩ := List.mem_map.mp hmem
  exact .chain c.validation

theorem initial (fields : List CompiledField) :
    Composed [] (Outline.flat fields.length).framed (initialLines fields) := by
  refine .frame .initial ?_
  rw [← List.length_map fun c : CompiledField => (c.field.name, initialValue c.field.type)]
  refine properties fun property hmem => ?_
  obtain ⟨c, -, rfl⟩ := List.mem_map.mp hmem
  exact .initial c.field.type

theorem field (c : CompiledField) :
    Composed [c.field.name] (.field c.shape) (fieldLines c) := by
  refine .frame (.block c.field.name) (append (line (.label c.field.label)) ?_)
  have hwidget := Composed.widget c.field c.shape.conditional
  unfold CompiledField.shape at hwidget ⊢
  -- the shape of a field tells the two cases apart, so the outline needs no visibility
  cases c.visibility with
  | always => exact hwidget
  | «when» expr => exact .frame (.shown expr) hwidget

theorem blocks (fields : List CompiledField) :
    Composed (fields.map (·.field.name)) ((fields.map (·.shape)).flatMap Outline.field)
      (blockLines fields) := by
  induction fields with
  | nil => exact .nil
  | cons c others ih => exact (Composed.field c).append ih

theorem form (fields : List CompiledField) (submitLabel : String) :
    Composed (fields.map (·.field.name)) (.form (fields.map (·.shape)))
      (formLines fields submitLabel) :=
  .frame .form ((blocks fields).append_plain (.line (.button submitLabel)))

theorem state (fields : List CompiledField) (submitLabel : String) :
    Composed (fields.map (·.field.name)) (.state (fields.map (·.shape)))
      (stateLines fields submitLabel) := by
  have hfixed := fun text h => fixed text (List.mem_append_right imports h)
  simp only [List.forall_mem_cons] at hfixed
  obtain ⟨hopen, hschema, hsubmit, hend, hclose, -⟩ := hfixed
  have hattributes := ((initial fields).append hschema).append hsubmit
  have hchild := frame .child (form fields submitLabel)
  unfold Outline.state
  rw [List.length_map]
  exact (((hopen.append hattributes.nested).append hend).append hchild.nested).append_plain hclose

theorem function (fields : List CompiledField) {config : EmitterConfig}
    (hname : isIdentifier config.componentName = true) :
    Composed (fields.map (·.field.name)) (Outline.state (fields.map (·.shape))).framed.framed
      (functionLines fields config) :=
  .frame (.function hname) (.frame .body (state fields config.submitLabel))

theorem imports : Composed [] (.flat 4) importLines := by
  have hfixed := fun text h => fixed text (List.mem_append_left _ h)
  simp only [Source.imports, List.forall_mem_cons] at hfixed
  obtain ⟨hreact, hformik, hyup, hantd, -⟩ := hfixed
  exact ((hreact.append hformik).append hyup).append hantd

/-- Every component is composed of such lines.  It binds the names of the fields in order, and its
outline depends on the shapes of the fields only. -/
theorem component (fields : List CompiledField) {config : EmitterConfig}
    (hname : isIdentifier config.componentName = true) :
    Composed (fields.map (·.field.name)) (.component (fields.map (·.shape)))
      (componentLines fields config) := by
  unfold Outline.component
  rw [List.length_map]
  exact (((imports.append .blank).append (schema fields)).append .blank).append
    (function fields hname)

end Composed

end Source

end FormCompiler
