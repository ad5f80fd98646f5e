import FormCompiler.Proofs.Source.Decoding
import FormCompiler.Proofs.Source.Lines

/-!
# Equal sources come from forms that do the same

The principal result is that two forms have the same source exactly when their compiled fields are
alike, one by one.  The lines of the schema tell the names and the chains; once the names are known
to agree, the lines of the blocks tell labels, visibilities and kinds.
-/

namespace FormCompiler.Source

/-! ## Properties -/

def EndsCall (text : List Char) : Prop := ∃ first, text = first ++ [')']

theorem EndsCall.prepend {text : List Char} (h : EndsCall text) (before : List Char) :
    EndsCall (before ++ text) := by
  obtain ⟨first, rfl⟩ := h
  exact ⟨before ++ first, by simp⟩

theorem endsCall_ofList {chars : List Char} (h : chars.getLast? = some ')') :
    EndsCall (String.ofList chars).toList := by
  rw [String.toList_ofList]
  obtain ⟨first, hchars⟩ := List.getLast?_eq_some_iff.mp h
  exact ⟨first, hchars⟩

theorem endsCall_clause (clause : RuleClause) : EndsCall clause.sourceText.toList := by
  unfold RuleClause.sourceText
  cases clause with
  | required message =>
      simp only [String.toList_append]
      exact EndsCall.prepend (endsCall_ofList rfl) _
  | min limit message =>
      simp only [String.toList_append]
      exact EndsCall.prepend (endsCall_ofList rfl) _
  | max limit message =>
      simp only [String.toList_append]
      exact EndsCall.prepend (endsCall_ofList rfl) _
  | pattern source message =>
      simp only [String.toList_append]
      exact EndsCall.prepend (endsCall_ofList rfl) _
  | crossField other message =>
      simp only [String.toList_append]
      exact EndsCall.prepend (endsCall_ofList rfl) _

theorem endsCall_append_clauses {text : List Char} (h : EndsCall text)
    (clauses : List RuleClause) : EndsCall (text ++ (RuleClause.listText clauses).toList) := by
  induction clauses generalizing text with
  | nil => simpa [RuleClause.listText] using h
  | cons clause rest ih =>
      rw [RuleClause.listText, String.toList_append, ← List.append_assoc]
      exact ih ((endsCall_clause clause).prepend text)

theorem endsCall_chain (chain : ValidationChain) : EndsCall chain.sourceText.toList := by
  have hbase : EndsCall chain.base.sourceText.toList := by
    cases chain.base <;> exact endsCall_ofList rfl
  rw [ValidationChain.sourceText, String.toList_append]
  exact endsCall_append_clauses hbase chain.clauses

/-- What stands behind a property, with the other properties. -/
def separator (others : List (String × String)) : List Char := if others.isEmpty then [] else [',']

theorem texts_propertyLines_cons (key value : String) (others : List (String × String)) :
    ∃ text, (propertyLines ((key, value) :: others)).texts =
        text :: (propertyLines others).texts ∧
      text.toList = (objectKey key).toList ++
        (": ".toList ++ (value.toList ++ separator others)) := by
  cases others with
  | nil => exact ⟨_, rfl, by simp [propertyText, separator]⟩
  | cons next others => exact ⟨_, rfl, by simp [propertyText, separator]⟩

theorem length_texts_propertyLines (properties : List (String × String)) :
    (propertyLines properties).texts.length = properties.length := by
  induction properties with
  | nil => rfl
  | cons property others ih =>
      obtain ⟨key, value⟩ := property
      obtain ⟨text, htexts, -⟩ := texts_propertyLines_cons key value others
      rw [htexts, List.length_cons, List.length_cons, ih]

/-- A value that ends with a parenthesis is told apart from the comma behind it. -/
theorem value_append_separator_inj {value value' : List Char} (hvalue : EndsCall value)
    (hvalue' : EndsCall value') {others others' : List (String × String)}
    (h : value ++ separator others = value' ++ separator others') : value = value' := by
  obtain ⟨first, rfl⟩ := hvalue
  obtain ⟨first', rfl⟩ := hvalue'
  unfold separator at h
  split at h
  · split at h
    · simpa using h
    · have hlast := congrArg List.getLast? h
      simp at hlast
  · split at h
    · have hlast := congrArg List.getLast? h
      simp at hlast
    · simpa using h

/-- No key begins like the line that closes an object. -/
theorem objectKey_append_ne_closer {key : String} {x y : List Char} :
    (objectKey key).toList ++ x ≠ '\x7d' :: y := by
  intro h
  unfold objectKey at h
  split at h
  · next hkey =>
    obtain ⟨first, rest, hchars, hfirst⟩ := exists_cons_of_isIdentifier hkey
    rw [hchars] at h
    simp only [List.cons_append, List.cons.injEq] at h
    exact ne_of_holds hfirst (show beginsIdentifier '\x7d' = false from rfl) h.1
  · rw [toList_literal] at h
    simp at h

/-- The properties of an object are told apart from the line that closes it. -/
theorem properties_append_inj {properties properties' : List (String × String)}
    (hcalls : ∀ property ∈ properties, EndsCall property.2.toList)
    (hcalls' : ∀ property ∈ properties', EndsCall property.2.toList)
    {closing : String} (hclosing : ∃ rest, closing.toList = '\x7d' :: rest) {x y : List String}
    (h : (propertyLines properties).texts ++ closing :: x =
      (propertyLines properties').texts ++ closing :: y) :
    properties = properties' ∧ x = y := by
  obtain ⟨end', hend⟩ := hclosing
  induction properties generalizing properties' with
  | nil =>
      -- a closing line in the place of a property would begin with a brace, and no key does
      cases properties' with
      | nil => exact ⟨rfl, by simpa [propertyLines, Layout.texts] using h⟩
      | cons property others =>
          obtain ⟨key, value⟩ := property
          obtain ⟨text, htexts, htext⟩ := texts_propertyLines_cons key value others
          rw [htexts] at h
          simp only [propertyLines, Layout.texts, List.map_nil, List.nil_append,
            List.cons_append, List.cons.injEq] at h
          rw [← h.1, hend] at htext
          exact absurd htext.symm objectKey_append_ne_closer
  | cons property others ih =>
      obtain ⟨key, value⟩ := property
      obtain ⟨text, htexts, htext⟩ := texts_propertyLines_cons key value others
      rw [htexts] at h
      cases properties' with
      | nil =>
          simp only [propertyLines, Layout.texts, List.map_nil, List.nil_append,
            List.cons_append, List.cons.injEq] at h
          rw [h.1, hend] at htext
          exact absurd htext.symm objectKey_append_ne_closer
      | cons property' others' =>
          obtain ⟨key', value'⟩ := property'
          obtain ⟨text', htexts', htext'⟩ := texts_propertyLines_cons key' value' others'
          rw [htexts'] at h
          simp only [List.cons_append, List.cons.injEq] at h
          obtain ⟨hsame, hlines⟩ := h
          rw [hsame, htext'] at htext
          obtain ⟨rfl, hvalues⟩ := objectKey_append_inj (apart_ofList rfl _) (apart_ofList rfl _)
            htext.symm
          have hvalue : value.toList = value'.toList :=
            value_append_separator_inj (hcalls (key, value) (by simp))
              (hcalls' (key, value') (by simp)) (List.append_cancel_left hvalues)
          obtain ⟨rfl, hrest⟩ := ih (fun other hmem => hcalls other (List.mem_cons_of_mem _ hmem))
            (fun other hmem => hcalls' other (List.mem_cons_of_mem _ hmem)) hlines
          rw [String.toList_inj.mp hvalue]
          exact ⟨rfl, hrest⟩

/-! ## Widgets -/

theorem toList_line_inj {text text' : String} {rest rest' : List String}
    (h : text :: rest = text' :: rest') : text.toList ++ [] = text'.toList ++ [] := by
  rw [(List.cons.inj h).1]

theorem optionText_ne_closing (option : String) : optionText option ≠ "</Select>" := by
  unfold optionText
  simp only [String.append_assoc]
  exact fun h => append_ne_of_clash _ "" rfl (h.trans String.append_empty.symm)

theorem options_append_inj {options options' x y : List String}
    (h : (optionLines options).texts ++ "</Select>" :: x =
      (optionLines options').texts ++ "</Select>" :: y) : options = options' ∧ x = y := by
  induction options generalizing options' with
  | nil =>
      cases options' with
      | nil => exact ⟨rfl, (List.cons.inj h).2⟩
      | cons option' _ => exact absurd (List.cons.inj h).1.symm (optionText_ne_closing option')
  | cons option others ih =>
      cases options' with
      | nil => exact absurd (List.cons.inj h).1 (optionText_ne_closing option)
      | cons option' others' =>
          have hline := toList_line_inj h
          unfold optionText at hline
          simp only [String.toList_append, List.append_assoc] at hline
          obtain ⟨rfl, -⟩ := attributeText_append_inj (List.append_cancel_left hline)
          obtain ⟨rfl, hrest⟩ := ih (List.cons.inj h).2
          exact ⟨rfl, hrest⟩

theorem inlineWidget_append_inj {attributes element element' : String} {x y : List String}
    (h : (inlineWidget attributes element).texts ++ x =
      (inlineWidget attributes element').texts ++ y) : element = element' ∧ x = y := by
  have hline := toList_line_inj h
  unfold inlineText at hline
  simp only [String.toList_append, List.append_assoc] at hline
  have helement := List.append_cancel_left
    (List.append_cancel_left (List.append_cancel_left hline))
  exact ⟨String.toList_inj.mp (List.append_cancel_right helement), (List.cons.inj h).2⟩

theorem inlineWidget_append_ne_framed {attributes element : String} {content : Layout}
    {x y : List String} :
    (inlineWidget attributes element).texts ++ x ≠
      (framedWidget attributes content).texts ++ y := by
  intro h
  have hline := toList_line_inj h
  unfold inlineText framedText at hline
  simp only [String.toList_append, List.append_assoc] at hline
  exact false_of_clash (List.append_cancel_left (List.append_cancel_left hline)) rfl

theorem framedWidget_append_inj {attributes : String} {content content' : Layout}
    {x y : List String} (h : (framedWidget attributes content).texts ++ x =
      (framedWidget attributes content').texts ++ y) :
    content.texts ++ ")\x7d</Field>" :: x = content'.texts ++ ")\x7d</Field>" :: y := by
  simpa [framedWidget] using h

/-- The attributes of a checkbox begin with its type, those of other widgets with the name. -/
theorem checkbox_append_ne {name : String} {x y : List Char} :
    "type=\"checkbox\" ".toList ++ x ≠ (attributeText "name" name).toList ++ y := by
  intro h
  have hname : ∃ rest, (attributeText "name" name).toList = "name".toList ++ rest := by
    unfold attributeText
    split
    · simp only [String.toList_append, List.append_assoc]
      exact ⟨_, rfl⟩
    · simp only [String.toList_append, List.append_assoc]
      exact ⟨_, rfl⟩
  obtain ⟨rest, hrest⟩ := hname
  rw [hrest, List.append_assoc] at h
  exact false_of_clash h rfl

theorem checkbox_append_ne_inline {name element element' : String} {x y : List String} :
    (inlineWidget ("type=\"checkbox\" " ++ attributeText "name" name) element).texts ++ x ≠
      (inlineWidget (attributeText "name" name) element').texts ++ y := by
  intro h
  have hline := toList_line_inj h
  unfold inlineText at hline
  simp only [String.toList_append, List.append_assoc] at hline
  exact checkbox_append_ne (List.append_cancel_left hline)

theorem checkbox_append_ne_framed {name element : String} {content : Layout}
    {x y : List String} :
    (inlineWidget ("type=\"checkbox\" " ++ attributeText "name" name) element).texts ++ x ≠
      (framedWidget (attributeText "name" name) content).texts ++ y := by
  intro h
  have hline := toList_line_inj h
  unfold inlineText framedText at hline
  simp only [String.toList_append, List.append_assoc] at hline
  exact checkbox_append_ne (List.append_cancel_left hline)

/-! Elements that set the value themselves begin with tags of their own. -/

theorem numberText_ne_selectText (name : String) : numberText name ≠ selectText name := by
  unfold numberText selectText
  simp only [String.append_assoc]
  exact append_ne_of_clash _ _ rfl

theorem numberText_ne_dateText (name : String) : numberText name ≠ dateText name := by
  unfold numberText dateText
  simp only [String.append_assoc]
  exact append_ne_of_clash _ _ rfl

theorem selectText_ne_dateText (name : String) : selectText name ≠ dateText name := by
  unfold selectText dateText
  simp only [String.append_assoc]
  exact append_ne_of_clash _ _ rfl

/-- Under one name the widget tells the kind of the field, with its options. -/
theorem widget_append_inj {a b : FieldSchema} (hname : a.name = b.name) {x y : List String}
    (h : (widget a).texts ++ x = (widget b).texts ++ y) : a.kind = b.kind ∧ x = y := by
  unfold widget at h
  rw [hname] at h
  generalize a.kind = kind at h ⊢
  generalize b.kind = kind' at h ⊢
  cases kind with
  | input =>
      cases kind' with
      | input => exact ⟨rfl, (inlineWidget_append_inj h).2⟩
      | textarea => exact absurd (inlineWidget_append_inj h).1 (by decide)
      | checkbox => exact absurd h.symm checkbox_append_ne_inline
      | number | select | date => exact absurd h inlineWidget_append_ne_framed
  | textarea =>
      cases kind' with
      | input => exact absurd (inlineWidget_append_inj h).1 (by decide)
      | textarea => exact ⟨rfl, (inlineWidget_append_inj h).2⟩
      | checkbox => exact absurd h.symm checkbox_append_ne_inline
      | number | select | date => exact absurd h inlineWidget_append_ne_framed
  | checkbox =>
      cases kind' with
      | checkbox => exact ⟨rfl, (inlineWidget_append_inj h).2⟩
      | input | textarea => exact absurd h checkbox_append_ne_inline
      | number | select | date => exact absurd h checkbox_append_ne_framed
  | number =>
      cases kind' with
      | input | textarea => exact absurd h.symm inlineWidget_append_ne_framed
      | checkbox => exact absurd h.symm checkbox_append_ne_framed
      | number =>
          have hcontent := framedWidget_append_inj h
          exact ⟨rfl, (List.cons.inj (List.append_cancel_left hcontent)).2⟩
      | select =>
          exact absurd (List.cons.inj (framedWidget_append_inj h)).1 (numberText_ne_selectText _)
      | date =>
          exact absurd (List.cons.inj (framedWidget_append_inj h)).1 (numberText_ne_dateText _)
  | select options =>
      cases kind' with
      | input | textarea => exact absurd h.symm inlineWidget_append_ne_framed
      | checkbox => exact absurd h.symm checkbox_append_ne_framed
      | select options' =>
          have hcontent := framedWidget_append_inj h
          simp only [Layout.texts_append, Layout.texts_line, Layout.texts_nested,
            List.append_assoc, List.cons_append, List.nil_append, List.cons.injEq,
            true_and] at hcontent
          obtain ⟨rfl, hrest⟩ := options_append_inj hcontent
          exact ⟨rfl, (List.cons.inj hrest).2⟩
      | number =>
          exact absurd (List.cons.inj (framedWidget_append_inj h)).1
            (numberText_ne_selectText _).symm
      | date =>
          exact absurd (List.cons.inj (framedWidget_append_inj h)).1 (selectText_ne_dateText _)
  | date =>
      cases kind' with
      | input | textarea => exact absurd h.symm inlineWidget_append_ne_framed
      | checkbox => exact absurd h.symm checkbox_append_ne_framed
      | date =>
          have hcontent := framedWidget_append_inj h
          exact ⟨rfl, (List.cons.inj (List.append_cancel_left hcontent)).2⟩
      | number =>
          exact absurd (List.cons.inj (framedWidget_append_inj h)).1
            (numberText_ne_dateText _).symm
      | select =>
          exact absurd (List.cons.inj (framedWidget_append_inj h)).1
            (selectText_ne_dateText _).symm

/-! ## Fields -/

theorem exists_cons_widget (field : FieldSchema) :
    ∃ text lines, (widget field).texts = text :: lines ∧
      ∃ rest, text.toList = "<Field ".toList ++ rest := by
  unfold widget
  cases field.kind with
  | input | textarea | checkbox =>
      refine ⟨_, _, rfl, ?_⟩
      unfold inlineText
      simp only [String.toList_append, List.append_assoc]
      exact ⟨_, rfl⟩
  | number | select | date =>
      refine ⟨_, _, rfl, ?_⟩
      unfold framedText
      simp only [String.toList_append, List.append_assoc]
      exact ⟨_, rfl⟩

/-- A widget that is always shown does not begin as one that is shown on a condition. -/
theorem widget_append_ne_when {a : FieldSchema} {expr : BoolExpr} {content : Layout}
    {x y : List String} :
    (widget a).texts ++ x ≠ (shownLines (.when expr) content).texts ++ y := by
  intro h
  obtain ⟨text, lines, htexts, rest, htext⟩ := exists_cons_widget a
  rw [htexts] at h
  have hline := toList_line_inj h
  rw [htext] at hline
  unfold whenText at hline
  simp only [String.toList_append, List.append_assoc] at hline
  exact false_of_clash hline rfl

theorem shown_append_inj {v w : Visibility} {a b : FieldSchema} (hname : a.name = b.name)
    {x y : List String} (h : (shownLines v (widget a)).texts ++ x =
      (shownLines w (widget b)).texts ++ y) : v.Alike w ∧ a.kind = b.kind ∧ x = y := by
  cases v with
  | always =>
      cases w with
      | always => exact ⟨.always, widget_append_inj hname h⟩
      | «when» expr' => exact absurd h widget_append_ne_when
  | «when» expr =>
      cases w with
      | always => exact absurd h.symm widget_append_ne_when
      | «when» expr' =>
          simp only [shownLines, Layout.texts_append, Layout.texts_line, Layout.texts_nested,
            List.append_assoc, List.cons_append, List.nil_append, List.cons.injEq] at h
          have hline := congrArg String.toList h.1
          unfold whenText at hline
          simp only [String.toList_append] at hline
          have hexpr := List.append_cancel_left (List.append_cancel_right hline)
          obtain ⟨hkind, hrest⟩ := widget_append_inj hname h.2
          exact ⟨.when (expression_inj (String.toList_inj.mp hexpr)), hkind,
            (List.cons.inj hrest).2⟩

theorem field_append_inj {c d : CompiledField} (hname : c.field.name = d.field.name)
    {x y : List String} (h : (fieldLines c).texts ++ x = (fieldLines d).texts ++ y) :
    c.field.label = d.field.label ∧ c.field.kind = d.field.kind ∧
      c.visibility.Alike d.visibility ∧ x = y := by
  simp only [fieldLines, Layout.texts_append, Layout.texts_line, Layout.texts_nested,
    List.append_assoc, List.cons_append, List.nil_append, List.cons.injEq] at h
  obtain ⟨-, hlabel, hshown⟩ := h
  have hline := congrArg String.toList hlabel
  unfold labelText at hline
  simp only [String.toList_append] at hline
  have hchild := List.append_cancel_left (List.append_cancel_right hline)
  obtain ⟨hvisibility, hkind, hrest⟩ := shown_append_inj hname hshown
  exact ⟨childText_inj (String.toList_inj.mp hchild), hkind, hvisibility, (List.cons.inj hrest).2⟩

/-- Fields whose properties in the schema agree and whose blocks agree are alike. -/
theorem blocks_inj {fields fields' : List CompiledField}
    (hschema : List.Forall₂ (fun c d => c.field.name = d.field.name ∧
      c.validation.sourceText = d.validation.sourceText) fields fields')
    {x y : List String} (h : (blockLines fields).texts ++ x = (blockLines fields').texts ++ y) :
    List.Forall₂ CompiledField.Alike fields fields' := by
  induction hschema with
  | nil => exact .nil
  | cons hfield _ ih =>
      obtain ⟨hname, hchain⟩ := hfield
      simp only [blockLines, Layout.texts_append, List.append_assoc] at h
      obtain ⟨hlabel, hkind, hvisibility, hrest⟩ := field_append_inj hname h
      exact .cons ⟨hname, hlabel, hkind, chain_inj hchain, hvisibility⟩ (ih hrest)

/-! ## The component -/

/-- The lines behind the properties of the schema, up to the initial values. -/
def linesToInitial (config : EmitterConfig) : List String :=
  ["", functionText config.componentName, "return (", "<Formik", "initialValues=\x7b\x7b"]

def linesToBlocks : List String :=
  ["\x7d\x7d", "validationSchema=\x7bvalidationSchema\x7d",
    "onSubmit=\x7b(values) => console.log('submit', values)\x7d", ">",
    "\x7b(\x7b handleSubmit, values \x7d) => (", "<Form onSubmit=\x7bhandleSubmit\x7d>"]

def linesAfterBlocks (config : EmitterConfig) : List String :=
  [submitText config.submitLabel, "</Form>", ")\x7d", "</Formik>", ");", "\x7d"]

theorem texts_componentLines (fields : List CompiledField) (config : EmitterConfig) :
    (componentLines fields config).texts =
      (importLines.texts ++ ["", "const validationSchema = yup.object().shape(\x7b"]) ++
        ((propertyLines (schemaProperties fields)).texts ++
          "\x7d);" :: (linesToInitial config ++
            ((propertyLines (initialProperties fields)).texts ++
              (linesToBlocks ++ ((blockLines fields).texts ++ linesAfterBlocks config))))) := by
  simp only [componentLines, schemaLines, functionLines, stateLines, initialLines, formLines,
    linesToInitial, linesToBlocks, linesAfterBlocks, Layout.texts_append, Layout.texts_nested,
    Layout.texts_line, Layout.texts_blank, List.append_assoc, List.cons_append, List.nil_append]

theorem forall₂_of_map_eq {α β : Type} {first second : List α} {f g : α → β}
    (h : first.map (fun a => (f a, g a)) = second.map fun a => (f a, g a)) :
    List.Forall₂ (fun a b => f a = f b ∧ g a = g b) first second := by
  rw [← List.forall₂_eq_eq_eq, List.forall₂_map_left_iff, List.forall₂_map_right_iff] at h
  exact h.imp fun _ _ hpair => Prod.mk.inj hpair

/-- Components with equal lines have alike fields. -/
theorem alike_of_texts_eq {fields fields' : List CompiledField} {config : EmitterConfig}
    (h : (componentLines fields config).texts = (componentLines fields' config).texts) :
    List.Forall₂ CompiledField.Alike fields fields' := by
  rw [texts_componentLines, texts_componentLines] at h
  have hcalls : ∀ (list : List CompiledField), ∀ property ∈ schemaProperties list,
      EndsCall property.2.toList := by
    intro list property hmem
    obtain ⟨c, -, rfl⟩ := List.mem_map.mp hmem
    exact endsCall_chain c.validation
  obtain ⟨hschema, hrest⟩ := properties_append_inj (hcalls fields) (hcalls fields')
    ⟨_, String.toList_ofList⟩ (List.append_cancel_left h)
  have hfields := forall₂_of_map_eq hschema
  have hlength : (propertyLines (initialProperties fields)).texts.length =
      (propertyLines (initialProperties fields')).texts.length := by
    simp only [length_texts_propertyLines, initialProperties, List.length_map]
    exact hfields.length_eq
  have hinitial := List.append_inj (List.append_cancel_left hrest) hlength
  exact blocks_inj hfields (List.append_cancel_left hinitial.2)

/-- Alike fields are written on the same lines. -/
theorem widget_eq_of_alike {c d : CompiledField} (h : c.Alike d) :
    widget c.field = widget d.field := by
  unfold widget
  rw [h.name, h.kind]

theorem fieldLines_eq_of_alike {c d : CompiledField} (h : c.Alike d) :
    fieldLines c = fieldLines d := by
  have hwidget := widget_eq_of_alike h
  have hshown : shownLines c.visibility (widget c.field) =
      shownLines d.visibility (widget d.field) := by
    rw [hwidget]
    have hvisibility := h.visibility
    generalize c.visibility = v at hvisibility ⊢
    generalize d.visibility = w at hvisibility ⊢
    cases hvisibility with
    | always => rfl
    | «when» hexpr =>
        unfold shownLines whenText
        simp only [hexpr.sourceText_eq]
  unfold fieldLines
  rw [h.name, h.label, hshown]

theorem map_eq_of_alike {β : Type} {f : CompiledField → β}
    (hf : ∀ {c d : CompiledField}, c.Alike d → f c = f d) {fields fields' : List CompiledField}
    (h : List.Forall₂ CompiledField.Alike fields fields') : fields.map f = fields'.map f := by
  induction h with
  | nil => rfl
  | cons hfield _ ih => rw [List.map_cons, List.map_cons, hf hfield, ih]

theorem componentLines_eq_of_alike {fields fields' : List CompiledField}
    (h : List.Forall₂ CompiledField.Alike fields fields') (config : EmitterConfig) :
    componentLines fields config = componentLines fields' config := by
  have hblocks : blockLines fields = blockLines fields' := by
    induction h with
    | nil => rfl
    | cons hfield _ ih => rw [blockLines, blockLines, fieldLines_eq_of_alike hfield, ih]
  have hschema : schemaProperties fields = schemaProperties fields' :=
    map_eq_of_alike (fun hfield => by simp only [hfield.name, hfield.validation.sourceText_eq]) h
  have hinitial : initialProperties fields = initialProperties fields' :=
    map_eq_of_alike (fun hfield => by simp only [hfield.name, FieldSchema.type, hfield.kind]) h
  unfold componentLines schemaLines functionLines stateLines initialLines formLines
  rw [hblocks, hschema, hinitial]

theorem source_eq_of_alike {form other : CompiledForm}
    (h : List.Forall₂ CompiledField.Alike form.fields other.fields) (config : EmitterConfig) :
    form.source config = other.source config := by
  rw [CompiledForm.source_eq, CompiledForm.source_eq, componentLines_eq_of_alike h]

/-- Two forms have the same source exactly when their compiled fields are alike, one by one. -/
theorem source_eq_iff_alike (first second : FormSchema) {config : EmitterConfig}
    (h : config.problem? = none) :
    first.compile.source config = second.compile.source config ↔
      List.Forall₂ CompiledField.Alike first.compile.fields second.compile.fields := by
  constructor
  · intro hsource
    have hname := isIdentifier_componentName h
    have htexts := congrArg textsOf hsource
    rw [textsOf_source _ hname, textsOf_source _ hname] at htexts
    exact alike_of_texts_eq htexts
  · exact fun halike => source_eq_of_alike halike config

/-- A form with one field of a label. -/
def labelled (label : String) : FormSchema :=
  ⟨[{ id := "1"
      name := "note"
      label
      kind := .input
      columns := .one
      validation := .none
      conditions := []
      group := none }]⟩

/-- A label that closes its own tag is not taken for markup. -/
theorem source_ne_of_label :
    EmitterConfig.defaults.problem? = none ∧
      (labelled "Note</label><div>").compile.source .defaults ≠
        (labelled "Note").compile.source .defaults := by
  refine ⟨by decide, fun hsource => ?_⟩
  have halike := (source_eq_iff_alike _ _ (by decide)).mp hsource
  cases halike with
  | cons hfield _ => exact absurd hfield.label (by decide)

end FormCompiler.Source
