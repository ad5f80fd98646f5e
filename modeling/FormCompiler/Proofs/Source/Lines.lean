import FormCompiler.Proofs.Source.Composition
import FormCompiler.Proofs.Source.Rendering
import FormCompiler.Proofs.Source.Written

/-!
# The lines of generated source

Every line of a component is tidy: no text of a user brings a line end into it, and it does not
begin with a space.  So the lines of the component are the lines of the rendered source, equal
sources come from layouts with equal texts, and no source has a carriage return.
-/

namespace FormCompiler.Source

/-! ## Texts on one line -/

/-- A text without line feeds and without carriage returns. -/
def OneLine (text : List Char) : Prop := '\n' ∉ text ∧ '\r' ∉ text

theorem OneLine.append {first second : List Char} (hfirst : OneLine first)
    (hsecond : OneLine second) : OneLine (first ++ second) :=
  ⟨fun hmem => (List.mem_append.mp hmem).elim hfirst.1 hsecond.1,
    fun hmem => (List.mem_append.mp hmem).elim hfirst.2 hsecond.2⟩

/-- A text of a class without line ends stands on one line. -/
theorem oneLine_of_holds {holds : Char → Bool} {text : List Char}
    (h : ∀ c ∈ text, holds c = true) (hends : (holds '\n' || holds '\r') = false) :
    OneLine text := by
  obtain ⟨hfeed, hreturn⟩ := Bool.or_eq_false_iff.mp hends
  exact ⟨fun hmem => Bool.false_ne_true (hfeed.symm.trans (h _ hmem)),
    fun hmem => Bool.false_ne_true (hreturn.symm.trans (h _ hmem))⟩

theorem oneLine_of_contains {text : List Char}
    (h : (text.contains '\n' || text.contains '\r') = false) : OneLine text :=
  oneLine_of_holds (fun _ => List.contains_iff_mem.mpr) h

theorem oneLine_ofList {chars : List Char}
    (h : (chars.contains '\n' || chars.contains '\r') = false) :
    OneLine (String.ofList chars).toList := by
  rw [String.toList_ofList]
  exact oneLine_of_contains h

theorem oneLine_literalChar (c : Char) : OneLine (literalChar c) := by
  have hwritten := writtenAs_literalChar c
  generalize literalChar c = written at hwritten ⊢
  cases hwritten with
  | bare h =>
      have hbare : ∀ d ∈ [c], standsBare d = true := fun d hmem => by
        rwa [List.mem_singleton.mp hmem]
      exact oneLine_of_holds hbare rfl
  | marked h =>
      have hmarks : marks.all (fun pair =>
          !(['\\', pair.2].contains '\n' || ['\\', pair.2].contains '\r')) = true := rfl
      exact oneLine_of_contains (Bool.not_eq_true' _ ▸ List.all_eq_true.mp hmarks _ h)
  | coded h =>
      have hcode : OneLine ['\\', 'u'] := oneLine_of_contains rfl
      exact hcode.append (oneLine_of_holds (fun _ => isAlphanum_of_mem_fourDigits h) rfl)

theorem oneLine_literalBody (text : String) : OneLine (literalBody text) := by
  unfold literalBody
  induction text.toList with
  | nil => exact oneLine_of_contains rfl
  | cons c rest ih =>
      rw [List.flatMap_cons]
      exact (oneLine_literalChar c).append ih

theorem oneLine_literal (text : String) : OneLine (literal text).toList := by
  have hquote : OneLine ['"'] := oneLine_of_contains rfl
  rw [toList_literal_eq_body]
  exact hquote.append ((oneLine_literalBody text).append hquote)

theorem oneLine_identifier {name : String} (h : isIdentifier name = true) :
    OneLine name.toList := oneLine_of_holds (fun _ => isIdentifierChar_of_mem h) rfl

theorem oneLine_number (x : Binary64) : OneLine x.sourceText.toList :=
  oneLine_of_holds (fun _ => isNumberChar_of_mem_sourceText x) rfl

theorem oneLine_braced (text : String) : OneLine (braced text).toList := by
  simp only [braced, String.toList_append]
  exact ((oneLine_ofList rfl).append (oneLine_literal text)).append (oneLine_ofList rfl)

theorem oneLine_attributeText {name : String} (hname : OneLine name.toList) (text : String) :
    OneLine (attributeText name text).toList := by
  unfold attributeText
  split
  · next h =>
    simp only [String.toList_append]
    exact ((hname.append (oneLine_ofList rfl)).append
      (oneLine_of_holds (fun _ => isPlainInAttribute_of_mem h) rfl)).append (oneLine_ofList rfl)
  · simp only [String.toList_append]
    exact (hname.append (oneLine_ofList rfl)).append (oneLine_braced text)

theorem oneLine_childText (text : String) : OneLine (childText text).toList := by
  unfold childText
  split
  · next h => exact oneLine_of_holds (fun _ => isPlainBetweenTags_of_mem h) (by decide)
  · exact oneLine_braced text

theorem oneLine_memberAccess {object : String} (hobject : OneLine object.toList) (name : String) :
    OneLine (memberAccess object name).toList := by
  unfold memberAccess
  split
  · next h =>
    simp only [String.toList_append]
    exact (hobject.append (oneLine_ofList rfl)).append (oneLine_identifier h)
  · simp only [String.toList_append]
    exact ((hobject.append (oneLine_ofList rfl)).append (oneLine_literal name)).append
      (oneLine_ofList rfl)

theorem oneLine_clause (clause : RuleClause) : OneLine clause.sourceText.toList := by
  unfold RuleClause.sourceText
  cases clause with
  | required message =>
      simp only [String.toList_append]
      exact ((oneLine_ofList rfl).append (oneLine_literal message)).append (oneLine_ofList rfl)
  | min limit message =>
      simp only [String.toList_append]
      exact ((((oneLine_ofList rfl).append (oneLine_number limit)).append
        (oneLine_ofList rfl)).append (oneLine_literal message)).append (oneLine_ofList rfl)
  | max limit message =>
      simp only [String.toList_append]
      exact ((((oneLine_ofList rfl).append (oneLine_number limit)).append
        (oneLine_ofList rfl)).append (oneLine_literal message)).append (oneLine_ofList rfl)
  | pattern source message =>
      simp only [String.toList_append]
      exact ((((oneLine_ofList rfl).append (oneLine_literal source)).append
        (oneLine_ofList rfl)).append (oneLine_literal message)).append (oneLine_ofList rfl)
  | crossField other message =>
      have hparent : OneLine "this.parent".toList := oneLine_ofList rfl
      simp only [String.toList_append]
      exact ((((oneLine_ofList rfl).append (oneLine_literal message)).append
        (oneLine_ofList rfl)).append (oneLine_memberAccess hparent other)).append
          (oneLine_ofList rfl)

theorem oneLine_clauses (clauses : List RuleClause) :
    OneLine (RuleClause.listText clauses).toList := by
  induction clauses with
  | nil => exact oneLine_ofList rfl
  | cons clause rest ih =>
      simp only [RuleClause.listText, String.toList_append]
      exact (oneLine_clause clause).append ih

theorem oneLine_chain (chain : ValidationChain) : OneLine chain.sourceText.toList := by
  have hbase : OneLine chain.base.sourceText.toList := by
    cases chain.base <;> exact oneLine_ofList rfl
  simp only [ValidationChain.sourceText, String.toList_append]
  exact hbase.append (oneLine_clauses chain.clauses)

theorem oneLine_operand (operand : Operand) : OneLine operand.sourceText.toList := by
  cases operand with
  | text value => exact oneLine_literal value
  | number x => exact oneLine_number x
  | coerced value =>
      simp only [Operand.sourceText, String.toList_append]
      exact ((oneLine_ofList rfl).append (oneLine_literal value)).append (oneLine_ofList rfl)

theorem oneLine_predicate (p : Predicate) : OneLine p.sourceText.toList := by
  have hvalues : OneLine "values".toList := oneLine_ofList rfl
  have hmember := oneLine_memberAccess hvalues p.field
  have hoperand := oneLine_operand p.operand
  unfold Predicate.sourceText
  cases p.operator with
  | contains =>
      simp only [String.toList_append]
      exact ((((oneLine_ofList rfl).append hmember).append (oneLine_ofList rfl)).append
        hoperand).append (oneLine_ofList rfl)
  | equal | notEqual | greater | less =>
      simp only [String.toList_append]
      exact (hmember.append (oneLine_ofList rfl)).append hoperand

theorem oneLine_expression (expr : BoolExpr) : OneLine expr.sourceText.toList := by
  induction expr with
  | predicate p => exact oneLine_predicate p
  | combine left logic right hleft hright =>
      have hlogic : OneLine logic.sourceText.toList := by
        cases logic <;> exact oneLine_ofList rfl
      simp only [BoolExpr.sourceText, String.toList_append]
      exact ((((((oneLine_ofList rfl).append hleft).append (oneLine_ofList rfl)).append
        hlogic).append (oneLine_ofList rfl)).append hright).append (oneLine_ofList rfl)

/-! ## Tidy lines -/

/-- A text on one line whose first character is not a space. -/
structure Led (text : List Char) : Prop where
  first : ∃ c rest, text = c :: rest ∧ c ≠ ' '
  one_line : OneLine text

theorem Led.append {first second : List Char} (hfirst : Led first) (hsecond : OneLine second) :
    Led (first ++ second) := by
  obtain ⟨c, rest, rfl, hc⟩ := hfirst.first
  exact ⟨⟨c, rest ++ second, rfl, hc⟩, hfirst.one_line.append hsecond⟩

theorem Led.ne_empty {text : String} (h : Led text.toList) : text ≠ "" := by
  rintro rfl
  obtain ⟨c, rest, hchars, -⟩ := h.first
  exact List.cons_ne_nil c rest hchars.symm

theorem Led.isTidy {text : String} (h : Led text.toList) : IsTidy text := by
  obtain ⟨c, rest, hchars, hc⟩ := h.first
  refine ⟨h.one_line.1, h.one_line.2, ?_⟩
  simpa [hchars] using hc

theorem led_ofList {c : Char} {rest : List Char} (hc : (c == ' ') = false)
    (h : ((c :: rest).contains '\n' || (c :: rest).contains '\r') = false) :
    Led (String.ofList (c :: rest)).toList :=
  ⟨⟨c, rest, String.toList_ofList, by simpa using hc⟩, oneLine_ofList h⟩

theorem oneLine_setsValue (name : String) {parameters value : String}
    (hparameters : OneLine parameters.toList) (hvalue : OneLine value.toList) :
    OneLine (setsValue name parameters value).toList := by
  unfold setsValue
  simp only [String.toList_append]
  exact ((((((oneLine_ofList rfl).append hparameters).append (oneLine_ofList rfl)).append
    (oneLine_literal name)).append (oneLine_ofList rfl)).append hvalue).append (oneLine_ofList rfl)

/-- A key begins with a quote or as an identifier does. -/
theorem led_objectKey (name : String) : Led (objectKey name).toList := by
  unfold objectKey
  split
  · next h =>
    obtain ⟨first, rest, hchars, hfirst⟩ := exists_cons_of_isIdentifier h
    exact ⟨⟨first, rest, hchars, ne_of_holds hfirst rfl⟩, oneLine_identifier h⟩
  · refine ⟨?_, oneLine_literal name⟩
    rw [toList_literal_eq_body]
    exact ⟨'"', _, rfl, by decide⟩

theorem oneLine_propertyValue {value : String} (h : PropertyValue value) :
    OneLine value.toList := by
  cases h with
  | chain chain => exact oneLine_chain chain
  | initial type =>
      cases type with
      | checkbox => exact oneLine_ofList rfl
      | input | number | select | textarea | date => exact oneLine_literal ""

theorem led_property (key : String) {value : String} (h : PropertyValue value) :
    Led (propertyText key value).toList := by
  unfold propertyText
  simp only [String.toList_append]
  exact ((led_objectKey key).append (oneLine_ofList rfl)).append (oneLine_propertyValue h)

theorem led_fixed : ∀ text ∈ fixedLines, Led text.toList := by
  unfold fixedLines imports
  simp only [List.cons_append, List.nil_append, List.forall_mem_cons]
  exact ⟨led_ofList rfl rfl, led_ofList rfl rfl, led_ofList rfl rfl, led_ofList rfl rfl,
    led_ofList rfl rfl, led_ofList rfl rfl, led_ofList rfl rfl, led_ofList rfl rfl,
    led_ofList rfl rfl, by simp⟩

theorem led_plainLine {text : String} (h : PlainLine text) : Led text.toList := by
  have hkey : OneLine "key".toList := oneLine_ofList rfl
  have hvalue : OneLine "value".toList := oneLine_ofList rfl
  have hv : OneLine "v".toList := oneLine_ofList rfl
  have hdate : OneLine "date, dateString".toList := oneLine_ofList rfl
  have htext : OneLine "dateString".toList := oneLine_ofList rfl
  have hstyle : OneLine fullWidth.toList := oneLine_ofList rfl
  cases h with
  | fixed h => exact led_fixed text h
  | lastProperty key h => exact led_property key h
  | property key h =>
      rw [String.toList_append]
      exact (led_property key h).append (oneLine_ofList rfl)
  | option option =>
      unfold optionText
      simp only [String.toList_append]
      exact ((((((led_ofList rfl rfl).append (oneLine_attributeText hkey option)).append
        (oneLine_ofList rfl)).append (oneLine_attributeText hvalue option)).append
          (oneLine_ofList rfl)).append (oneLine_childText option)).append (oneLine_ofList rfl)
  | number name =>
      unfold numberText
      simp only [String.toList_append]
      exact ((((led_ofList rfl rfl).append (oneLine_setsValue name hv hv)).append
        (oneLine_ofList rfl)).append hstyle).append (oneLine_ofList rfl)
  | date name =>
      unfold dateText
      simp only [String.toList_append]
      exact ((((led_ofList rfl rfl).append (oneLine_setsValue name hdate htext)).append
        (oneLine_ofList rfl)).append hstyle).append (oneLine_ofList rfl)
  | label text =>
      unfold labelText
      simp only [String.toList_append]
      exact ((led_ofList rfl rfl).append (oneLine_childText text)).append (oneLine_ofList rfl)
  | button text =>
      unfold submitText
      simp only [String.toList_append]
      exact ((led_ofList rfl rfl).append (oneLine_childText text)).append (oneLine_ofList rfl)

theorem led_bindingLine {name text : String} (h : BindingLine name text) : Led text.toList := by
  have hname : OneLine "name".toList := oneLine_ofList rfl
  have hnamed := oneLine_attributeText hname name
  cases h with
  | @plain element h =>
      have helement : OneLine element.toList := by
        revert element
        simp only [plainElements, List.forall_mem_cons]
        exact ⟨oneLine_ofList rfl, oneLine_ofList rfl, by simp⟩
      unfold inlineText
      simp only [String.toList_append]
      exact ((((led_ofList rfl rfl).append hnamed).append (oneLine_ofList rfl)).append
        helement).append (oneLine_ofList rfl)
  | checkbox =>
      unfold inlineText
      simp only [String.toList_append]
      exact ((((led_ofList rfl rfl).append ((oneLine_ofList rfl).append hnamed)).append
        (oneLine_ofList rfl)).append (oneLine_ofList rfl)).append (oneLine_ofList rfl)

theorem led_frame {first last : String} (h : Frame first last) :
    Led first.toList ∧ Led last.toList := by
  cases h with
  | schema | initial | form | child | body => exact ⟨led_ofList rfl rfl, led_ofList rfl rfl⟩
  | function hname =>
      refine ⟨?_, led_ofList rfl rfl⟩
      unfold functionText
      simp only [String.toList_append]
      exact ((led_ofList rfl rfl).append (oneLine_identifier hname)).append (oneLine_ofList rfl)
  | block name =>
      have hkey : OneLine "key".toList := oneLine_ofList rfl
      refine ⟨?_, led_ofList rfl rfl⟩
      unfold blockText
      simp only [String.toList_append]
      exact ((led_ofList rfl rfl).append (oneLine_attributeText hkey name)).append
        (oneLine_ofList rfl)
  | shown expr =>
      refine ⟨?_, led_ofList rfl rfl⟩
      unfold whenText
      simp only [String.toList_append]
      exact ((led_ofList rfl rfl).append (oneLine_expression expr)).append (oneLine_ofList rfl)
  | select name =>
      have hv : OneLine "v".toList := oneLine_ofList rfl
      have hstyle : OneLine fullWidth.toList := oneLine_ofList rfl
      refine ⟨?_, led_ofList rfl rfl⟩
      unfold selectText
      simp only [String.toList_append]
      exact ((((led_ofList rfl rfl).append (oneLine_setsValue name hv hv)).append
        (oneLine_ofList rfl)).append hstyle).append (oneLine_ofList rfl)

theorem led_bindingTag (name : String) :
    Led (framedText (attributeText "name" name)).toList := by
  have hname : OneLine "name".toList := oneLine_ofList rfl
  unfold framedText
  simp only [String.toList_append]
  exact ((led_ofList rfl rfl).append (oneLine_attributeText hname name)).append
    (oneLine_ofList rfl)

/-! ## Tidy layouts -/

def AllTidy (layout : Layout) : Prop := ∀ text ∈ layout.texts, IsTidy text

theorem AllTidy.append {first second : Layout} (hfirst : AllTidy first)
    (hsecond : AllTidy second) : AllTidy (first ++ second) := by
  intro text hmem
  rw [Layout.texts_append] at hmem
  exact (List.mem_append.mp hmem).elim (hfirst text) (hsecond text)

theorem AllTidy.nested {layout : Layout} (h : AllTidy layout) : AllTidy layout.nested := by
  unfold AllTidy
  rwa [Layout.texts_nested]

theorem Led.allTidy {text : String} (h : Led text.toList) : AllTidy (.line text) := by
  intro line hmem
  rw [List.mem_singleton.mp hmem]
  exact h.isTidy

theorem allTidy_blank : AllTidy .blank := by
  intro line hmem
  rw [List.mem_singleton.mp hmem]
  exact ⟨by decide, by decide, by decide⟩

theorem allTidy_of_composed {names : List String} {outline : Outline} {layout : Layout}
    (h : Composed names outline layout) : AllTidy layout := by
  induction h with
  | nil => exact fun _ hmem => absurd hmem List.not_mem_nil
  | blank => exact allTidy_blank
  | line h => exact (led_plainLine h).allTidy
  | binding h => exact (led_bindingLine h).allTidy
  | append _ _ hfirst hsecond => exact hfirst.append hsecond
  | nested _ ih => exact ih.nested
  | frame h _ ih => exact ((led_frame h).1.allTidy.append ih.nested).append (led_frame h).2.allTidy
  | bindingFrame name _ ih =>
      exact ((led_bindingTag name).allTidy.append ih.nested).append (led_ofList rfl rfl).allTidy

theorem allTidy_component (fields : List CompiledField) {config : EmitterConfig}
    (hname : isIdentifier config.componentName = true) :
    AllTidy (componentLines fields config) :=
  allTidy_of_composed (Composed.component fields hname)

/-- The lines of a generated source are the texts of its layout. -/
theorem textsOf_source (form : CompiledForm) {config : EmitterConfig}
    (hname : isIdentifier config.componentName = true) :
    textsOf (form.source config) = (componentLines form.fields config).texts := by
  rw [CompiledForm.source_eq]
  exact textsOf_render config.indentWidth (allTidy_component form.fields hname)

/-- All line ends of a generated source are line feeds. -/
theorem return_not_mem_source (form : CompiledForm) {config : EmitterConfig}
    (hname : isIdentifier config.componentName = true) :
    '\r' ∉ (form.source config).toList := by
  rw [CompiledForm.source_eq]
  exact return_not_mem_render config.indentWidth (allTidy_component form.fields hname)

end FormCompiler.Source

namespace FormCompiler.FormSchema

/-- Settings without a problem are no reason to refuse a form. -/
theorem generate_eq_ok (form : FormSchema) {config : EmitterConfig} (h : config.problem? = none) :
    form.generate config = .ok (form.compile.source config, form.compile.diagnostics) := by
  unfold generate EmitterConfig.check
  rw [h]
  rfl

/-- Settings for which something is generated have no problem. -/
theorem of_generate_eq_ok {form : FormSchema} {config : EmitterConfig} {source : String}
    {found : List Diagnostic} (h : form.generate config = .ok (source, found)) :
    config.problem? = none ∧ source = form.compile.source config := by
  cases hproblem : config.problem? with
  | some problem =>
      unfold generate EmitterConfig.check at h
      rw [hproblem] at h
      cases h
  | none =>
      rw [generate_eq_ok form hproblem] at h
      cases h
      exact ⟨rfl, rfl⟩

end FormCompiler.FormSchema
