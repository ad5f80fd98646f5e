import FormCompiler.Extraction.Basic
import FormCompiler.Proofs.Extraction.Silence
import FormCompiler.Proofs.Schema.Drafts
import FormCompiler.Proofs.Source.Composition
import FormCompiler.Proofs.Source.Rendering

/-!
# Extraction from generated source

The principal result is that the scan of a generated source finds the names of the form that are
plain identifiers, in the order of the fields, and nothing else.  All lines of the source but one
for each field are silent; the line with the widget of a field assigns its name.  The source also
mentions the numeric widget, so every extracted field is a number.
-/

namespace FormCompiler.Extraction

open Source

/-! ## Silent lines -/

theorem Assigns.silent_append {names : List (List Char)} {first second : List Char}
    (hfirst : Assigns [] first) (hsecond : Assigns names second) :
    Assigns names (first ++ second) := Assigns.append hfirst hsecond

theorem Assigns.append_silent {names : List (List Char)} {first second : List Char}
    (hfirst : Assigns names first) (hsecond : Assigns [] second) :
    Assigns names (first ++ second) := by
  simpa using Assigns.append hfirst hsecond

theorem silent_setsValue (name : String) {parameters value : String}
    (hparameters : Quiet parameters.toList) (hvalue : Quiet value.toList) :
    Silent (setsValue name parameters value).toList := by
  unfold setsValue
  simp only [String.toList_append]
  exact ((((((quiet_ofList rfl).append hparameters).append (quiet_ofList rfl)).before
    (quietBefore_literal name rfl)).append String.toList_ofList (quiet_of_isQuietFrom rfl)).append
      hvalue).silent (silent_ofList rfl rfl)

theorem quiet_key : Quiet ("key".toList ++ ['=']) := quiet_of_isQuietFrom rfl

theorem quiet_value : Quiet ("value".toList ++ ['=']) := quiet_of_isQuietFrom rfl

theorem silent_propertyValue {value : String} (h : PropertyValue value) :
    Silent value.toList := by
  cases h with
  | chain chain => exact silent_chain chain
  | initial type =>
      have hempty : literal "" = "\"\"" := by decide
      cases type with
      | checkbox => exact silent_ofList rfl rfl
      | input | number | select | textarea | date =>
          change Silent (literal "").toList
          rw [hempty]
          exact silent_ofList rfl rfl

theorem quiet_propertyKey (key : String) : Quiet ((objectKey key).toList ++ ": ".toList) :=
  (quietBefore_objectKey key).append String.toList_ofList (quiet_of_isQuietFrom rfl)

theorem silent_fixed : ∀ text ∈ fixedLines, Silent text.toList := by
  unfold fixedLines imports
  simp only [List.cons_append, List.nil_append, List.forall_mem_cons]
  exact ⟨silent_ofList rfl rfl, silent_ofList rfl rfl, silent_ofList rfl rfl,
    silent_ofList rfl rfl, silent_ofList rfl rfl, silent_ofList rfl rfl, silent_ofList rfl rfl,
    silent_ofList rfl rfl, silent_ofList rfl rfl, by simp⟩

/-- Only the lines that bind a field assign a name. -/
theorem silent_plainLine {text : String} (h : PlainLine text) : Silent text.toList := by
  have hv : Quiet "v".toList := quiet_ofList rfl
  have hdate : Quiet "date, dateString".toList := quiet_ofList rfl
  have htext : Quiet "dateString".toList := quiet_ofList rfl
  have hstyle : Quiet fullWidth.toList := quiet_ofList rfl
  cases h with
  | fixed h => exact silent_fixed text h
  | lastProperty key h =>
      unfold propertyText
      simp only [String.toList_append]
      exact (quiet_propertyKey key).silent (silent_propertyValue h)
  | property key h =>
      unfold propertyText
      simp only [String.toList_append]
      exact ((quiet_propertyKey key).append (silent_propertyValue h).quiet).silent
        (silent_ofList rfl rfl)
  | option option =>
      unfold optionText
      simp only [String.toList_append]
      exact ((((((quiet_ofList rfl).before
        (quietBefore_attributeText quiet_key option rfl (by decide))).append
          String.toList_ofList (quiet_of_isQuietFrom rfl)).before
            (quietBefore_attributeText quiet_value option rfl (by decide))).append
              String.toList_ofList (quiet_of_isQuietFrom rfl)).before
                (quietBefore_childText option)).silent String.toList_ofList rfl rfl
  | number name =>
      unfold numberText
      simp only [String.toList_append]
      exact ((((quiet_ofList rfl).append (silent_setsValue name hv hv).quiet).append
        (quiet_ofList rfl)).append hstyle).silent (silent_ofList rfl rfl)
  | date name =>
      unfold dateText
      simp only [String.toList_append]
      exact ((((quiet_ofList rfl).append (silent_setsValue name hdate htext).quiet).append
        (quiet_ofList rfl)).append hstyle).silent (silent_ofList rfl rfl)
  | label text =>
      unfold labelText
      simp only [String.toList_append]
      exact ((quiet_ofList rfl).before (quietBefore_childText text)).silent
        String.toList_ofList rfl rfl
  | button text =>
      unfold submitText
      simp only [String.toList_append]
      exact ((quiet_ofList rfl).before (quietBefore_childText text)).silent
        String.toList_ofList rfl rfl

theorem silent_frame {first last : String} (h : Frame first last) :
    Silent first.toList ∧ Silent last.toList := by
  cases h with
  | schema | initial | form | child | body => exact ⟨silent_ofList rfl rfl, silent_ofList rfl rfl⟩
  | function hname =>
      refine ⟨?_, silent_ofList rfl rfl⟩
      unfold functionText
      simp only [String.toList_append]
      exact ((quiet_ofList rfl).append (quiet_identifier hname)).silent (silent_ofList rfl rfl)
  | block name =>
      refine ⟨?_, silent_ofList rfl rfl⟩
      unfold blockText
      simp only [String.toList_append]
      exact ((quiet_ofList rfl).before
        (quietBefore_attributeText quiet_key name rfl (by decide))).silent
          String.toList_ofList rfl rfl
  | shown expr =>
      refine ⟨?_, silent_ofList rfl rfl⟩
      unfold whenText
      simp only [String.toList_append]
      exact ((quiet_ofList rfl).before (quietBefore_expression expr)).silent
        String.toList_ofList rfl rfl
  | select name =>
      have hv : Quiet "v".toList := quiet_ofList rfl
      have hstyle : Quiet fullWidth.toList := quiet_ofList rfl
      refine ⟨?_, silent_ofList rfl rfl⟩
      unfold selectText
      simp only [String.toList_append]
      exact ((((quiet_ofList rfl).append (silent_setsValue name hv hv).quiet).append
        (quiet_ofList rfl)).append hstyle).silent (silent_ofList rfl rfl)

/-! ## Lines that bind a field -/

theorem assigns_feed : Assigns [] ['\n'] := assigns_nil_of_not_mem (by decide)

theorem assigns_fixed {chars : List Char} (hquiet : isQuietFrom false chars = true)
    (hshut : chars.foldl shutAfter false = true) : Assigns [] chars :=
  assigns_nil_of_quiet (quiet_of_isQuietFrom hquiet) (shut_of_foldl [] (by simp) hshut)

/-- The tag that binds a widget to a field assigns the name of the field. -/
theorem assigns_tag {name : String} {attributes second rest : List Char}
    (h : Assigns (assignedBy name) (attributes ++ ['>'])) (hsecond : second = '>' :: rest)
    (hrest : Assigns [] rest) :
    Assigns (assignedBy name) ("<Field ".toList ++ attributes ++ second) := by
  have hopen : Assigns [] "<Field ".toList := (silent_ofList rfl rfl).assigns
  have hsplit : "<Field ".toList ++ attributes ++ second =
      "<Field ".toList ++ ((attributes ++ ['>']) ++ rest) := by simp [hsecond]
  rw [hsplit]
  exact hopen.silent_append (h.append_silent hrest)

theorem assigns_bindingLine {name text : String} (h : BindingLine name text) :
    Assigns (assignedBy name) text.toList := by
  have hnamed := assigns_assignedBy name
  cases h with
  | @plain element h =>
      have helement : Silent element.toList := by
        revert element
        simp only [plainElements, List.forall_mem_cons]
        exact ⟨silent_ofList rfl rfl, silent_ofList rfl rfl, by simp⟩
      unfold inlineText
      simp only [String.toList_append]
      exact ((assigns_tag hnamed String.toList_ofList (assigns_fixed rfl rfl)).append_silent
        helement.assigns).append_silent (silent_ofList rfl rfl).assigns
  | checkbox =>
      have htype : Assigns [] "type=\"checkbox\" ".toList := (silent_ofList rfl rfl).assigns
      have hattributes := htype.silent_append hnamed
      rw [← List.append_assoc] at hattributes
      unfold inlineText
      simp only [String.toList_append]
      exact ((assigns_tag hattributes String.toList_ofList (assigns_fixed rfl rfl)).append_silent
        (silent_ofList rfl rfl).assigns).append_silent (silent_ofList rfl rfl).assigns

theorem assigns_bindingTag (name : String) :
    Assigns (assignedBy name) (framedText (attributeText "name" name)).toList := by
  unfold framedText
  simp only [String.toList_append]
  exact assigns_tag (assigns_assignedBy name) String.toList_ofList (assigns_fixed rfl rfl)

/-! ## Layouts -/

/-- The lines of a layout assign the names, whatever follows them. -/
def LinesAssign (names : List (List Char)) (layout : Layout) : Prop :=
  layout.Rendered (Assigns names)

theorem linesAssign_line {names : List (List Char)} {text : String}
    (h : Assigns names text.toList) : LinesAssign names (Layout.line text) := by
  refine Layout.Rendered.line fun count => ?_
  have hspaces : 'n' ∉ List.replicate count ' ' := fun hmem =>
    absurd (List.eq_of_mem_replicate hmem) (by decide)
  exact (assigns_nil_of_not_mem hspaces).silent_append (h.append_silent assigns_feed)

theorem LinesAssign.append {names others : List (List Char)} {first second : Layout}
    (hfirst : LinesAssign names first) (hsecond : LinesAssign others second) :
    LinesAssign (names ++ others) (first ++ second) :=
  Layout.Rendered.append Assigns.append hfirst hsecond

theorem LinesAssign.nested {names : List (List Char)} {layout : Layout}
    (h : LinesAssign names layout) : LinesAssign names layout.nested :=
  Layout.Rendered.nested h

/-- Lines between two others, the second of which assigns nothing. -/
theorem LinesAssign.framed {names others : List (List Char)} {first last : String}
    {content : Layout} (hfirst : Assigns names first.toList)
    (hcontent : LinesAssign others content) (hlast : Silent last.toList) :
    LinesAssign (names ++ others) (.line first ++ content.nested ++ .line last) := by
  simpa using ((linesAssign_line hfirst).append hcontent.nested).append
    (linesAssign_line hlast.assigns)

/-- The names that lines assign which bind some fields. -/
def assignedIn (names : List String) : List (List Char) := names.flatMap assignedBy

/-- What is composed as a component assigns the names that it binds. -/
theorem linesAssign_of_composed {names : List String} {outline : Outline} {layout : Layout}
    (h : Composed names outline layout) : LinesAssign (assignedIn names) layout := by
  induction h with
  | nil => exact fun _ _ _ => rfl
  | blank => exact linesAssign_line (assigns_nil_of_not_mem (by simp))
  | line h => exact linesAssign_line (silent_plainLine h).assigns
  | @binding name text h => simpa [assignedIn] using linesAssign_line (assigns_bindingLine h)
  | append _ _ hfirst hsecond => simpa [assignedIn] using hfirst.append hsecond
  | nested _ ih => exact ih.nested
  | frame h _ ih =>
      obtain ⟨hfirst, hlast⟩ := silent_frame h
      exact LinesAssign.framed hfirst.assigns ih hlast
  | bindingFrame name _ ih =>
      exact LinesAssign.framed (assigns_bindingTag name) ih (silent_ofList rfl rfl)

/-! ## Scanned names -/

theorem map_assignedBy (name : String) :
    (assignedBy name).map String.ofList = [name].filter isIdentifierName := by
  unfold assignedBy
  split
  · next h => simp [h]
  · next h => simp [h]

theorem map_assignedIn (names : List String) :
    (assignedIn names).map String.ofList = names.filter isIdentifierName := by
  induction names with
  | nil => rfl
  | cons name rest ih =>
      unfold assignedIn at ih ⊢
      rw [List.flatMap_cons, List.map_append, ih, map_assignedBy, ← List.filter_append]
      rfl

/-- Names that differ from each other and from the earlier ones all stay. -/
theorem distinctFrom_of_nodup {seen items : List String} (hnodup : items.Nodup)
    (hnew : ∀ item ∈ items, item ∉ seen) : distinctFrom seen items = items := by
  induction items generalizing seen with
  | nil => rfl
  | cons item rest ih =>
      obtain ⟨hitem, hrest⟩ := List.nodup_cons.mp hnodup
      have hothers : ∀ other ∈ rest, other ∉ item :: seen := by
        intro other hmem hseen
        rcases List.mem_cons.mp hseen with rfl | hseen
        · exact hitem hmem
        · exact hnew other (List.mem_cons_of_mem _ hmem) hseen
      have hcontains : seen.contains item = false := by simpa using hnew item (by simp)
      unfold distinctFrom
      rw [hcontains, ih hrest hothers]
      rfl

/-- The scan finds the identifier names of a form, each once. -/
theorem names_of_source {form : FormSchema} (hnodup : form.names.Nodup) {config : EmitterConfig}
    (hname : isIdentifier config.componentName = true) :
    names (form.compile.source config) = form.names.filter isIdentifierName := by
  have hlines := linesAssign_of_composed (Composed.component form.compile.fields hname)
  have hscan := Layout.Rendered.render hlines config.indentWidth []
  have hnames : form.compile.fields.map (·.field.name) = form.names := by
    simp [FormSchema.compile, FormSchema.names, FieldSchema.compile]
  rw [hnames] at hscan
  have hassigned : assignedFrom 0 (form.compile.source config).toList =
      assignedIn form.names := by
    rw [CompiledForm.source_eq]
    simpa [assignedFrom] using hscan
  unfold names
  rw [hassigned, map_assignedIn]
  exact distinctFrom_of_nodup (hnodup.filter _) (by simp)

/-! ## The numeric widget -/

/-- Lower case of ASCII characters, whatever stands before and behind them. -/
theorem lowerFrom_append {ascii : List Char} (h : ∀ c ∈ ascii, c.toNat < 128)
    (before rest : List Char) :
    Text.lowerFrom before (ascii ++ rest) =
      ascii.map Char.toLower ++ Text.lowerFrom (ascii.reverse ++ before) rest := by
  induction ascii generalizing before with
  | nil => rfl
  | cons c ascii ih =>
      have hc := h c (by simp)
      have hsigma : c.toNat ≠ 931 := by omega
      rw [List.cons_append, Text.lowerFrom, if_neg hsigma, Text.lowerChar, if_pos hc,
        ih fun d hmem => h d (List.mem_cons_of_mem _ hmem)]
      simp

def IsAscii (text : List Char) : Prop := ∀ c ∈ text, c.toNat < 128

/-- A text that names the numeric widget behind nothing but ASCII characters. -/
def NamesNumber (text : List Char) : Prop :=
  ∃ before rest, text = before ++ (WidgetTag.inputNumber.name.toList ++ rest) ∧ IsAscii before

theorem isAscii_of_all {text : List Char} (h : text.all (·.toNat < 128) = true) : IsAscii text := by
  simpa [IsAscii] using h

theorem IsAscii.append {first second : List Char} (hfirst : IsAscii first)
    (hsecond : IsAscii second) : IsAscii (first ++ second) := fun c hmem =>
  (List.mem_append.mp hmem).elim (hfirst c) (hsecond c)

theorem NamesNumber.prepend {first second : List Char} (hfirst : IsAscii first)
    (hsecond : NamesNumber second) : NamesNumber (first ++ second) := by
  obtain ⟨before, rest, rfl, hbefore⟩ := hsecond
  exact ⟨first ++ before, rest, by simp, hfirst.append hbefore⟩

theorem NamesNumber.append {first : List Char} (h : NamesNumber first) (second : List Char) :
    NamesNumber (first ++ second) := by
  obtain ⟨before, rest, rfl, hbefore⟩ := h
  exact ⟨before, rest ++ second, by simp, hbefore⟩

/-- The tag is mentioned in lower case. -/
theorem NamesNumber.mentioned {text : List Char} (h : NamesNumber text) :
    WidgetTag.inputNumber.mentioned (Text.lower text) = true := by
  obtain ⟨before, rest, rfl, hbefore⟩ := h
  have htag : IsAscii WidgetTag.inputNumber.name.toList := isAscii_of_all (by decide)
  have hname : Text.lower WidgetTag.inputNumber.name.toList =
      WidgetTag.inputNumber.name.toList.map Char.toLower := by
    simpa [Text.lower, Text.lowerFrom] using lowerFrom_append htag [] []
  unfold WidgetTag.mentioned
  rw [hname]
  unfold Text.lower
  rw [lowerFrom_append hbefore, lowerFrom_append htag]
  exact Text.occurs_iff.mpr ⟨_, _, (List.append_assoc _ _ _).symm⟩

theorem isAscii_spaces (count : Nat) : IsAscii (List.replicate count ' ') := by
  intro c hmem
  rw [List.eq_of_mem_replicate hmem]
  decide

theorem rendered_isAscii {chars : List Char} (h : chars.all (·.toNat < 128) = true) :
    (Layout.line (String.ofList chars)).Rendered IsAscii := by
  refine Layout.Rendered.line fun count => (isAscii_spaces count).append ?_
  rw [String.toList_ofList]
  exact (isAscii_of_all h).append (isAscii_of_all rfl)

theorem rendered_namesNumber_line {chars : List Char} (hascii : chars.all (·.toNat < 128) = true)
    (hoccurs : Text.occurs ['I', 'n', 'p', 'u', 't', 'N', 'u', 'm', 'b', 'e', 'r'] chars = true) :
    (Layout.line (String.ofList chars)).Rendered NamesNumber := by
  refine Layout.Rendered.line fun count => NamesNumber.prepend (isAscii_spaces count) ?_
  have hname : WidgetTag.inputNumber.name.toList =
      ['I', 'n', 'p', 'u', 't', 'N', 'u', 'm', 'b', 'e', 'r'] := String.toList_ofList
  obtain ⟨before, rest, hchars⟩ := Text.occurs_iff.mp hoccurs
  rw [← hname, List.append_assoc] at hchars
  have hbefore : IsAscii before := by
    intro c hmem
    exact isAscii_of_all hascii c (by simp [hchars, hmem])
  rw [String.toList_ofList]
  exact NamesNumber.append ⟨before, rest, hchars, hbefore⟩ ['\n']

/-- Every generated source imports the numeric widget. -/
theorem rendered_namesNumber (fields : List CompiledField) (config : EmitterConfig) :
    (componentLines fields config).Rendered NamesNumber := by
  have himports : importLines.Rendered NamesNumber := by
    unfold importLines imports
    simp only [List.flatMap_cons, List.flatMap_nil, List.append_nil]
    exact Layout.Rendered.append NamesNumber.prepend (rendered_isAscii rfl)
      (Layout.Rendered.append NamesNumber.prepend (rendered_isAscii rfl)
        (Layout.Rendered.append NamesNumber.prepend (rendered_isAscii rfl)
          (rendered_namesNumber_line rfl rfl)))
  have happend : ∀ {first second : Layout}, first.Rendered NamesNumber →
      (first ++ second).Rendered NamesNumber := by
    intro first second hfirst
    have hany : second.Rendered fun _ => True := fun _ _ => trivial
    exact Layout.Rendered.append (fun h _ => h.append _) hfirst hany
  exact happend (happend (happend (happend himports)))

/-- The widgets of a generated source include the numeric one. -/
theorem numeric_source (form : FormSchema) (config : EmitterConfig) :
    (widgetsIn (form.compile.source config)).contains .inputNumber = true := by
  have hnames := (rendered_namesNumber form.compile.fields config).render config.indentWidth
  rw [← CompiledForm.source_eq] at hnames
  have hmem : WidgetTag.inputNumber ∈ widgetsIn (form.compile.source config) :=
    List.mem_filter.mpr ⟨by decide, hnames.mentioned⟩
  exact List.contains_iff_mem.mpr hmem

/-! ## Stubs -/

/-- The draft of an identifier name is not refused. -/
theorem violation?_new {name : String} (h : isIdentifierName name = true) (kind : FieldKind)
    (id : String) :
    FieldDraft.violation? { FieldDraft.new name kind with id := some id } = none := by
  have hblank : Text.allBlank name = false := by
    simp only [isIdentifierName, Bool.and_eq_true, List.all_eq_true] at h
    unfold Text.allBlank
    cases hname : name.toList with
    | nil => simp [hname] at h
    | cons c rest => simp [isBlank_of_isNameChar (h.2 c (by simp [hname]))]
  simp [FieldDraft.violation?, FieldDraft.new, hblank]

variable {σ : Type} [IdSource σ]

/-- Every identifier name gives one stub of the kind. -/
theorem stubs_of_identifierNames (kind : FieldKind) {items : List String}
    (h : ∀ name ∈ items, isIdentifierName name = true) (ids : σ) :
    (stubs kind items ids).1.map (·.name) = items ∧
      ∀ field ∈ (stubs kind items ids).1, field.kind = kind := by
  induction items generalizing ids with
  | nil => exact ⟨rfl, by simp [stubs]⟩
  | cons name rest ih =>
      have hname := violation?_new (h name (by simp)) kind (IdSource.next ids).1
      have hbuild : ∀ others : σ,
          ({ FieldDraft.new name kind with id := some (IdSource.next ids).1 } : FieldDraft).build
            others = (.ok (FieldDraft.withId
              { FieldDraft.new name kind with id := some (IdSource.next ids).1 }
              (IdSource.next ids).1), others) := by
        intro others
        unfold FieldDraft.build
        rw [hname]
      obtain ⟨hnames, hkinds⟩ :=
        ih (fun other hmem => h other (List.mem_cons_of_mem _ hmem)) (IdSource.next ids).2
      simp only [stubs, hbuild, List.map_cons, List.mem_cons, forall_eq_or_imp]
      exact ⟨by rw [hnames]; rfl, rfl, hkinds⟩

/-- What is extracted from a text that mentions the numeric widget and assigns identifier names
only. -/
theorem extract_of_names {text : String} {items : List String} (hnames : names text = items)
    (hidentifiers : ∀ name ∈ items, isIdentifierName name = true)
    (hnumeric : (widgetsIn text).contains .inputNumber = true) (ids : σ) :
    ((extract text ids).1 = none ↔ items = []) ∧
      ∀ extraction, (extract text ids).1 = some extraction →
        extraction.form.names = items ∧ ∀ field ∈ extraction.form.fields, field.kind = .number := by
  unfold extract
  rw [hnames]
  cases items with
  | nil => simp
  | cons name rest =>
      obtain ⟨hstubs, hkinds⟩ := stubs_of_identifierNames .number hidentifiers ids
      simp only [hnumeric, if_true]
      refine ⟨by simp, fun extraction hextraction => ?_⟩
      cases hextraction
      exact ⟨hstubs, hkinds⟩

/-- The scan of a generated source finds the identifier names of the form in order, whatever else
the form says; extraction recovers them as numbers, and nothing when there are none. -/
theorem names_source {fields : List FieldSchema} {form : FormSchema}
    (hform : FormSchema.ofFields fields = .ok form) {config : EmitterConfig}
    (hconfig : config.problem? = none) :
    names (form.compile.source config) = form.names.filter isIdentifierName ∧
      ∀ {σ : Type} [IdSource σ] (ids : σ),
        ((extract (form.compile.source config) ids).1 = none ↔
          ∀ name ∈ form.names, isIdentifierName name = false) ∧
        ∀ extraction, (extract (form.compile.source config) ids).1 = some extraction →
          extraction.form.names = form.names.filter isIdentifierName ∧
          ∀ field ∈ extraction.form.fields, field.kind = .number := by
  have hnames := names_of_source (FormSchema.nodup_names_of_ofFields hform)
    (isIdentifier_componentName hconfig)
  have hidentifiers : ∀ name ∈ form.names.filter isIdentifierName, isIdentifierName name = true :=
    fun name hmem => (List.mem_filter.mp hmem).2
  refine ⟨hnames, fun ids => ?_⟩
  obtain ⟨hnone, hsome⟩ := extract_of_names hnames hidentifiers (numeric_source form config) ids
  refine ⟨hnone.trans ?_, hsome⟩
  simp [List.filter_eq_nil_iff]

/-- Fields whose texts hold assignments of names that the form does not have. -/
def misleadingFields : List FieldSchema :=
  [{ id := "1"
     name := "email"
     label := "name=\"spoof\""
     kind := .select ["name=", "name=\x7b\"spoof\"\x7d", "name='spoof'"]
     columns := .one
     validation := { ValidationRule.none with customMessage := some "name=" }
     conditions := [⟨.and, "name", .equal, "name=\"spoof\""⟩]
     group := none },
   { id := "2"
     name := "name="
     label := "name="
     kind := .date
     columns := .two
     validation := { ValidationRule.none with crossField := some "spoof" }
     conditions := []
     group := none }]

/-- Texts that hold assignments add no name. -/
theorem names_source_misleadingFields :
    FormSchema.ofFields misleadingFields = .ok ⟨misleadingFields⟩ ∧
      (EmitterConfig.mk "Page" 2 "name=").problem? = none ∧
      names ((FormSchema.mk misleadingFields).compile.source ⟨"Page", 2, "name="⟩) = ["email"] :=
  ⟨rfl, by decide,
    (names_source (rfl : FormSchema.ofFields misleadingFields = .ok ⟨misleadingFields⟩)
      (by decide)).1.trans (by decide)⟩

end FormCompiler.Extraction
