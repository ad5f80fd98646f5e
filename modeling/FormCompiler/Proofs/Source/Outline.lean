import FormCompiler.Proofs.Source.Lines

/-!
# The outline of generated source

The outline of a layout says at which level each line stands.  The principal result is that the
outline of a component depends on the shapes of the fields only, and that the lines of the source
begin with the spaces of their levels and with no others.  So no text of a user adds a line, takes
one away or moves one.
-/

namespace FormCompiler

namespace Source

/-! ## Outlines of layouts -/

namespace Layout

def outline (layout : Layout) : Outline :=
  layout.map fun line => if line.text = "" then none else some line.level

@[simp] theorem outline_append (first second : Layout) :
    (first ++ second).outline = first.outline ++ second.outline := List.map_append

@[simp] theorem outline_nested (layout : Layout) :
    layout.nested.outline = layout.outline.deeper := by
  simp only [outline, nested, indentBy, Outline.deeper, List.map_map]
  refine List.map_congr_left fun line _ => ?_
  by_cases hempty : line.text = "" <;> simp [hempty]

theorem outline_line {text : String} (h : text ≠ "") : (line text).outline = [some 0] := by
  simp [outline, line, h]

theorem outline_frame {first last : String} (hfirst : first ≠ "") (hlast : last ≠ "")
    (content : Layout) :
    (line first ++ content.nested ++ line last).outline = content.outline.framed := by
  simp [outline_line hfirst, outline_line hlast, Outline.framed]

end Layout

/-- The outline that a composition notes is the outline of the layout. -/
theorem outline_of_composed {names : List String} {outline : Outline} {layout : Layout}
    (h : Composed names outline layout) : layout.outline = outline := by
  induction h with
  | nil => rfl
  | blank => rfl
  | line h => exact Layout.outline_line (led_plainLine h).ne_empty
  | binding h => exact Layout.outline_line (led_bindingLine h).ne_empty
  | append _ _ hfirst hsecond => rw [Layout.outline_append, hfirst, hsecond]
  | nested _ ih => rw [Layout.outline_nested, ih]
  | frame h _ ih =>
      obtain ⟨hfirst, hlast⟩ := led_frame h
      rw [Layout.outline_frame hfirst.ne_empty hlast.ne_empty, ih]
  | bindingFrame name _ ih =>
      rw [← ih]
      exact Layout.outline_frame (led_bindingTag name).ne_empty (by simp) _

/-- The outline of a component depends on the shapes of the fields only. -/
theorem outline_component (form : FormSchema) {config : EmitterConfig}
    (hname : isIdentifier config.componentName = true) :
    (componentLines form.compile.fields config).outline = Outline.component form.shapes := by
  have hshapes : form.compile.fields.map (·.shape) = form.shapes := by
    simp [FormSchema.compile, FormSchema.shapes, FieldSchema.shape_compile]
  rw [← hshapes]
  exact outline_of_composed (Composed.component form.compile.fields hname)

/-! ## Lines of the rendered source -/

/-- The lines of a source that ends in a line feed. -/
def linesOf (source : String) : List (List Char) := (Text.pieces '\n' source.toList).dropLast

def leadingSpaces (line : List Char) : Nat := (line.takeWhile (· = ' ')).length

def EndsInLineFeed (source : String) : Prop := source.toList.getLast? = some '\n'

/-- The spaces of the lines: those of their levels, and none before an empty line. -/
def Outline.spaces (width : Nat) (outline : Outline) : List Nat :=
  outline.map fun level => level.getD 0 * width

theorem leadingSpaces_replicate (count : Nat) {text : List Char} (h : text.head? ≠ some ' ') :
    leadingSpaces (List.replicate count ' ' ++ text) = count := by
  have hnone : text.takeWhile (· = ' ') = [] := by
    cases text with
    | nil => rfl
    | cons c rest =>
        have hc : c ≠ ' ' := fun heq => h (by simp [heq])
        simp [hc]
  have hspaces : ∀ c ∈ List.replicate count ' ', decide (c = ' ') = true := by simp
  unfold leadingSpaces
  rw [List.takeWhile_append_of_pos hspaces, hnone]
  simp

/-- A tidy line is rendered as a line that begins with the spaces of its level. -/
theorem exists_render_line (width : Nat) {line : Line} (htidy : IsTidy line.text) :
    ∃ chars, (line.render width).toList = chars ++ ['\n'] ∧ '\n' ∉ chars ∧
      [leadingSpaces chars] = Outline.spaces width (Layout.outline [line]) := by
  unfold Line.render Layout.outline Outline.spaces
  by_cases hempty : line.text = ""
  · exact ⟨[], by simp [hempty], by simp, by simp [hempty, leadingSpaces]⟩
  · refine ⟨List.replicate (line.level * width) ' ' ++ line.text.toList, by simp [hempty], ?_, ?_⟩
    · simp [htidy.one_line]
    · simp [hempty, leadingSpaces_replicate _ htidy.no_space]

/-- The lines of a rendered layout begin with the spaces of its outline. -/
theorem leadingSpaces_render (width : Nat) {layout : Layout} (htidy : AllTidy layout) :
    (linesOf (layout.render width)).map leadingSpaces = layout.outline.spaces width := by
  induction layout with
  | nil => rfl
  | cons line rest ih =>
      obtain ⟨chars, hchars, hfeed, hspaces⟩ :=
        exists_render_line width (htidy line.text (by simp [Layout.texts]))
      have hrest := ih fun text hmem => htidy text (List.mem_cons_of_mem _ hmem)
      have hlines : linesOf (Layout.render width (line :: rest)) =
          chars :: linesOf (Layout.render width rest) := by
        unfold linesOf
        rw [Layout.render_cons, String.toList_append, hchars, List.append_assoc,
          List.singleton_append, Text.pieces_append_cons hfeed,
          List.dropLast_cons_of_ne_nil (Text.pieces_ne_nil _ _)]
      rw [hlines, List.map_cons, hrest]
      exact congrArg (· ++ Outline.spaces width (Layout.outline rest)) hspaces

/-- A layout ends in the line feed of its last line. -/
theorem endsInLineFeed_render (width : Nat) {layout : Layout} (h : layout ≠ []) :
    EndsInLineFeed (layout.render width) := by
  obtain ⟨before, last, rfl⟩ := List.eq_nil_or_concat layout |>.resolve_left h
  have hlast : ∃ chars, (last.render width).toList = chars ++ ['\n'] := by
    unfold Line.render
    split
    · exact ⟨[], rfl⟩
    · exact ⟨_, by rw [String.toList_append]; rfl⟩
  obtain ⟨chars, hchars⟩ := hlast
  unfold EndsInLineFeed
  rw [List.concat_eq_append, Layout.render_append, Layout.render_cons, String.toList_append,
    String.toList_append, hchars]
  simp

/-- The lines of the source of a form begin with the spaces of the outline of its shapes. -/
theorem leadingSpaces_source (form : FormSchema) {config : EmitterConfig}
    (h : config.problem? = none) :
    (linesOf (form.compile.source config)).map leadingSpaces =
      (Outline.component form.shapes).spaces config.indentWidth := by
  rw [CompiledForm.source_eq]
  have hname := isIdentifier_componentName h
  rw [leadingSpaces_render _ (allTidy_component _ hname), outline_component form hname]

theorem endsInLineFeed_source (form : FormSchema) (config : EmitterConfig) :
    EndsInLineFeed (form.compile.source config) := by
  rw [CompiledForm.source_eq]
  exact endsInLineFeed_render _ (by simp [componentLines, importLines, imports, Layout.line])

/-! ## Two forms of the same shape -/

/-- Forms of the same shape have sources with the same lines up to the texts in them: both end in a
line feed, they have as many lines, and a line stands at the same level in both, whatever the
names, labels, options, rules and conditions say and whatever the settings are. -/
theorem outline_source {first second : FormSchema} (hshapes : first.shapes = second.shapes)
    {config other : EmitterConfig} (hconfig : config.problem? = none)
    (hother : other.problem? = none) :
    EndsInLineFeed (first.compile.source config) ∧ EndsInLineFeed (second.compile.source other) ∧
      (linesOf (first.compile.source config)).length =
        (linesOf (second.compile.source other)).length ∧
      ∃ levels : List Nat,
        (linesOf (first.compile.source config)).map leadingSpaces =
            levels.map (· * config.indentWidth) ∧
          (linesOf (second.compile.source other)).map leadingSpaces =
            levels.map (· * other.indentWidth) := by
  have hfirst := leadingSpaces_source first hconfig
  have hsecond := leadingSpaces_source second hother
  have hlength : ((linesOf (first.compile.source config)).map leadingSpaces).length =
      ((linesOf (second.compile.source other)).map leadingSpaces).length := by
    rw [hfirst, hsecond, hshapes, Outline.spaces, Outline.spaces, List.length_map, List.length_map]
  refine ⟨endsInLineFeed_source first config, endsInLineFeed_source second other, ?_,
    (Outline.component first.shapes).map (·.getD 0), ?_, ?_⟩
  · simpa only [List.length_map] using hlength
  · rw [hfirst, Outline.spaces, List.map_map]
    rfl
  · rw [hsecond, Outline.spaces, List.map_map, ← hshapes]
    rfl

/-- A select field and a shown input field whose texts are as plain as can be. -/
def plainTexts : FormSchema :=
  ⟨[{ id := "1"
      name := "a"
      label := "A"
      kind := .select ["x", "y"]
      columns := .one
      validation := .none
      conditions := []
      group := none },
    { id := "2"
      name := "b"
      label := "B"
      kind := .input
      columns := .one
      validation := .none
      conditions := [⟨.and, "a", .equal, "x"⟩]
      group := none }]⟩

/-- Fields of the same shapes whose texts hold line ends and begin with spaces. -/
def brokenTexts : FormSchema :=
  ⟨[{ id := "3"
      name := "\n  a"
      label := "  A\r\n"
      kind := .select ["\n", "   </Select>\n"]
      columns := .two
      validation := { ValidationRule.none with required := true, customMessage := some "\n\n" }
      conditions := []
      group := some "\n" },
    { id := "4"
      name := "b\n"
      label := "\n\n"
      kind := .input
      columns := .one
      validation := { ValidationRule.none with pattern := some "\n  ^" }
      conditions := [⟨.or, "\n  a", .contains, "\n"⟩, ⟨.and, "b\n", .notEqual, "  "⟩]
      group := none }]⟩

/-- Line ends and spaces in the texts of a form, other settings included, move no line. -/
theorem outline_source_brokenTexts :
    plainTexts.shapes = brokenTexts.shapes ∧ (EmitterConfig.mk "Page" 2 "Save").problem? = none ∧
      (EmitterConfig.mk "P" 4 "\n  Save").problem? = none ∧
      EndsInLineFeed (plainTexts.compile.source ⟨"Page", 2, "Save"⟩) ∧
      EndsInLineFeed (brokenTexts.compile.source ⟨"P", 4, "\n  Save"⟩) ∧
      (linesOf (plainTexts.compile.source ⟨"Page", 2, "Save"⟩)).length =
        (linesOf (brokenTexts.compile.source ⟨"P", 4, "\n  Save"⟩)).length ∧
      ∃ levels : List Nat,
        (linesOf (plainTexts.compile.source ⟨"Page", 2, "Save"⟩)).map leadingSpaces =
            levels.map (· * 2) ∧
          (linesOf (brokenTexts.compile.source ⟨"P", 4, "\n  Save"⟩)).map leadingSpaces =
            levels.map (· * 4) :=
  ⟨by decide, by decide, by decide,
    outline_source (by decide : plainTexts.shapes = brokenTexts.shapes) (by decide) (by decide)⟩

end Source

end FormCompiler
