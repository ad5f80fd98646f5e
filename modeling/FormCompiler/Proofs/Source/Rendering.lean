import FormCompiler.Proofs.Text.Lines
import FormCompiler.Source.Layout

/-!
# Rendered layouts

Two ways to speak about the characters of a layout.  `Layout.Rendered` carries a property of the
rendered characters from lines to layouts, whatever the width and the level.  `textsOf` goes back:
the texts of tidy lines can be read off the rendered source, so the levels and the spaces before
the lines hide nothing.
-/

namespace FormCompiler.Source

namespace Layout

@[simp] theorem render_nil (width : Nat) : Layout.render width [] = "" := rfl

@[simp] theorem render_cons (width : Nat) (line : Line) (rest : Layout) :
    Layout.render width (line :: rest) = line.render width ++ Layout.render width rest := rfl

theorem render_append (width : Nat) (first second : Layout) :
    (first ++ second).render width = first.render width ++ second.render width := by
  induction first with
  | nil => simp
  | cons line rest ih =>
      change line.render width ++ Layout.render width (rest ++ second) = _
      rw [ih, render_cons, String.append_assoc]

theorem indentBy_append (levels : Nat) (first second : Layout) :
    (first ++ second).indentBy levels = first.indentBy levels ++ second.indentBy levels :=
  List.map_append

theorem indentBy_nested (levels : Nat) (layout : Layout) :
    layout.nested.indentBy levels = layout.indentBy (levels + 1) := by
  simp [nested, indentBy, Nat.add_comm, Nat.add_left_comm]

theorem indentBy_zero (layout : Layout) : layout.indentBy 0 = layout := by
  simp [indentBy]

/-! ## Properties of the rendered characters -/

/-- The rendered characters have a property at every width and every level. -/
def Rendered (property : List Char → Prop) (layout : Layout) : Prop :=
  ∀ width level, property ((layout.indentBy level).render width).toList

namespace Rendered

variable {p q r : List Char → Prop} {first second layout : Layout}

theorem append (join : ∀ {a b : List Char}, p a → q b → r (a ++ b))
    (hfirst : first.Rendered p) (hsecond : second.Rendered q) : (first ++ second).Rendered r := by
  intro width level
  rw [indentBy_append, render_append, String.toList_append]
  exact join (hfirst width level) (hsecond width level)

theorem nested (h : layout.Rendered p) : layout.nested.Rendered p := by
  intro width level
  rw [indentBy_nested]
  exact h width (level + 1)

/-- A line is rendered as spaces, its text and a line feed. -/
theorem line {text : String}
    (h : ∀ count, p (List.replicate count ' ' ++ (text.toList ++ ['\n']))) :
    (Layout.line text).Rendered p := by
  intro width level
  change p (Line.render width ⟨0 + level, text⟩ ++ "").toList
  unfold Line.render
  split
  · next hempty =>
    have hblank : text = "" := hempty
    subst hblank
    exact h 0
  · simpa [String.toList_append] using h ((0 + level) * width)

theorem render (h : layout.Rendered p) (width : Nat) : p (layout.render width).toList := by
  have hzero := h width 0
  rwa [indentBy_zero] at hzero

end Rendered

/-! ## The texts of the lines -/

/-- The texts of the lines, without their levels. -/
def texts (layout : Layout) : List String := layout.map (·.text)

@[simp] theorem texts_append (first second : Layout) :
    (first ++ second).texts = first.texts ++ second.texts := List.map_append

@[simp] theorem texts_nested (layout : Layout) : layout.nested.texts = layout.texts := by
  simp [texts, nested, indentBy]

@[simp] theorem texts_line (text : String) : (line text).texts = [text] := rfl

@[simp] theorem texts_blank : blank.texts = [""] := rfl

end Layout

/-- A text that stands on one line, without a line end of either kind, and does not begin with a
space. -/
structure IsTidy (text : String) : Prop where
  one_line : '\n' ∉ text.toList
  no_return : '\r' ∉ text.toList
  no_space : text.toList.head? ≠ some ' '

/-- The texts of the lines of a source: what stands between the line feeds, without the spaces
before it. -/
def textsOf (source : String) : List String :=
  (Text.pieces '\n' source.toList).dropLast.map fun piece =>
    String.ofList (piece.dropWhile (· = ' '))

theorem dropWhile_space_replicate (count : Nat) {text : List Char}
    (h : text.head? ≠ some ' ') :
    (List.replicate count ' ' ++ text).dropWhile (· = ' ') = text := by
  induction count with
  | zero =>
      cases text with
      | nil => rfl
      | cons c rest =>
          have hspace : c ≠ ' ' := fun heq => h (by simp [heq])
          simp [hspace]
  | succ count ih => simpa [List.replicate_succ] using ih

/-- The line feed of a tidy line ends the first piece of a source. -/
theorem textsOf_line_append (width : Nat) {line : Line} (htidy : IsTidy line.text)
    (rest : String) : textsOf (line.render width ++ rest) = line.text :: textsOf rest := by
  have hpieces : ∃ count, (line.render width ++ rest).toList =
      (List.replicate count ' ' ++ line.text.toList) ++ '\n' :: rest.toList := by
    unfold Line.render
    split
    · next hempty => exact ⟨0, by simp [hempty]⟩
    · exact ⟨line.level * width, by simp⟩
  obtain ⟨count, hsource⟩ := hpieces
  have hfeed : '\n' ∉ List.replicate count ' ' ++ line.text.toList := by
    simp [htidy.one_line]
  unfold textsOf
  rw [hsource, Text.pieces_append_cons hfeed,
    List.dropLast_cons_of_ne_nil (Text.pieces_ne_nil _ _),
    List.map_cons, dropWhile_space_replicate count htidy.no_space, String.ofList_toList]

/-- The texts of tidy lines can be read off the rendered source. -/
theorem textsOf_render (width : Nat) {layout : Layout}
    (htidy : ∀ text ∈ layout.texts, IsTidy text) :
    textsOf (layout.render width) = layout.texts := by
  induction layout with
  | nil => rfl
  | cons line rest ih =>
      rw [Layout.render_cons, textsOf_line_append width (htidy _ (by simp [Layout.texts])),
        ih fun text hmem => htidy text (List.mem_cons_of_mem _ hmem)]
      rfl

/-- Where lines are tidy, line feeds are the only line ends. -/
theorem return_not_mem_render (width : Nat) {layout : Layout}
    (htidy : ∀ text ∈ layout.texts, IsTidy text) : '\r' ∉ (layout.render width).toList := by
  induction layout with
  | nil => exact List.not_mem_nil
  | cons line rest ih =>
      have hline : '\r' ∉ (line.render width).toList := by
        have htext := (htidy line.text (by simp [Layout.texts])).no_return
        unfold Line.render
        split
        · decide
        · simp [htext]
      have hrest := ih fun text hmem => htidy text (List.mem_cons_of_mem _ hmem)
      rw [Layout.render_cons, String.toList_append, List.mem_append]
      exact not_or.mpr ⟨hline, hrest⟩

end FormCompiler.Source
