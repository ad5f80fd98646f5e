import FormCompiler.Diff.Report
import FormCompiler.Proofs.Diff.Edits
import FormCompiler.Proofs.Text.Lines

/-!
# What a report shows

A report shows the changes of some groups in their order, with a gap between two groups.  The
principal result says where the limit cuts it: if there are no more changes than the limit, all of
them are shown and no line is the cut line; otherwise as many as the limit are shown, and the cut
line ends the report.  It holds of all groups of changes of one line, and so of the groups that a
comparison of two texts selects.
-/

namespace FormCompiler.Diff

/-! ## Lines -/

/-- A text has no line feed but at its end. -/
def IsLine (line : String) : Prop := '\n' ∉ line.toList.dropLast

theorem not_mem_dropLast_of_mem_linesFrom {passed text line : List Char} (hpassed : '\n' ∉ passed)
    (h : line ∈ linesFrom passed text) : '\n' ∉ line.dropLast := by
  fun_induction linesFrom passed text with
  | case1 passed hempty => cases h
  | case2 passed hfilled =>
      rw [List.mem_singleton] at h
      subst h
      intro hmem
      exact hpassed (List.mem_reverse.mp ((List.dropLast_sublist _).subset hmem))
  | case3 passed rest ih =>
      rcases List.mem_cons.mp h with rfl | hrest
      · simpa [List.dropLast_append] using hpassed
      · exact ih List.not_mem_nil hrest
  | case4 passed c rest hends hpair ih =>
      rcases List.mem_cons.mp h with rfl | hrest
      · simpa using hpassed
      · exact ih List.not_mem_nil hrest
  | case5 passed c rest hends hpair ih =>
      have hc : '\n' ≠ c := by
        rintro rfl
        exact hpair (by decide)
      exact ih (List.not_mem_cons_of_ne_of_not_mem hc hpassed) h

theorem isLine_of_mem_lines {text line : String} (h : line ∈ lines text) : IsLine line := by
  obtain ⟨chars, hchars, rfl⟩ := List.mem_map.mp h
  rw [IsLine, String.toList_ofList]
  exact not_mem_dropLast_of_mem_linesFrom List.not_mem_nil hchars

theorem IsLine.printed {line : String} (h : IsLine line) : IsLine (printed line) := by
  unfold Diff.printed
  split
  · exact h
  · next hends =>
    have hnot : '\n' ∉ line.toList := by
      rcases List.eq_nil_or_concat line.toList with hnil | ⟨front, c, hconcat⟩
      · simp [hnil]
      · rw [List.concat_eq_append] at hconcat
        rw [IsLine, hconcat, List.dropLast_concat] at h
        have hc : c ≠ '\n' := by
          rintro rfl
          exact hends (by simp [endsLine, hconcat])
        simp [hconcat, h, hc.symm]
    simpa [IsLine] using hnot

theorem exists_getLast?_printed (line : String) :
    ∃ c, (printed line).toList.getLast? = some c ∧ (c = '\n' ∨ c = '\r') := by
  unfold printed
  split
  · next hends =>
    unfold endsLine at hends
    split at hends
    · next c hlast => exact ⟨c, hlast, by simpa using hends⟩
    · cases hends
  · exact ⟨'\n', by simp, .inl rfl⟩

/-! ## Changes -/

/-- The lines of all changes have the property. -/
def AllLines (P : String → Prop) (blocks : List Block) : Prop :=
  ∀ block ∈ blocks, ∀ change ∈ block.changes, P change.line

section AllLines

variable {P : String → Prop} {blocks rest : List Block}

theorem allLines_cons {block : Block} :
    AllLines P (block :: rest) ↔ (∀ change ∈ block.changes, P change.line) ∧ AllLines P rest :=
  List.forall_mem_cons

theorem forall_changes_same {lines : List String} :
    (∀ change ∈ (Block.same lines).changes, P change.line) ↔ ∀ line ∈ lines, P line := by
  simp [Block.changes]

/-- The line of a change comes from the old text or from the new one. -/
theorem line_mem_of_mem_changes {block : Block} {change : Change} (h : change ∈ block.changes) :
    change.line ∈ block.taken ∨ change.line ∈ block.given := by
  cases block with
  | same lines =>
      obtain ⟨line, hline, rfl⟩ := List.mem_map.mp h
      exact .inl hline
  | changed removed added =>
      rcases List.mem_append.mp h with hremoved | hadded
      · obtain ⟨line, hline, rfl⟩ := List.mem_map.mp hremoved
        exact .inl hline
      · obtain ⟨line, hline, rfl⟩ := List.mem_map.mp hadded
        exact .inr hline

theorem allLines_blocks {old new : List String} (hold : ∀ line ∈ old, P line)
    (hnew : ∀ line ∈ new, P line) : AllLines P (Diff.blocks old new) := by
  obtain ⟨htaken, hgiven⟩ := blocks_eq old new
  intro block hblock change hchange
  rcases line_mem_of_mem_changes hchange with hmem | hmem
  · apply hold
    rw [← htaken]
    exact List.mem_flatMap_of_mem hblock hmem
  · apply hnew
    rw [← hgiven]
    exact List.mem_flatMap_of_mem hblock hmem

theorem AllLines.trimStart (h : AllLines P blocks) (context : Nat) :
    AllLines P (trimStart context blocks) := by
  unfold Diff.trimStart
  split
  · next lines rest =>
    obtain ⟨hlines, hrest⟩ := allLines_cons.mp h
    rw [forall_changes_same] at hlines
    refine allLines_cons.mpr ⟨forall_changes_same.mpr fun line hmem => ?_, hrest⟩
    exact hlines line (List.mem_of_mem_drop hmem)
  · exact h

theorem AllLines.trimEnd (h : AllLines P blocks) (context : Nat) :
    AllLines P (trimEnd context blocks) := by
  fun_induction Diff.trimEnd context blocks with
  | case1 => exact h
  | case2 lines =>
      obtain ⟨hlines, hrest⟩ := allLines_cons.mp h
      rw [forall_changes_same] at hlines
      refine allLines_cons.mpr ⟨forall_changes_same.mpr fun line hmem => ?_, hrest⟩
      exact hlines line (List.mem_of_mem_take hmem)
  | case3 block rest hlast ih =>
      obtain ⟨hblock, hrest⟩ := allLines_cons.mp h
      exact allLines_cons.mpr ⟨hblock, ih hrest⟩

theorem AllLines.append (h : AllLines P blocks) (hrest : AllLines P rest) :
    AllLines P (blocks ++ rest) :=
  List.forall_mem_append.mpr ⟨h, hrest⟩

/-- The groups have the lines of the blocks.  Where a run of kept lines is cut, parts of it are in
both groups. -/
theorem AllLines.splitGroups {group : List Block} (hgroup : AllLines P group)
    (h : AllLines P blocks) (context : Nat) :
    ∀ part ∈ splitGroups context group blocks, AllLines P part := by
  fun_induction Diff.splitGroups context group blocks with
  | case1 => simp
  | case2 => simp
  | case3 group hfilled hchanged => simpa using hgroup
  | case4 group lines rest hlong ih =>
      obtain ⟨hlines, hrest⟩ := allLines_cons.mp h
      rw [forall_changes_same] at hlines
      have hpart (part : List String) (hpart : part ⊆ lines) : AllLines P [.same part] :=
        allLines_cons.mpr ⟨forall_changes_same.mpr fun line hmem => hlines line (hpart hmem), by
          simp [AllLines]⟩
      exact List.forall_mem_cons.mpr ⟨hgroup.append (hpart _ (List.take_subset _ _)),
        ih (hpart _ (List.drop_subset _ _)) hrest⟩
  | case5 group lines rest hshort ih =>
      obtain ⟨hlines, hrest⟩ := allLines_cons.mp h
      exact ih (hgroup.append (allLines_cons.mpr ⟨hlines, by simp [AllLines]⟩)) hrest
  | case6 group block rest hchanged ih =>
      obtain ⟨hblock, hrest⟩ := allLines_cons.mp h
      exact ih (hgroup.append (allLines_cons.mpr ⟨hblock, by simp [AllLines]⟩)) hrest

theorem AllLines.selected (h : AllLines P blocks) (options : Options) :
    ∀ group ∈ selected options blocks, ∀ change ∈ group, P change.line := by
  have hgroups : ∀ group ∈ (if options.full then [blocks] else groups options.context blocks),
      AllLines P group := by
    split
    · simpa using h
    · apply AllLines.splitGroups
      · simp [AllLines]
      · exact (h.trimStart options.context).trimEnd options.context
  intro group hgroup change hchange
  obtain ⟨parts, hparts, rfl⟩ := List.mem_map.mp hgroup
  obtain ⟨block, hblock, hmem⟩ := List.mem_flatMap.mp hchange
  exact hgroups parts hparts block hblock change hmem

end AllLines

/-! ## The limit -/

/-- The groups with so many changes; what follows the group of the first change behind them is left
out. -/
def firstChanges : (count : Nat) → List (List Change) → List (List Change)
  | _, [] => []
  | count, group :: rest =>
      if count < group.length then [group.take count]
      else group :: firstChanges (count - group.length) rest

theorem flatten_firstChanges (count : Nat) (groups : List (List Change)) :
    (firstChanges count groups).flatten = groups.flatten.take count := by
  induction groups generalizing count with
  | nil => simp [firstChanges]
  | cons group rest ih =>
      rw [firstChanges, List.flatten_cons, List.take_append]
      split
      · next hshort =>
        have hnone : count - group.length = 0 := by omega
        simp [hnone]
      · next hlong =>
        have hall : group.take count = group := List.take_of_length_le (by omega)
        rw [List.flatten_cons, ih, hall]

theorem firstChanges_ne_nil {groups : List (List Change)} (h : groups ≠ []) (count : Nat) :
    firstChanges count groups ≠ [] := by
  cases groups with
  | nil => exact absurd rfl h
  | cons group rest =>
      unfold firstChanges
      split
      · exact List.cons_ne_nil _ _
      · exact List.cons_ne_nil _ _

def linesText (colored : Bool) (group : List Change) : String :=
  String.join (group.map (·.display colored))

def groupsText (colored : Bool) (groups : List (List Change)) : String :=
  gapLine.intercalate (groups.map (linesText colored))

theorem groupsText_cons (colored : Bool) (group : List Change) {rest : List (List Change)}
    (hrest : rest ≠ []) :
    groupsText colored (group :: rest) =
      linesText colored group ++ gapLine ++ groupsText colored rest :=
  String.intercalate_cons_of_ne_nil (by simpa using hrest)

section Limit

variable {options : Options} {shown : Nat} {group : List Change} {groups : List (List Change)}

/-- A group that stays within the limit is shown as a whole. -/
theorem groupText_of_le (h : options.limit = 0 ∨ shown + group.length ≤ options.limit) :
    groupText options shown group =
      (linesText options.colored group, some (shown + group.length)) := by
  induction group generalizing shown with
  | nil => rfl
  | cons change rest ih =>
      rw [List.length_cons] at h
      have hbelow : ¬(options.limit ≠ 0 ∧ options.limit ≤ shown) := by omega
      have hrest : options.limit = 0 ∨ shown + 1 + rest.length ≤ options.limit := by omega
      simp only [groupText, Bool.and_eq_true, decide_eq_true_eq, if_neg hbelow, ih hrest]
      rw [List.length_cons, linesText, linesText, List.map_cons, String.join_cons,
        Nat.add_right_comm, Nat.add_assoc]

/-- A group that reaches beyond the limit is shown up to it, and the report is cut. -/
theorem groupText_of_lt (hlimit : options.limit ≠ 0) (hshown : shown ≤ options.limit)
    (h : options.limit < shown + group.length) :
    groupText options shown group =
      (linesText options.colored (group.take (options.limit - shown)) ++ cutLine, none) := by
  induction group generalizing shown with
  | nil => exact absurd h (by simpa using hshown)
  | cons change rest ih =>
      rcases Nat.eq_or_lt_of_le hshown with heq | hbelow
      · simp [groupText, hlimit, heq, linesText]
      · rw [List.length_cons] at h
        have hmore : ¬(options.limit ≠ 0 ∧ options.limit ≤ shown) := by omega
        have hcount : options.limit - shown = options.limit - (shown + 1) + 1 := by omega
        simp only [groupText, Bool.and_eq_true, decide_eq_true_eq, if_neg hmore,
          ih hbelow (by omega)]
        rw [hcount, List.take_succ_cons, linesText, linesText, List.map_cons, String.join_cons,
          String.append_assoc]

/-- What stands before a group. -/
def gapBefore (first : Bool) : String := if first then "" else gapLine

theorem groupTexts_of_le {first : Bool}
    (h : options.limit = 0 ∨ shown + groups.flatten.length ≤ options.limit) (hne : groups ≠ []) :
    groupTexts options first shown groups =
      gapBefore first ++ groupsText options.colored groups := by
  induction groups generalizing first shown with
  | nil => exact absurd rfl hne
  | cons group rest ih =>
      rw [List.flatten_cons, List.length_append] at h
      have hgroup : options.limit = 0 ∨ shown + group.length ≤ options.limit := by omega
      rw [groupTexts, groupText_of_le hgroup]
      dsimp only
      rcases eq_or_ne rest [] with rfl | hrest
      · simp [groupTexts, groupsText, gapBefore]
      · rw [ih (by omega) hrest, groupsText_cons _ _ hrest]
        simp [gapBefore, String.append_assoc]

theorem groupTexts_of_lt {first : Bool} (hlimit : options.limit ≠ 0)
    (hshown : shown ≤ options.limit) (h : options.limit < shown + groups.flatten.length) :
    groupTexts options first shown groups =
      gapBefore first ++
        groupsText options.colored (firstChanges (options.limit - shown) groups) ++ cutLine := by
  induction groups generalizing first shown with
  | nil => exact absurd h (by simpa using hshown)
  | cons group rest ih =>
      rw [List.flatten_cons, List.length_append] at h
      rw [groupTexts, firstChanges]
      by_cases hgroup : options.limit < shown + group.length
      · have hcut : options.limit - shown < group.length := by omega
        rw [groupText_of_lt hlimit hshown hgroup, if_pos hcut]
        simp [groupsText, gapBefore, String.append_assoc]
      · have hrest : rest ≠ [] := by
          rintro rfl
          simp at h
          omega
        have hwhole : ¬options.limit - shown < group.length := by omega
        rw [groupText_of_le (.inr (by omega)), if_neg hwhole,
          groupsText_cons _ _ (firstChanges_ne_nil hrest _)]
        dsimp only
        rw [ih (by omega) (by omega), Nat.sub_sub]
        simp [gapBefore, String.append_assoc]

theorem groupReport_of_le
    (h : options.limit = 0 ∨ groups.flatten.length ≤ options.limit) :
    groupReport options groups =
      headline options.colored ++ groupsText options.colored groups := by
  unfold groupReport
  rcases eq_or_ne groups [] with rfl | hne
  · simp [groupTexts, groupsText]
  · rw [groupTexts_of_le (by simpa using h) hne]
    simp [gapBefore]

theorem groupReport_of_lt (hlimit : options.limit ≠ 0)
    (h : options.limit < groups.flatten.length) :
    groupReport options groups =
      headline options.colored ++
        groupsText options.colored (firstChanges options.limit groups) ++ cutLine := by
  unfold groupReport
  rw [groupTexts_of_lt hlimit (Nat.zero_le _) (by simpa using h)]
  simp [gapBefore, String.append_assoc]

end Limit

/-! ## Reports without colours -/

def Change.signed (change : Change) : String := change.kind.sign ++ printed change.line

/-- The groups line by line, with a gap between two of them. -/
def plainText (groups : List (List Change)) : String :=
  gapLine.intercalate (groups.map fun group => String.join (group.map Change.signed))

theorem display_false (change : Change) : change.display false = change.signed := by
  obtain ⟨kind, line⟩ := change
  cases kind <;> rfl

theorem groupsText_false (groups : List (List Change)) :
    groupsText false groups = plainText groups := by
  have hlines : linesText false = fun group => String.join (group.map Change.signed) := by
    funext group
    simp only [linesText, display_false]
  rw [groupsText, plainText, hlines]

theorem exists_toList_signed (change : Change) :
    ∃ c, c ≠ '.' ∧ c ≠ '\n' ∧ change.signed.toList = c :: (printed change.line).toList := by
  obtain ⟨kind, line⟩ := change
  rw [Change.signed, String.toList_append]
  cases kind with
  | kept => exact ⟨' ', by decide, by decide, by simp [ChangeKind.sign]⟩
  | removed => exact ⟨'-', by decide, by decide, by simp [ChangeKind.sign]⟩
  | added => exact ⟨'+', by decide, by decide, by simp [ChangeKind.sign]⟩

/-- A signed line is one line, and it is ended. -/
theorem isLine_signed {change : Change} (h : IsLine change.line) :
    IsLine change.signed ∧ endsLine change.signed = true := by
  obtain ⟨sign, -, hfeed, htext⟩ := exists_toList_signed change
  obtain ⟨c, hlast, hends⟩ := exists_getLast?_printed change.line
  have hne : (printed change.line).toList ≠ [] := by
    intro hnil
    simp [hnil] at hlast
  constructor
  · rw [IsLine, htext, List.dropLast_cons_of_ne_nil hne]
    exact List.not_mem_cons_of_ne_of_not_mem hfeed.symm h.printed
  · rw [endsLine, htext, List.getLast?_cons, hlast]
    simpa using hends

/-- The cut line without its line feed. -/
def cutMark : List Char := cutLine.toList.dropLast

/-- What stands in front of a text makes no cut line of it. -/
def Uncut (lead : List Char) : Prop :=
  ∀ rest, cutMark ∉ Text.pieces '\n' rest → cutMark ∉ Text.pieces '\n' (lead ++ rest)

namespace Uncut

theorem append {first rest : List Char} (h : Uncut first) (h' : Uncut rest) :
    Uncut (first ++ rest) := by
  intro text htext
  rw [List.append_assoc]
  exact h _ (h' text htext)

/-- A whole line that is another one. -/
theorem of_line {line : List Char} (hfeed : '\n' ∉ line) (hother : line ≠ cutMark) :
    Uncut (line ++ ['\n']) := by
  intro rest hrest
  rw [List.append_assoc, List.singleton_append, Text.pieces_append_cons hfeed]
  exact List.not_mem_cons_of_ne_of_not_mem hother.symm hrest

/-- A text that begins otherwise, and has no line feed but at its end. -/
theorem of_head {c : Char} {text : List Char} (hpoint : c ≠ '.') (hfeed : c ≠ '\n')
    (hline : '\n' ∉ text.dropLast) : Uncut (c :: text) := by
  have hbegins (tail : List Char) : c :: tail ≠ cutMark := by
    intro heq
    have hhead : (c :: tail).head? = some '.' := by rw [heq]; decide
    exact hpoint (Option.some.inj hhead)
  by_cases hend : '\n' ∈ text
  · have hsplit := List.dropLast_append_getLast (List.ne_nil_of_mem hend)
    have hlast : text.getLast (List.ne_nil_of_mem hend) = '\n' := by
      rw [← hsplit, List.mem_append, List.mem_singleton] at hend
      exact (hend.resolve_left hline).symm
    rw [hlast] at hsplit
    rw [← hsplit, ← List.cons_append]
    exact of_line (List.not_mem_cons_of_ne_of_not_mem hfeed.symm hline) (hbegins _)
  · intro rest hrest
    have hlead : '\n' ∉ c :: text := List.not_mem_cons_of_ne_of_not_mem hfeed.symm hend
    rw [Text.pieces_append_of_not_mem hlead]
    apply List.not_mem_cons_of_ne_of_not_mem (hbegins _).symm
    exact fun hmem => hrest (List.mem_of_mem_tail hmem)

theorem signed {change : Change} (h : IsLine change.line) : Uncut change.signed.toList := by
  obtain ⟨c, hpoint, hfeed, htext⟩ := exists_toList_signed change
  rw [htext]
  exact of_head hpoint hfeed h.printed

theorem signedLines {group : List Change} (h : ∀ change ∈ group, IsLine change.line) :
    Uncut (String.join (group.map Change.signed)).toList := by
  induction group with
  | nil => exact fun rest hrest => hrest
  | cons change rest ih =>
      obtain ⟨hchange, hrest⟩ := List.forall_mem_cons.mp h
      rw [List.map_cons, String.join_cons, String.toList_append]
      exact (signed hchange).append (ih hrest)

theorem plainText {groups : List (List Change)}
    (h : ∀ group ∈ groups, ∀ change ∈ group, IsLine change.line) :
    Uncut (plainText groups).toList := by
  have hgap : Uncut gapLine.toList := by
    rw [show gapLine.toList = ['.', '.', '.'] ++ ['\n'] by decide]
    exact of_line (by decide) (by decide)
  induction groups with
  | nil => exact fun rest hrest => hrest
  | cons group rest ih =>
      obtain ⟨hgroup, hrest⟩ := List.forall_mem_cons.mp h
      rcases eq_or_ne rest [] with rfl | hne
      · simpa [Diff.plainText] using signedLines hgroup
      · rw [Diff.plainText, List.map_cons, String.intercalate_cons_of_ne_nil (by simpa using hne),
          String.toList_append, String.toList_append]
        exact ((signedLines hgroup).append hgap).append (ih hrest)

theorem headline : Uncut "=== Diff Output ===\n".toList := by
  rw [show "=== Diff Output ===\n".toList = "=== Diff Output ===".toList ++ ['\n'] by decide]
  exact of_line (by decide) (by decide)

end Uncut

/-- The report of groups of changes of one line each, whatever comparison has delivered them.  Each
change is one line behind its sign.  Without a limit, or with no more changes than the limit, the
report has them all, with a gap between two groups, and none of its lines is the cut line.
Otherwise it has exactly the first ones, as many as the limit, and ends in the cut line. -/
theorem groupReport_limit {options : Options} {groups : List (List Change)}
    (hplain : options.colored = false)
    (hlines : ∀ group ∈ groups, ∀ change ∈ group, IsLine change.line) :
    (∀ change ∈ groups.flatten, IsLine change.signed ∧ endsLine change.signed = true) ∧
      (options.limit = 0 ∨ groups.flatten.length ≤ options.limit →
        groupReport options groups = "=== Diff Output ===\n" ++ plainText groups ∧
          cutMark ∉ Text.pieces '\n' (groupReport options groups).toList) ∧
      (options.limit ≠ 0 → options.limit < groups.flatten.length →
        (firstChanges options.limit groups).flatten = groups.flatten.take options.limit ∧
          groupReport options groups =
            "=== Diff Output ===\n" ++ plainText (firstChanges options.limit groups) ++
              "... (diff truncated) ...\n") := by
  have hheadline : headline options.colored = "=== Diff Output ===\n" := by
    rw [hplain]
    rfl
  refine ⟨?_, ?_, ?_⟩
  · intro change hchange
    obtain ⟨group, hgroup, hmem⟩ := List.mem_flatten.mp hchange
    exact isLine_signed (hlines group hgroup change hmem)
  · intro hfits
    have hreport : groupReport options groups = "=== Diff Output ===\n" ++ plainText groups := by
      rw [groupReport_of_le hfits, hheadline, hplain, groupsText_false]
    refine ⟨hreport, ?_⟩
    -- every line of the report begins with the sign of a change or is a gap, and the cut is neither
    rw [hreport, String.toList_append]
    simpa using (Uncut.headline.append (Uncut.plainText hlines)) [] (by decide)
  · intro hlimit hmore
    refine ⟨flatten_firstChanges options.limit groups, ?_⟩
    rw [groupReport_of_lt hlimit hmore, hheadline, hplain, groupsText_false]
    rfl

/-! ## Comparisons -/

/-- The selected changes of two texts, in their groups. -/
def selectedChanges (options : Options) (expected actual : String) : List (List Change) :=
  selected options (blocks (lines expected) (lines actual))

theorem isLine_of_mem_selectedChanges {options : Options} {expected actual : String}
    {group : List Change} (hgroup : group ∈ selectedChanges options expected actual)
    {change : Change} (hchange : change ∈ group) : IsLine change.line :=
  (allLines_blocks (fun _ => isLine_of_mem_lines) (fun _ => isLine_of_mem_lines)).selected options
    group hgroup change hchange

theorem output_compare {options : Options} {patterns : List Matcher} {expected actual : String}
    (h : maskAll patterns expected ≠ maskAll patterns actual) :
    (compare options patterns expected actual).output =
      groupReport options
        (selectedChanges options (maskAll patterns expected) (maskAll patterns actual)) := by
  unfold compare
  rw [if_neg h]
  rfl

/-- The report on two texts that differ after masking.  Each selected change is one line behind its
sign.  Without a limit, or with no more of them than the limit, the report has them all, with a gap
between two groups, and none of its lines is the cut line.  Otherwise it has exactly the first ones,
as many as the limit, and ends in the cut line. -/
theorem output_compare_limit {options : Options} {patterns : List Matcher}
    {expected actual : String} (hplain : options.colored = false)
    (hdiffers : maskAll patterns expected ≠ maskAll patterns actual) :
    let groups := selectedChanges options (maskAll patterns expected) (maskAll patterns actual)
    let output := (compare options patterns expected actual).output
    (∀ change ∈ groups.flatten, IsLine change.signed ∧ endsLine change.signed = true) ∧
      (options.limit = 0 ∨ groups.flatten.length ≤ options.limit →
        output = "=== Diff Output ===\n" ++ plainText groups ∧
          cutMark ∉ Text.pieces '\n' output.toList) ∧
      (options.limit ≠ 0 → options.limit < groups.flatten.length →
        (firstChanges options.limit groups).flatten = groups.flatten.take options.limit ∧
          output = "=== Diff Output ===\n" ++ plainText (firstChanges options.limit groups) ++
            "... (diff truncated) ...\n") := by
  intro groups output
  have houtput : output = groupReport options groups := output_compare hdiffers
  rw [houtput]
  exact groupReport_limit hplain fun group hgroup change => isLine_of_mem_selectedChanges hgroup

/-- With room for two lines the report is cut between the two groups. -/
theorem output_compare_limit_twoGroups :
    maskAll [] "a\nb\nc\n" ≠ maskAll [] "x\nb\nz\n" ∧
      (compare ⟨false, 0, false, 2⟩ [] "a\nb\nc\n" "x\nb\nz\n").output =
        "=== Diff Output ===\n-a\n+x\n...\n... (diff truncated) ...\n" ∧
      (compare ⟨false, 0, false, 4⟩ [] "a\nb\nc\n" "x\nb\nz\n").output =
        "=== Diff Output ===\n-a\n+x\n...\n-c\n+z\n" := by
  have hdiffers : maskAll [] "a\nb\nc\n" ≠ maskAll [] "x\nb\nz\n" := by decide +kernel
  have hcut := (output_compare_limit
    (show Options.colored ⟨false, 0, false, 2⟩ = false from rfl) hdiffers).2.2 (by decide)
      (by decide +kernel)
  have hwhole := (output_compare_limit
    (show Options.colored ⟨false, 0, false, 4⟩ = false from rfl) hdiffers).2.1
      (by decide +kernel)
  exact ⟨hdiffers, hcut.2.trans (by decide +kernel), hwhole.1.trans (by decide +kernel)⟩

end FormCompiler.Diff
