import FormCompiler.Text.Search
import Mathlib.Data.List.DropRight

/-!
# Lines of a text

The pieces of a text between the occurrences of a mark are put together again with the mark, and
they are found one after the other.  Line ends are brought into one convention: a carriage return
is dropped where a line feed follows, and every other character stays.
-/

namespace FormCompiler.Text

/-! ## Pieces -/

theorem pieces_eq_splitOn (mark : Char) (text : List Char) :
    pieces mark text = text.splitOn mark := by
  change _ = text.splitOnP (· == mark)
  induction text with
  | nil => rfl
  | cons c rest ih =>
      unfold pieces
      rw [List.splitOnP_cons_eq_if_modifyHead, ih]
      by_cases hc : c = mark
      · simp [hc]
      · have hmark : (c == mark) = false := by simpa using hc
        rw [if_neg hc, hmark, if_neg Bool.false_ne_true]
        cases hrest : rest.splitOnP (· == mark) with
        | nil => exact absurd hrest (List.splitOn_ne_nil mark rest)
        | cons first others => rfl

theorem pieces_ne_nil (mark : Char) (text : List Char) : pieces mark text ≠ [] := by
  rw [pieces_eq_splitOn]
  exact List.splitOn_ne_nil mark text

@[simp] theorem intercalate_pieces (mark : Char) (text : List Char) :
    [mark].intercalate (pieces mark text) = text := by
  rw [pieces_eq_splitOn, List.intercalate_splitOn]

/-- The pieces before a mark and those after it. -/
theorem pieces_append (mark : Char) (text rest : List Char) :
    pieces mark (text ++ mark :: rest) = pieces mark text ++ pieces mark rest := by
  simp only [pieces_eq_splitOn]
  exact List.splitOnP_append_cons text rest (beq_self_eq_true mark)

theorem pieces_of_not_mem {mark : Char} {text : List Char} (h : mark ∉ text) :
    pieces mark text = [text] := by
  have hsingle : ([mark].intercalate [text]).splitOn mark = [text] :=
    List.splitOn_intercalate mark (by simpa using h) (by simp)
  rw [pieces_eq_splitOn]
  simpa using hsingle

/-- The piece before the first mark. -/
theorem pieces_append_cons {mark : Char} {text : List Char} (h : mark ∉ text)
    (rest : List Char) : pieces mark (text ++ mark :: rest) = text :: pieces mark rest := by
  rw [pieces_append, pieces_of_not_mem h]
  rfl

/-- What has no mark goes to the first piece. -/
theorem pieces_append_of_not_mem {mark : Char} {lead : List Char} (h : mark ∉ lead)
    (text : List Char) :
    pieces mark (lead ++ text) =
      (lead ++ (pieces mark text).head (pieces_ne_nil mark text)) :: (pieces mark text).tail := by
  induction lead with
  | nil => simp
  | cons c lead ih =>
      have hc : c ≠ mark := fun heq => h (heq ▸ List.mem_cons_self)
      have hlead : mark ∉ lead := fun hmem => h (List.mem_cons_of_mem c hmem)
      simp only [List.cons_append, pieces, if_neg hc, ih hlead]

theorem not_mem_of_mem_pieces {mark : Char} {text piece : List Char}
    (h : piece ∈ pieces mark text) : mark ∉ piece := by
  induction text generalizing piece with
  | nil => simp_all [pieces]
  | cons c rest ih =>
      unfold pieces at h
      split at h
      · rcases List.mem_cons.mp h with rfl | hmem
        · exact List.not_mem_nil
        · exact ih hmem
      · next hc =>
        cases hrest : pieces mark rest with
        | nil => exact absurd hrest (pieces_ne_nil mark rest)
        | cons first others =>
            rw [hrest] at h ih
            rcases List.mem_cons.mp h with rfl | hmem
            · exact List.not_mem_cons_of_ne_of_not_mem (Ne.symm hc) (ih List.mem_cons_self)
            · exact ih (List.mem_cons_of_mem first hmem)

/-- A character that is no mark goes to the last piece. -/
theorem pieces_concat {mark c : Char} (h : c ≠ mark) (text : List Char) :
    ∃ before last, pieces mark (text ++ [c]) = before ++ [last ++ [c]] := by
  induction text with
  | nil => exact ⟨[], [], by simp [pieces, h]⟩
  | cons d rest ih =>
      obtain ⟨before, last, hpieces⟩ := ih
      by_cases hd : d = mark
      · exact ⟨[] :: before, last, by simp [pieces, hd, hpieces]⟩
      · cases before with
        | nil => exact ⟨[], d :: last, by simp [pieces, hd, hpieces]⟩
        | cons first before =>
            exact ⟨(d :: first) :: before, last, by simp [pieces, hd, hpieces]⟩

/-! ## Line ends -/

theorem unifyNewlines_cons {c : Char} {rest : List Char}
    (h : c = '\r' → rest.head? ≠ some '\n') :
    unifyNewlines (c :: rest) = c :: unifyNewlines rest := by
  rw [unifyNewlines]
  rintro others rfl rfl
  exact h rfl rfl

/-- A text without carriage returns before line feeds stays what it is. -/
theorem unifyNewlines_eq_self {text : List Char} (h : occurs ['\r', '\n'] text = false) :
    unifyNewlines text = text := by
  induction text with
  | nil => rfl
  | cons c rest ih =>
      obtain ⟨hhere, hrest⟩ := Bool.or_eq_false_iff.mp h
      rw [unifyNewlines_cons, ih hrest]
      rintro rfl hhead
      cases rest with
      | nil => cases hhead
      | cons d rest =>
          cases hhead
          simp at hhere

theorem unifyNewlines_eq_self_iff {text : List Char} :
    unifyNewlines text = text ↔ ¬['\r', '\n'] <:+: text := by
  constructor
  · intro h
    fun_induction unifyNewlines text with
    | case1 => simp
    | case2 rest ih => cases h
    | case3 c rest hend ih =>
        rw [List.infix_cons_iff, not_or]
        refine ⟨?_, ih (List.cons.inj h).2⟩
        rintro ⟨after, hbegins⟩
        cases hbegins
        exact hend after rfl rfl
  · intro h
    refine unifyNewlines_eq_self (Bool.eq_false_iff.mpr fun hoccurs => h ?_)
    obtain ⟨before, rest, hsplit⟩ := occurs_iff.mp hoccurs
    exact ⟨before, rest, hsplit.symm⟩

theorem unifyNewlines_eq_self_of_not_mem {text : List Char} (h : '\r' ∉ text) :
    unifyNewlines text = text := by
  refine unifyNewlines_eq_self (Bool.eq_false_iff.mpr fun hoccurs => ?_)
  obtain ⟨before, rest, rfl⟩ := occurs_iff.mp hoccurs
  exact h (by simp)

/-- Nothing but carriage returns is dropped. -/
theorem filter_unifyNewlines (text : List Char) :
    (unifyNewlines text).filter (· ≠ '\r') = text.filter (· ≠ '\r') := by
  fun_induction unifyNewlines text with
  | case1 => rfl
  | case2 rest ih => simpa using ih
  | case3 c rest _ ih => simp only [List.filter_cons, ih]

theorem unifyNewlines_sublist (text : List Char) : (unifyNewlines text).Sublist text := by
  fun_induction unifyNewlines text with
  | case1 => exact .slnil
  | case2 rest ih => exact (ih.cons_cons '\n').cons '\r'
  | case3 c rest _ ih => exact ih.cons_cons c

/-- A line feed comes first where one did, or where one followed a carriage return. -/
theorem prefix_unifyNewlines_iff {text : List Char} :
    ['\n'] <+: unifyNewlines text ↔ ['\n'] <+: text ∨ ['\r', '\n'] <+: text := by
  fun_cases unifyNewlines text with
  | case1 => simp
  | case2 rest => simp [List.cons_prefix_cons]
  | case3 c rest hpair =>
      have hnot : ¬['\r', '\n'] <+: c :: rest := by
        rintro ⟨after, hbegins⟩
        cases hbegins
        exact hpair after rfl rfl
      simp [hnot, List.cons_prefix_cons]

/-- Of several carriage returns before a line feed only the last one is dropped. -/
theorem infix_unifyNewlines_iff {text : List Char} :
    ['\r', '\n'] <:+: unifyNewlines text ↔ ['\r', '\r', '\n'] <:+: text := by
  fun_induction unifyNewlines text with
  | case1 => simp
  | case2 rest ih =>
      rw [List.infix_cons_iff, List.infix_cons_iff, List.infix_cons_iff, ih]
      simp [List.cons_prefix_cons]
  | case3 c rest hpair ih =>
      rw [List.infix_cons_iff, List.infix_cons_iff, ih, List.cons_prefix_cons,
        List.cons_prefix_cons]
      refine or_congr_left (and_congr_right fun hc => ?_)
      have hfeed : ¬['\n'] <+: rest := by
        rintro ⟨after, rfl⟩
        exact hpair after hc.symm rfl
      rw [prefix_unifyNewlines_iff, or_iff_right hfeed]

/-- Unifying a second time drops nothing more unless two carriage returns stood before a line
feed. -/
theorem unifyNewlines_idempotent_iff {text : List Char} :
    unifyNewlines (unifyNewlines text) = unifyNewlines text ↔ ¬['\r', '\r', '\n'] <:+: text := by
  rw [unifyNewlines_eq_self_iff, infix_unifyNewlines_iff]

/-- A text that is itself again after unifying twice was so after the first time. -/
theorem unifyNewlines_unifyNewlines_eq_iff {text : List Char} :
    unifyNewlines (unifyNewlines text) = text ↔ ¬['\r', '\n'] <:+: text := by
  rw [← unifyNewlines_eq_self_iff]
  constructor
  · intro h
    have hagain := unifyNewlines_sublist (unifyNewlines text)
    rw [h] at hagain
    exact (unifyNewlines_sublist text).antisymm hagain
  · intro h
    rw [h, h]

/-- A carriage return put before every line feed. -/
def addReturns (text : List Char) : List Char :=
  text.flatMap fun c => if c = '\n' then ['\r', '\n'] else [c]

theorem addReturns_eq_self {text : List Char} (h : '\n' ∉ text) : addReturns text = text := by
  induction text with
  | nil => rfl
  | cons c rest ih =>
      obtain ⟨hc, hrest⟩ := List.ne_and_not_mem_of_not_mem_cons h
      rw [addReturns, List.flatMap_cons, if_neg hc.symm]
      exact congrArg (c :: ·) (ih hrest)

theorem addReturns_intercalate {lines : List (List Char)} (h : ∀ line ∈ lines, '\n' ∉ line) :
    addReturns (['\n'].intercalate lines) = ['\r', '\n'].intercalate lines := by
  induction lines with
  | nil => rfl
  | cons line rest ih =>
      obtain ⟨hline, hothers⟩ := List.forall_mem_cons.mp h
      rcases eq_or_ne rest [] with rfl | hrest
      · simpa using addReturns_eq_self hline
      · simp only [List.intercalate_cons_of_ne_nil hrest, ← ih hothers]
        conv_rhs => rw [← addReturns_eq_self hline]
        simp [addReturns]

/-- Returns that were put before line feeds are dropped again, and no others are. -/
theorem unifyNewlines_addReturns (text : List Char) : unifyNewlines (addReturns text) = text := by
  induction text with
  | nil => rfl
  | cons c rest ih =>
      by_cases hc : c = '\n'
      · subst hc
        exact congrArg ('\n' :: ·) ih
      · have hstep : addReturns (c :: rest) = c :: addReturns rest := by
          simp [addReturns, hc]
        rw [hstep, unifyNewlines_cons, ih]
        rintro rfl hhead
        cases rest with
        | nil => cases hhead
        | cons d rest =>
            rw [addReturns, List.flatMap_cons] at hhead
            split at hhead
            · cases hhead
            · next hd => exact hd (Option.some.inj hhead)

end FormCompiler.Text
