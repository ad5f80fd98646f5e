import FormCompiler.Proofs.Json.Scalars

/-!
# Reading written values

A value that is written over several lines is read back as itself, if its numbers are: every
container is read item by item, each with the text of all that follows as its rest.
-/

namespace FormCompiler

open Source (Apart apart_cons ne_of_holds)

namespace Json

/-! ## Values that can be read again -/

mutual

/-- Whether the reader gives all numbers of a value back. -/
def IsStable : Json → Prop
  | .null => True
  | .boolean _ => True
  | .number value => value.IsStable
  | .text _ => True
  | .array items => AreStable items
  | .object members => HaveStable members

def AreStable : List Json → Prop
  | [] => True
  | item :: rest => item.IsStable ∧ AreStable rest

def HaveStable : List (String × Json) → Prop
  | [] => True
  | (_, value) :: rest => value.IsStable ∧ HaveStable rest

end

theorem areStable_iff {items : List Json} :
    AreStable items ↔ ∀ item ∈ items, item.IsStable := by
  induction items with
  | nil => simp [AreStable]
  | cons item rest ih => simp [AreStable, ih]

theorem haveStable_iff {members : List (String × Json)} :
    HaveStable members ↔ ∀ member ∈ members, member.2.IsStable := by
  induction members with
  | nil => simp [HaveStable]
  | cons member rest ih =>
      obtain ⟨name, value⟩ := member
      simp [HaveStable, ih]

/-! ## Gaps -/

theorem skipGap_of_not_isGap {c : Char} (h : isGap c = false) (rest : List Char) :
    skipGap (c :: rest) = c :: rest := by
  simp [skipGap, h]

theorem toList_newLine (depth : Nat) :
    (newLine depth).toList = '\n' :: List.replicate (2 * depth) ' ' := by
  simp [newLine]

theorem skipGap_newLine (depth : Nat) (rest : List Char) :
    skipGap ((newLine depth).toList ++ rest) = skipGap rest := by
  refine List.dropWhile_append_of_pos fun c hmem => ?_
  rw [toList_newLine] at hmem
  rcases List.mem_cons.mp hmem with rfl | hmem
  · rfl
  · rw [List.eq_of_mem_replicate hmem]
    rfl

/-! ## The text of containers -/

theorem toList_intercalate (first : String) (others : List String) :
    (",".intercalate (first :: others)).toList =
      first.toList ++ others.flatMap fun text => ',' :: text.toList := by
  induction others generalizing first with
  | nil => simp
  | cons second others ih =>
      rw [String.intercalate_cons_cons, String.toList_append, String.toList_append, ih,
        List.flatMap_cons, List.append_assoc]
      rfl

/-- The items after the first one, each behind a comma. -/
def itemsText (depth : Nat) (items : List Json) : List Char :=
  (prettyItems depth items).flatMap fun text => ',' :: text.toList

def membersText (depth : Nat) (members : List (String × Json)) : List Char :=
  (prettyMembers depth members).flatMap fun text => ',' :: text.toList

theorem itemsText_cons (depth : Nat) (item : Json) (rest : List Json) :
    itemsText depth (item :: rest) =
      ',' :: ((newLine depth).toList ++ ((prettyAt depth item).toList ++
        itemsText depth rest)) := by
  simp [itemsText, prettyItems]

theorem toList_prettyAt_array (depth : Nat) (item : Json) (rest : List Json) :
    (prettyAt depth (.array (item :: rest))).toList =
      '[' :: ((newLine (depth + 1)).toList ++ ((prettyAt (depth + 1) item).toList ++
        (itemsText (depth + 1) rest ++ ((newLine depth).toList ++ [']'])))) := by
  simp only [prettyAt, prettyItems, String.toList_append, toList_intercalate]
  simp [itemsText]

def memberText (depth : Nat) (name : String) (value : Json) : List Char :=
  name.toList.flatMap escapedChar ++ '"' :: ':' :: ' ' :: (prettyAt depth value).toList

theorem membersText_cons (depth : Nat) (name : String) (value : Json)
    (rest : List (String × Json)) :
    membersText depth ((name, value) :: rest) =
      ',' :: ((newLine depth).toList ++ '"' :: (memberText depth name value ++
        membersText depth rest)) := by
  simp [membersText, prettyMembers, memberText, toList_quoted]

theorem toList_prettyAt_object (depth : Nat) (name : String) (value : Json)
    (rest : List (String × Json)) :
    (prettyAt depth (.object ((name, value) :: rest))).toList =
      '\x7b' :: ((newLine (depth + 1)).toList ++ '"' :: (memberText (depth + 1) name value ++
        (membersText (depth + 1) rest ++ ((newLine depth).toList ++ ['\x7d'])))) := by
  simp only [prettyAt, prettyMembers, String.toList_append, toList_intercalate]
  simp [membersText, memberText, toList_quoted]

/-! ## The reader at a value -/

/-- What no value begins with: a gap, or the end of a container. -/
def beginsNoValue (c : Char) : Bool := isGap c || c == ']' || c == '\x7d'

theorem isGap_of_beginsNoValue {c : Char} (h : beginsNoValue c = false) : isGap c = false := by
  simp only [beginsNoValue, Bool.or_eq_false_iff] at h
  exact h.1.1

theorem beginsNoValue_of_startsNumber {c : Char} (h : startsNumber c = true) :
    beginsNoValue c = false := by
  cases hc : beginsNoValue c with
  | false => rfl
  | true =>
      simp only [beginsNoValue, isGap, Bool.or_eq_true, decide_eq_true_eq, beq_iff_eq] at hc
      rcases hc with ((((rfl | rfl) | rfl) | rfl) | rfl) | rfl <;> cases h

/-- A written value begins with its own first character. -/
theorem exists_cons_prettyAt (depth : Nat) {value : Json} (h : value.IsStable) :
    ∃ c rest, (prettyAt depth value).toList = c :: rest ∧ beginsNoValue c = false := by
  cases value with
  | null => exact ⟨'n', ['u', 'l', 'l'], by simp [prettyAt], rfl⟩
  | boolean value =>
      cases value with
      | true => exact ⟨'t', ['r', 'u', 'e'], by simp [prettyAt], rfl⟩
      | false => exact ⟨'f', ['a', 'l', 's', 'e'], by simp [prettyAt], rfl⟩
  | number value =>
      rw [IsStable] at h
      obtain ⟨c, rest, htext, hc⟩ := exists_cons_numberText h
      exact ⟨c, rest, by rw [prettyAt, htext], beginsNoValue_of_startsNumber hc⟩
  | text value => exact ⟨'"', _, by rw [prettyAt, toList_quoted], rfl⟩
  | array items =>
      cases items with
      | nil => exact ⟨'[', [']'], by simp [prettyAt], rfl⟩
      | cons item rest => exact ⟨'[', _, toList_prettyAt_array depth item rest, rfl⟩
  | object members =>
      cases members with
      | nil => exact ⟨'\x7b', ['\x7d'], by simp [prettyAt], rfl⟩
      | cons member rest =>
          exact ⟨'\x7b', _, toList_prettyAt_object depth member.1 member.2 rest, rfl⟩

theorem readNode_quote (steps : Nat) (text : String) (rest : List Char)
    (hsteps : text.toList.length < steps) :
    readNode (steps + 1) ((quoted text).toList ++ rest) = (.text (.ok text), some rest) := by
  rw [toList_quoted, List.cons_append, List.append_assoc, List.singleton_append, readNode,
    skipGap_of_not_isGap rfl]
  simp only [if_pos, readText_quoted text rest hsteps]

theorem readNode_number (steps : Nat) {number : JsonNumber} (h : number.IsStable)
    {rest : List Char} (hrest : Apart continuesNumeral rest) :
    readNode (steps + 1) ((numberText number).toList ++ rest) =
      (.number (some number), some rest) := by
  have hread := readNumber_numberText h hrest
  obtain ⟨c, others, htext, hc⟩ := exists_cons_numberText h
  rw [htext] at hread ⊢
  have hgap := isGap_of_beginsNoValue (beginsNoValue_of_startsNumber hc)
  have hstart : (decide (c = '-') || c.isDigit) = true := hc
  rw [List.cons_append] at hread ⊢
  rw [readNode, skipGap_of_not_isGap hgap]
  simp only [ne_of_holds hc (show startsNumber '"' = false from rfl),
    ne_of_holds hc (show startsNumber '[' = false from rfl),
    ne_of_holds hc (show startsNumber '\x7b' = false from rfl),
    ne_of_holds hc (show startsNumber 'n' = false from rfl),
    ne_of_holds hc (show startsNumber 't' = false from rfl),
    ne_of_holds hc (show startsNumber 'f' = false from rfl), hstart, hread, if_true, if_false]

/-! ## The reader inside containers -/

theorem readNode_space (steps : Nat) (input : List Char) :
    readNode steps (' ' :: input) = readNode steps input := by
  cases steps with
  | zero => rfl
  | succ steps => rfl

/-- The first item, or the next one behind a comma, begins with the first character of its value. -/
theorem readItems_first (steps depth : Nat) {c : Char} (h : beginsNoValue c = false)
    (rest : List Char) :
    readItems (steps + 1) true ((newLine depth).toList ++ c :: rest) =
      readItem steps (c :: rest) := by
  have hclose : c ≠ ']' := by
    rintro rfl
    cases h
  rw [readItems, skipGap_newLine, skipGap_of_not_isGap (isGap_of_beginsNoValue h)]
  split
  · next heq => cases heq
  · next heq => exact absurd (List.cons.inj heq).1 hclose
  · next heq =>
    obtain ⟨rfl, rfl⟩ := List.cons.inj heq
    rfl

theorem readItems_next (steps depth : Nat) {c : Char} (h : beginsNoValue c = false)
    (rest : List Char) :
    readItems (steps + 1) false (',' :: ((newLine depth).toList ++ c :: rest)) =
      readItem steps (c :: rest) := by
  have hclose : c ≠ ']' := by
    rintro rfl
    cases h
  rw [readItems, skipGap_of_not_isGap rfl]
  split
  · next heq => cases heq
  · next heq => exact absurd (List.cons.inj heq).1 (by decide)
  · next heq =>
    obtain ⟨rfl, rfl⟩ := List.cons.inj heq
    rw [if_neg Bool.false_ne_true, if_pos rfl, skipGap_newLine,
      skipGap_of_not_isGap (isGap_of_beginsNoValue h)]
    split
    · next heq => cases heq
    · next heq => exact absurd (List.cons.inj heq).1 hclose
    · rfl

theorem readItems_close (steps depth : Nat) (first : Bool) (rest : List Char) :
    readItems (steps + 1) first ((newLine depth).toList ++ ']' :: rest) =
      (.done .closed, some rest) := by
  rw [readItems, skipGap_newLine, skipGap_of_not_isGap rfl]
  rfl

theorem readMembers_first (steps depth : Nat) (rest : List Char) :
    readMembers (steps + 1) true ((newLine depth).toList ++ '"' :: rest) =
      readMember steps rest := by
  rw [readMembers, skipGap_newLine, skipGap_of_not_isGap rfl]
  rfl

theorem readMembers_next (steps depth : Nat) (rest : List Char) :
    readMembers (steps + 1) false (',' :: ((newLine depth).toList ++ '"' :: rest)) =
      readMember steps rest := by
  have hquote := skipGap_of_not_isGap (show isGap '"' = false from rfl) rest
  rw [readMembers, skipGap_of_not_isGap rfl]
  split
  · next heq => cases heq
  · next heq => exact absurd (List.cons.inj heq).1 (by decide)
  · next heq =>
    obtain ⟨rfl, rfl⟩ := List.cons.inj heq
    rw [if_neg Bool.false_ne_true, if_pos rfl, skipGap_newLine, hquote]
    rfl

theorem readMembers_close (steps depth : Nat) (first : Bool) (rest : List Char) :
    readMembers (steps + 1) first ((newLine depth).toList ++ '\x7d' :: rest) =
      (.done .closed, some rest) := by
  rw [readMembers, skipGap_newLine, skipGap_of_not_isGap rfl]
  rfl

/-! ## The reader undoes the writer -/

theorem apart_newLine (depth : Nat) (rest : List Char) :
    Apart continuesNumeral ((newLine depth).toList ++ rest) := by
  rw [toList_newLine]
  exact apart_cons rfl _

/-- What follows an item: the next ones behind their commas, then the line of the bracket. -/
def afterItem (inner outer : Nat) (items : List Json) (rest : List Char) : List Char :=
  itemsText inner items ++ ((newLine outer).toList ++ ']' :: rest)

def afterMember (inner outer : Nat) (members : List (String × Json)) (rest : List Char) :
    List Char :=
  membersText inner members ++ ((newLine outer).toList ++ '\x7d' :: rest)

theorem apart_afterItem (inner outer : Nat) (items : List Json) (rest : List Char) :
    Apart continuesNumeral (afterItem inner outer items rest) := by
  cases items with
  | nil => exact apart_newLine outer _
  | cons item others =>
      rw [afterItem, itemsText_cons]
      exact apart_cons rfl _

theorem apart_afterMember (inner outer : Nat) (members : List (String × Json)) (rest : List Char) :
    Apart continuesNumeral (afterMember inner outer members rest) := by
  cases members with
  | nil => exact apart_newLine outer _
  | cons member others =>
      rw [afterMember, membersText_cons]
      exact apart_cons rfl _

theorem readNode_bracket (steps : Nat) (input : List Char) :
    readNode (steps + 1) ('[' :: input) =
      (.array (readItems steps true input).1, (readItems steps true input).2) := by
  rw [readNode, skipGap_of_not_isGap rfl]
  rfl

theorem readNode_brace (steps : Nat) (input : List Char) :
    readNode (steps + 1) ('\x7b' :: input) =
      (.object (readMembers steps true input).1, (readMembers steps true input).2) := by
  rw [readNode, skipGap_of_not_isGap rfl]
  rfl

/-- With so many steps the reader undoes the writer: at a value, at the first item and the first
member, at an item, at a member, and at what follows these. -/
structure ReadsBack (steps : Nat) : Prop where
  value : ∀ (v : Json) (depth : Nat) (rest : List Char), v.IsStable →
    3 * ((prettyAt depth v).toList ++ rest).length ≤ steps → Apart continuesNumeral rest →
      readNode steps ((prettyAt depth v).toList ++ rest) = (v.toNode, some rest)
  firstItem : ∀ (item : Json) (others : List Json) (inner outer : Nat) (rest : List Char),
    item.IsStable → AreStable others →
      3 * ((prettyAt inner item).toList ++ afterItem inner outer others rest).length + 2 ≤ steps →
        readItems steps true ((newLine inner).toList ++ ((prettyAt inner item).toList ++
          afterItem inner outer others rest)) = (toItems (item :: others), some rest)
  item : ∀ (item : Json) (others : List Json) (inner outer : Nat) (rest : List Char),
    item.IsStable → AreStable others →
      3 * ((prettyAt inner item).toList ++ afterItem inner outer others rest).length + 1 ≤ steps →
        readItem steps ((prettyAt inner item).toList ++ afterItem inner outer others rest) =
          (toItems (item :: others), some rest)
  items : ∀ (others : List Json) (inner outer : Nat) (rest : List Char), AreStable others →
    3 * (afterItem inner outer others rest).length ≤ steps →
      readItems steps false (afterItem inner outer others rest) = (toItems others, some rest)
  firstMember : ∀ (name : String) (v : Json) (others : List (String × Json)) (inner outer : Nat)
    (rest : List Char), v.IsStable → HaveStable others →
      3 * (memberText inner name v ++ afterMember inner outer others rest).length + 2 ≤ steps →
        readMembers steps true ((newLine inner).toList ++ '"' :: (memberText inner name v ++
          afterMember inner outer others rest)) = (toMembers ((name, v) :: others), some rest)
  member : ∀ (name : String) (v : Json) (others : List (String × Json)) (inner outer : Nat)
    (rest : List Char), v.IsStable → HaveStable others →
      3 * (memberText inner name v ++ afterMember inner outer others rest).length + 1 ≤ steps →
        readMember steps (memberText inner name v ++ afterMember inner outer others rest) =
          (toMembers ((name, v) :: others), some rest)
  members : ∀ (others : List (String × Json)) (inner outer : Nat) (rest : List Char),
    HaveStable others → 3 * (afterMember inner outer others rest).length ≤ steps →
      readMembers steps false (afterMember inner outer others rest) = (toMembers others, some rest)

namespace ReadsBack

variable {steps : Nat}

theorem zero : ReadsBack 0 where
  value v depth rest hv hsteps _ := by
    obtain ⟨c, tail, htext, -⟩ := exists_cons_prettyAt depth hv
    simp [htext] at hsteps
  firstItem _ _ _ _ _ _ _ hsteps := absurd hsteps (by omega)
  item _ _ _ _ _ _ _ hsteps := absurd hsteps (by omega)
  items others inner outer rest _ hsteps := by
    simp [afterItem] at hsteps
  firstMember _ _ _ _ _ _ _ _ hsteps := absurd hsteps (by omega)
  member _ _ _ _ _ _ _ _ hsteps := absurd hsteps (by omega)
  members others inner outer rest _ hsteps := by
    simp [afterMember] at hsteps

theorem value_succ (h : ReadsBack steps) (v : Json) (depth : Nat) (rest : List Char)
    (hv : v.IsStable) (hsteps : 3 * ((prettyAt depth v).toList ++ rest).length ≤ steps + 1)
    (hrest : Apart continuesNumeral rest) :
    readNode (steps + 1) ((prettyAt depth v).toList ++ rest) = (v.toNode, some rest) := by
  cases v with
  | null =>
      simp only [prettyAt]
      rfl
  | boolean value =>
      cases value <;>
      · simp only [prettyAt]
        rfl
  | number stored =>
      rw [IsStable] at hv
      rw [prettyAt, toNode]
      exact readNode_number steps hv hrest
  | text content =>
      have hlength := length_le_flatMap_escapedChar content.toList
      simp only [prettyAt, toList_quoted, List.length_append, List.length_cons] at hsteps
      rw [prettyAt, toNode]
      exact readNode_quote steps content rest (by omega)
  | array items =>
      cases items with
      | nil =>
          simp [prettyAt] at hsteps
          obtain ⟨more, rfl⟩ := Nat.exists_eq_add_one_of_ne_zero (show steps ≠ 0 by omega)
          simp only [prettyAt]
          rfl
      | cons item others =>
          rw [IsStable, AreStable] at hv
          rw [toList_prettyAt_array] at hsteps ⊢
          have hfirst := h.firstItem item others (depth + 1) depth rest hv.1 hv.2 (by
            simp only [afterItem, List.length_cons, List.length_append] at hsteps ⊢
            omega)
          simp only [List.cons_append, List.append_assoc, List.nil_append, readNode_bracket, toNode]
          rw [afterItem] at hfirst
          rw [hfirst]
  | object members =>
      cases members with
      | nil =>
          simp [prettyAt] at hsteps
          obtain ⟨more, rfl⟩ := Nat.exists_eq_add_one_of_ne_zero (show steps ≠ 0 by omega)
          simp only [prettyAt]
          rfl
      | cons member others =>
          obtain ⟨name, v⟩ := member
          rw [IsStable, HaveStable] at hv
          rw [toList_prettyAt_object] at hsteps ⊢
          have hfirst := h.firstMember name v others (depth + 1) depth rest hv.1 hv.2 (by
            simp only [afterMember, List.length_cons, List.length_append] at hsteps ⊢
            omega)
          simp only [List.cons_append, List.append_assoc, List.nil_append, readNode_brace, toNode]
          rw [afterMember] at hfirst
          rw [hfirst]

theorem succ (h : ReadsBack steps) : ReadsBack (steps + 1) where
  value := h.value_succ
  firstItem item others inner outer rest hitem hothers hsteps := by
    have hread := h.item item others inner outer rest hitem hothers (by omega)
    obtain ⟨c, tail, htext, hbegins⟩ := exists_cons_prettyAt inner hitem
    rw [htext, List.cons_append] at hread ⊢
    rw [readItems_first _ _ hbegins, hread]
  item item others inner outer rest hitem hothers hsteps := by
    have hread := h.value item inner _ hitem (by omega) (apart_afterItem inner outer others rest)
    have hnext := h.items others inner outer rest hothers (by
      rw [List.length_append] at hsteps
      omega)
    rw [readItem, hread]
    simp only [hnext, toItems]
  items others inner outer rest hothers hsteps := by
    cases others with
    | nil => exact readItems_close steps outer false rest
    | cons item others =>
        rw [AreStable] at hothers
        rw [afterItem, itemsText_cons] at hsteps ⊢
        have hread := h.item item others inner outer rest hothers.1 hothers.2 (by
          simp only [afterItem, List.length_cons, List.length_append] at hsteps ⊢
          omega)
        obtain ⟨c, tail, htext, hbegins⟩ := exists_cons_prettyAt inner hothers.1
        rw [afterItem, htext, List.cons_append] at hread
        simp only [List.cons_append, List.append_assoc, htext]
        rw [readItems_next _ _ hbegins, hread]
  firstMember name v others inner outer rest hv hothers hsteps := by
    rw [readMembers_first]
    exact h.member name v others inner outer rest hv hothers (by omega)
  member name v others inner outer rest hv hothers hsteps := by
    have hlength := length_le_flatMap_escapedChar name.toList
    simp only [memberText, List.append_assoc, List.cons_append, List.length_append,
      List.length_cons] at hsteps ⊢
    -- a quoted name takes a step for each of its characters
    have hname := readText_quoted name
      (':' :: ' ' :: ((prettyAt inner v).toList ++ afterMember inner outer others rest))
      (show name.toList.length < steps by omega)
    have hread := h.value v inner _ hv (by
      rw [List.length_append]
      omega) (apart_afterMember inner outer others rest)
    have hnext := h.members others inner outer rest hothers (by omega)
    rw [readMember, hname]
    simp only [skipGap_of_not_isGap (show isGap ':' = false from rfl), readNode_space, hread, hnext,
      toMembers]
  members others inner outer rest hothers hsteps := by
    cases others with
    | nil => exact readMembers_close steps outer false rest
    | cons member others =>
        obtain ⟨name, v⟩ := member
        rw [HaveStable] at hothers
        rw [afterMember, membersText_cons] at hsteps ⊢
        have hread := h.member name v others inner outer rest hothers.1 hothers.2 (by
          simp only [afterMember, List.length_cons, List.length_append] at hsteps ⊢
          omega)
        rw [afterMember] at hread
        simp only [List.cons_append, List.append_assoc]
        rw [readMembers_next, hread]

end ReadsBack

theorem readsBack (steps : Nat) : ReadsBack steps := by
  induction steps with
  | zero => exact ReadsBack.zero
  | succ steps ih => exact ih.succ

/-- The document of a written value is the document of the value, and nothing stands behind it. -/
theorem read_pretty {v : Json} (h : v.IsStable) : read v.pretty = (v.toNode, none) := by
  have hread := (readsBack (3 * v.pretty.toList.length + 3)).value v 0 [] h (by
    rw [List.append_nil]
    exact Nat.le_add_right _ 3) (Source.apart_nil _)
  rw [List.append_nil] at hread
  unfold read pretty at *
  simp only [hread]
  rfl

end Json

end FormCompiler
