import FormCompiler.Proofs.Text.Lines
import FormCompiler.Testing.Snapshot

/-!
# Reading the text of a snapshot

The text of a snapshot is a list of header lines, the separator, and the content.  A value with line
feeds takes several lines, and the reader goes by lines.  The principal results say what it makes of
the text: it finds the content again exactly when every line before the separator begins as a
header line does, and then the header says what its lines say one after the other.
-/

namespace FormCompiler.Snapshot

/-! ## Lines of a header -/

def headerMark : List Char := ['#', ' ']

def header? (line : List Char) : Option (List Char) := Text.after? headerMark (dropReturns line)

/-- The snapshot with what a line says. -/
def addLine (snapshot : Snapshot) (line : List Char) : Snapshot :=
  match header? line with
  | some header => snapshot.addHeader header
  | none => snapshot

theorem dropReturns_eq_rdropWhile (line : List Char) :
    dropReturns line = line.rdropWhile (· == '\r') := rfl

theorem dropReturns_eq_self {line : List Char} (h : line.getLast? ≠ some '\r') :
    dropReturns line = line := by
  rw [dropReturns_eq_rdropWhile, List.rdropWhile_eq_self_iff]
  intro hne hlast
  exact h (by rw [List.getLast?_eq_some_getLast hne, eq_of_beq hlast])

theorem getLast?_dropReturns (line : List Char) : (dropReturns line).getLast? ≠ some '\r' := by
  intro h
  have hsame := List.rdropWhile_idempotent (· == '\r') line
  obtain ⟨before, hbefore⟩ := List.getLast?_eq_some_iff.mp h
  rw [← dropReturns_eq_rdropWhile line, hbefore,
    List.rdropWhile_concat_pos _ _ _ (by simp)] at hsame
  have hlength := (List.rdropWhile_prefix (· == '\r') before).length_le
  rw [hsame, List.length_append, List.length_singleton] at hlength
  omega

/-- Carriage returns are dropped behind what does not end in one. -/
theorem dropReturns_append {lead : List Char} (hlast : lead.getLast? ≠ some '\r')
    (rest : List Char) : dropReturns (lead ++ rest) = lead ++ dropReturns rest := by
  induction rest using List.reverseRecOn with
  | nil => simpa [dropReturns] using dropReturns_eq_self hlast
  | append_singleton rest c ih =>
      simp only [dropReturns_eq_rdropWhile, ← List.append_assoc, List.rdropWhile_concat] at ih ⊢
      split
      · exact ih
      · simp

theorem header?_append (rest : List Char) :
    header? (headerMark ++ rest) = some (dropReturns rest) := by
  unfold header?
  rw [dropReturns_append (by decide), Text.after?_append]

/-- A line is a header line when it begins with the mark. -/
theorem header?_isSome_iff (line : List Char) :
    (header? line).isSome = true ↔ headerMark <+: line := by
  constructor
  · intro h
    obtain ⟨header, hheader⟩ := Option.isSome_iff_exists.mp h
    have hbegins := Text.after?_eq_some_iff.mp hheader
    exact (hbegins ▸ List.prefix_append headerMark header).trans
      (List.rdropWhile_prefix (· == '\r') line)
  · rintro ⟨rest, rfl⟩
    simp [header?_append]

/-! ## Steps of the reader -/

variable {fallback : String} {snapshot : Snapshot} {line : List Char} {rest : List (List Char)}

theorem ne_separator_of_header? {header : List Char} (h : header? line = some header) :
    dropReturns line ≠ separator.toList := by
  rw [Text.after?_eq_some_iff.mp h]
  simp [headerMark, separator]

/-- What the reader does with a line that others follow. -/
theorem parseLines_cons (hrest : rest ≠ []) :
    parseLines fallback snapshot (line :: rest) =
      if dropReturns line = separator.toList then
        .ok { snapshot with content := normalize (String.ofList (['\n'].intercalate rest)) }
      else
        match header? line with
        | some header => parseLines fallback (snapshot.addHeader header) rest
        | none => .error (.malformedHeader fallback (String.ofList (dropReturns line))) := by
  cases rest with
  | nil => exact absurd rfl hrest
  | cons next others => rfl

theorem parseLines_of_header (h : headerMark <+: line) (hrest : rest ≠ []) :
    parseLines fallback snapshot (line :: rest) =
      parseLines fallback (snapshot.addLine line) rest := by
  obtain ⟨header, hheader⟩ := Option.isSome_iff_exists.mp ((header?_isSome_iff line).mpr h)
  rw [parseLines_cons hrest, if_neg (ne_separator_of_header? hheader), addLine, hheader]

/-- Header lines are read one after the other. -/
theorem parseLines_append {lines : List (List Char)} (h : ∀ line ∈ lines, headerMark <+: line)
    (hrest : rest ≠ []) :
    parseLines fallback snapshot (lines ++ rest) =
      parseLines fallback (lines.foldl addLine snapshot) rest := by
  induction lines generalizing snapshot with
  | nil => rfl
  | cons line lines ih =>
      obtain ⟨hline, hlines⟩ := List.forall_mem_cons.mp h
      rw [List.cons_append, parseLines_of_header hline (by simp [hrest]), ih hlines,
        List.foldl_cons]

/-! ## The lines of a text -/

def entryLines (key value : String) : List (List Char) :=
  Text.pieces '\n' (headerMark ++ key.toList ++ [':', ' '] ++ value.toList)

def headerLines (snapshot : Snapshot) : List (List Char) :=
  entryLines "name" snapshot.name ++
    (match snapshot.description with
      | some description => entryLines "description" description
      | none => []) ++
    entryLines "created" snapshot.created ++ entryLines "updated" snapshot.updated

theorem pieces_headerLine (key value : String) (rest : List Char) :
    Text.pieces '\n' ((headerLine key value).toList ++ rest) =
      entryLines key value ++ Text.pieces '\n' rest := by
  rw [entryLines, ← Text.pieces_append]
  congr 1
  simp [headerLine, headerMark]

theorem pieces_toText (snapshot : Snapshot) :
    Text.pieces '\n' snapshot.toText.toList =
      snapshot.headerLines ++ separator.toList :: Text.pieces '\n' snapshot.content.toList := by
  have hseparator : Text.pieces '\n' (separator.toList ++ '\n' :: snapshot.content.toList) =
      separator.toList :: Text.pieces '\n' snapshot.content.toList :=
    Text.pieces_append_cons (by decide) _
  unfold toText headerLines
  cases snapshot.description with
  | none =>
      simp only [String.toList_append, List.append_assoc, String.toList_empty, List.nil_append,
        pieces_headerLine]
      exact congrArg _ (congrArg _ (congrArg _ hseparator))
  | some description =>
      simp only [String.toList_append, List.append_assoc, pieces_headerLine]
      exact congrArg _ (congrArg _ (congrArg _ (congrArg _ hseparator)))

/-! ## The content -/

/-- The lines after some others stand at the end of the text. -/
theorem intercalate_append_suffix (lines : List (List Char)) (hrest : rest ≠ []) :
    ['\n'].intercalate rest <:+ ['\n'].intercalate (lines ++ rest) := by
  induction lines with
  | nil => exact List.suffix_rfl
  | cons line lines ih =>
      rw [List.cons_append, List.intercalate_cons_of_ne_nil (by simp [hrest])]
      exact ih.trans (List.suffix_append _ _)

/-- What is read from a separator on, before the last one, is longer than the content behind it. -/
theorem normalize_ne_of_separator (lines : List (List Char)) (content : String) :
    normalize (String.ofList
        (['\n'].intercalate (lines ++ separator.toList :: Text.pieces '\n' content.toList))) ≠
      normalize content := by
  intro heq
  have htail : ['\n'].intercalate (separator.toList :: Text.pieces '\n' content.toList) =
      separator.toList ++ '\n' :: content.toList := by
    rw [List.intercalate_cons_of_ne_nil (Text.pieces_ne_nil _ _), Text.intercalate_pieces]
    simp
  obtain ⟨lead, hlead⟩ := intercalate_append_suffix lines
    (List.cons_ne_nil separator.toList (Text.pieces '\n' content.toList))
  rw [htail] at hlead
  rw [← hlead] at heq
  -- carriage returns aside, nothing is dropped from either text
  have hchars := congrArg (fun text => (String.toList text).filter (· ≠ '\r')) heq
  simp only [normalize, String.toList_ofList, Text.filter_unifyNewlines] at hchars
  have hlength := congrArg List.length hchars
  simp only [List.filter_append, List.length_append] at hlength
  have hseparator : 0 < (separator.toList.filter (· ≠ '\r')).length := by decide
  simp at hlength hseparator
  omega

/-- A line that is no header line ends the header before the content, or the reading. -/
theorem content_ne_of_parseLines {lines : List (List Char)} {content : String} {loaded : Snapshot}
    (h : ¬∀ line ∈ lines, headerMark <+: line)
    (hloaded : parseLines fallback snapshot
        (lines ++ separator.toList :: Text.pieces '\n' content.toList) = .ok loaded) :
    loaded.content ≠ normalize content := by
  induction lines generalizing snapshot with
  | nil => simp at h
  | cons line lines ih =>
      have hrest : lines ++ separator.toList :: Text.pieces '\n' content.toList ≠ [] := by simp
      rw [List.cons_append] at hloaded
      by_cases hline : headerMark <+: line
      · rw [parseLines_of_header hline hrest] at hloaded
        exact ih (fun hlines => h (List.forall_mem_cons.mpr ⟨hline, hlines⟩)) hloaded
      · rw [← header?_isSome_iff, Option.not_isSome_iff_eq_none] at hline
        rw [parseLines_cons hrest, hline] at hloaded
        split at hloaded
        · cases hloaded
          exact normalize_ne_of_separator lines content
        · cases hloaded

/-- What the header of a snapshot says once its text is read. -/
def recovered (fallback : String) (snapshot : Snapshot) : Snapshot :=
  { snapshot.headerLines.foldl addLine ⟨fallback, none, "", "", ""⟩ with
    content := normalize snapshot.content }

/-- A header of header lines is read line by line, and the content follows. -/
theorem parse_toText (h : ∀ line ∈ snapshot.headerLines, headerMark <+: line) :
    parse fallback snapshot.toText = .ok (snapshot.recovered fallback) := by
  rw [parse, pieces_toText, parseLines_append h (List.cons_ne_nil _ _),
    parseLines_cons (Text.pieces_ne_nil _ _), if_pos (by decide), Text.intercalate_pieces,
    String.ofList_toList]
  rfl

/-- The content is found again exactly behind a header of header lines. -/
theorem exists_parse_toText_iff :
    (∃ loaded, parse fallback snapshot.toText = .ok loaded ∧
        loaded.content = normalize snapshot.content) ↔
      ∀ line ∈ snapshot.headerLines, headerMark <+: line := by
  constructor
  · rintro ⟨loaded, hloaded, hcontent⟩
    rw [parse, pieces_toText] at hloaded
    by_contra h
    exact content_ne_of_parseLines h hloaded hcontent
  · intro h
    exact ⟨_, parse_toText h, rfl⟩

/-! ## Values of a header -/

/-- Every further line of the value begins as a header line does. -/
def FitsHeader (value : String) : Prop :=
  ∀ line ∈ (Text.pieces '\n' value.toList).tail, headerMark <+: line

instance (value : String) : Decidable (FitsHeader value) :=
  inferInstanceAs (Decidable (∀ line ∈ _, _))

theorem fitsHeader_of_not_mem {value : String} (h : '\n' ∉ value.toList) : FitsHeader value := by
  rw [FitsHeader, Text.pieces_of_not_mem h]
  simp

/-- The first line of a value stands behind its key. -/
theorem entryLines_eq {key : String} (hkey : '\n' ∉ key.toList) (value : String) :
    entryLines key value =
      (headerMark ++ key.toList ++ [':', ' '] ++
          (Text.pieces '\n' value.toList).head (Text.pieces_ne_nil _ _)) ::
        (Text.pieces '\n' value.toList).tail :=
  Text.pieces_append_of_not_mem (by simpa [headerMark] using hkey) _

theorem forall_entryLines_iff {key : String} (hkey : '\n' ∉ key.toList) (value : String) :
    (∀ line ∈ entryLines key value, headerMark <+: line) ↔ FitsHeader value := by
  rw [entryLines_eq hkey, List.forall_mem_cons, FitsHeader]
  refine and_iff_right ?_
  simp only [List.append_assoc]
  exact List.prefix_append _ _

/-- The lines before the separator are header lines exactly when all values fit. -/
theorem forall_headerLines_iff :
    (∀ line ∈ snapshot.headerLines, headerMark <+: line) ↔
      FitsHeader snapshot.name ∧
        (∀ description, snapshot.description = some description → FitsHeader description) ∧
        FitsHeader snapshot.created ∧ FitsHeader snapshot.updated := by
  unfold headerLines
  cases snapshot.description with
  | none =>
      simp only [List.append_nil, List.forall_mem_append, and_assoc,
        forall_entryLines_iff (show '\n' ∉ "name".toList by decide),
        forall_entryLines_iff (show '\n' ∉ "created".toList by decide),
        forall_entryLines_iff (show '\n' ∉ "updated".toList by decide)]
      simp
  | some description =>
      simp only [List.forall_mem_append, and_assoc,
        forall_entryLines_iff (show '\n' ∉ "name".toList by decide),
        forall_entryLines_iff (show '\n' ∉ "description".toList by decide),
        forall_entryLines_iff (show '\n' ∉ "created".toList by decide),
        forall_entryLines_iff (show '\n' ∉ "updated".toList by decide)]
      simp

/-! ## What a header line says -/

/-- What the value of a key looks like once it is read: one line, with no return at its end. -/
structure IsHeaderValue (value : String) : Prop where
  no_feed : '\n' ∉ value.toList
  no_return : value.toList.getLast? ≠ some '\r'

theorem cut?_append {key : List Char} (h : ':' ∉ key) (value : List Char) :
    Text.cut? [':', ' '] (key ++ [':', ' '] ++ value) = some (key, value) := by
  induction key with
  | nil => rfl
  | cons c key ih =>
      obtain ⟨hc, hkey⟩ := List.ne_and_not_mem_of_not_mem_cons h
      simp only [List.cons_append, Text.cut?, Text.after?, if_neg hc]
      rw [ih hkey]
      rfl

theorem eq_of_cut? {separator text before after : List Char}
    (h : Text.cut? separator text = some (before, after)) :
    text = before ++ separator ++ after := by
  induction text generalizing before with
  | nil => cases h
  | cons c rest ih =>
      unfold Text.cut? at h
      split at h
      · next tail htail =>
        cases h
        exact Text.after?_eq_some_iff.mp htail
      · obtain ⟨⟨lead, tail⟩, hcut, hpair⟩ := Option.map_eq_some_iff.mp h
        cases hpair
        rw [ih hcut]
        simp

/-- The first line of an entry sets its key. -/
theorem addLine_entry {key : String} (hkey : ':' ∉ key.toList) (value : List Char) :
    snapshot.addLine (headerMark ++ key.toList ++ [':', ' '] ++ value) =
      snapshot.setHeader key (String.ofList (dropReturns value)) := by
  have hheader : header? (headerMark ++ key.toList ++ [':', ' '] ++ value) =
      some (key.toList ++ [':', ' '] ++ dropReturns value) := by
    rw [← dropReturns_append (by simp), ← header?_append]
    simp only [List.append_assoc]
  rw [addLine, hheader]
  simp only [addHeader, cut?_append hkey, String.ofList_toList]

/-- An entry of one line sets its key, returns at the end aside. -/
theorem foldl_entryLines {key value : String} (hkey : '\n' ∉ key.toList ∧ ':' ∉ key.toList)
    (hvalue : '\n' ∉ value.toList) :
    (entryLines key value).foldl addLine snapshot =
      snapshot.setHeader key (String.ofList (dropReturns value.toList)) := by
  simp only [entryLines_eq hkey.1, Text.pieces_of_not_mem hvalue, List.head_cons, List.tail_cons,
    List.foldl_cons, List.foldl_nil]
  exact addLine_entry hkey.2 value.toList

theorem IsHeaderValue.foldl_entryLines {key value : String} (hvalue : IsHeaderValue value)
    (hkey : '\n' ∉ key.toList ∧ ':' ∉ key.toList) :
    (entryLines key value).foldl addLine snapshot = snapshot.setHeader key value := by
  rw [Snapshot.foldl_entryLines hkey hvalue.no_feed, dropReturns_eq_self hvalue.no_return,
    String.ofList_toList]

/-! ## Descriptions -/

def descriptionMark : List Char := headerMark ++ "description".toList ++ [':', ' ']

theorem description_setHeader_eq_none_iff (key value : String) :
    (snapshot.setHeader key value).description = none ↔
      snapshot.description = none ∧ key ≠ "description" := by
  unfold setHeader
  split_ifs <;> simp_all

/-- A line gives a snapshot a description exactly when it begins with the mark of one. -/
theorem description_addLine_eq_none_iff (line : List Char) :
    (snapshot.addLine line).description = none ↔
      snapshot.description = none ∧ ¬descriptionMark <+: line := by
  by_cases hmark : descriptionMark <+: line
  · obtain ⟨value, rfl⟩ := hmark
    rw [descriptionMark, addLine_entry (by decide), description_setHeader_eq_none_iff]
    simp
  · simp only [hmark, not_false_eq_true, and_true]
    unfold addLine addHeader
    cases hheader : header? line with
    | none => rfl
    | some header =>
        cases hcut : Text.cut? [':', ' '] header with
        | none => simp [hcut]
        | some entry =>
            obtain ⟨key, value⟩ := entry
            simp only [hcut, description_setHeader_eq_none_iff]
            refine and_iff_left ?_
            intro hkey
            refine hmark (List.IsPrefix.trans ⟨value, ?_⟩ (List.rdropWhile_prefix (· == '\r') line))
            rw [← dropReturns_eq_rdropWhile, Text.after?_eq_some_iff.mp hheader, eq_of_cut? hcut,
              descriptionMark, ← hkey]
            simp

theorem description_foldl_addLine_eq_none_iff (lines : List (List Char)) :
    (lines.foldl addLine snapshot).description = none ↔
      snapshot.description = none ∧ ∀ line ∈ lines, ¬descriptionMark <+: line := by
  induction lines generalizing snapshot with
  | nil => simp
  | cons line lines ih =>
      rw [List.foldl_cons, ih, description_addLine_eq_none_iff, List.forall_mem_cons, and_assoc]

/-! ## Snapshots that were read -/

/-- The values of the header, the name aside, look as they do once they are read. -/
structure HasHeaderValues (snapshot : Snapshot) : Prop where
  description : ∀ description, snapshot.description = some description → IsHeaderValue description
  created : IsHeaderValue snapshot.created

theorem HasHeaderValues.setHeader {key value : String} (h : HasHeaderValues snapshot)
    (hvalue : IsHeaderValue value) : HasHeaderValues (snapshot.setHeader key value) := by
  unfold Snapshot.setHeader
  split_ifs
  · exact ⟨h.description, h.created⟩
  · exact ⟨fun _ heq => Option.some.inj heq ▸ hvalue, h.created⟩
  · exact ⟨h.description, hvalue⟩
  · exact ⟨h.description, h.created⟩
  · exact h

/-- The value of a header line is a part of its end. -/
theorem isHeaderValue_of_cut? {header key value : List Char} (hline : '\n' ∉ line)
    (hheader : header? line = some header)
    (hcut : Text.cut? [':', ' '] header = some (key, value)) :
    IsHeaderValue (String.ofList value) := by
  have hkept : dropReturns line = headerMark ++ key ++ [':', ' '] ++ value := by
    rw [Text.after?_eq_some_iff.mp hheader, eq_of_cut? hcut]
    simp
  have hmem : '\n' ∉ dropReturns line := fun hmem =>
    hline ((List.rdropWhile_prefix (· == '\r') line).subset hmem)
  have hlast := getLast?_dropReturns line
  rw [hkept] at hmem hlast
  refine ⟨by simp_all, ?_⟩
  rw [String.toList_ofList]
  intro heq
  obtain ⟨before, rfl⟩ := List.getLast?_eq_some_iff.mp heq
  exact hlast (by rw [← List.append_assoc]; exact List.getLast?_concat)

section Induction

variable {P : Snapshot → Prop}
  (hset : ∀ {snapshot : Snapshot} {key value : String}, P snapshot → IsHeaderValue value →
    P (snapshot.setHeader key value))
include hset

/-- What setting the values of a header keeps, a line keeps. -/
theorem addLine_induction (h : P snapshot) (hline : '\n' ∉ line) : P (snapshot.addLine line) := by
  unfold addLine addHeader
  cases hheader : header? line with
  | none => exact h
  | some header =>
      cases hcut : Text.cut? [':', ' '] header with
      | none => simpa only [hcut] using h
      | some entry => simpa only [hcut] using hset h (isHeaderValue_of_cut? hline hheader hcut)

/-- What setting the values of a header and the content keeps, reading keeps. -/
theorem parseLines_induction {lines : List (List Char)} {loaded : Snapshot}
    (hcontent : ∀ {snapshot : Snapshot} (content : String), P snapshot →
      P { snapshot with content := content })
    (h : P snapshot) (hlines : ∀ line ∈ lines, '\n' ∉ line)
    (hloaded : parseLines fallback snapshot lines = .ok loaded) : P loaded := by
  induction lines generalizing snapshot with
  | nil => cases hloaded
  | cons line rest ih =>
      obtain ⟨hline, hothers⟩ := List.forall_mem_cons.mp hlines
      rcases eq_or_ne rest [] with rfl | hrest
      · cases hloaded
      · rw [parseLines_cons hrest] at hloaded
        split at hloaded
        · cases hloaded
          exact hcontent _ h
        · split at hloaded
          · next header hheader =>
            have hadded := addLine_induction hset h hline
            rw [addLine, hheader] at hadded
            exact ih hadded hothers hloaded
          · cases hloaded

end Induction

/-- What is read from a file has values as a header gives them. -/
theorem hasHeaderValues_of_parse {text : String} {loaded : Snapshot}
    (hloaded : parse fallback text = .ok loaded) : HasHeaderValues loaded := by
  have hstart : HasHeaderValues (⟨fallback, none, "", "", ""⟩ : Snapshot) :=
    ⟨fun _ hsome => (nomatch hsome), ⟨by simp, by simp⟩⟩
  exact parseLines_induction HasHeaderValues.setHeader (fun _ h => ⟨h.description, h.created⟩)
    hstart (fun line hmem => Text.not_mem_of_mem_pieces hmem) hloaded

/-! ## What is recovered -/

/-- The last two entries are of one line each. -/
theorem foldl_headerLines {start : Snapshot} (h : HasHeaderValues snapshot)
    (hupdated : '\n' ∉ snapshot.updated.toList) :
    snapshot.headerLines.foldl addLine start =
      (((entryLines "name" snapshot.name ++
          (match snapshot.description with
            | some description => entryLines "description" description
            | none => [])).foldl addLine start).setHeader "created" snapshot.created).setHeader
        "updated" (String.ofList (dropReturns snapshot.updated.toList)) := by
  rw [headerLines, List.foldl_append, List.foldl_append,
    h.created.foldl_entryLines (by decide), foldl_entryLines (by decide) hupdated]

theorem created_recovered (h : HasHeaderValues snapshot)
    (hupdated : '\n' ∉ snapshot.updated.toList) :
    (snapshot.recovered fallback).created = snapshot.created := by
  rw [recovered, foldl_headerLines h hupdated]
  rfl

/-- A description is recovered; where there was none, none may stand in a further line of the
name. -/
theorem description_recovered_iff (fallback : String) (h : HasHeaderValues snapshot)
    (hupdated : '\n' ∉ snapshot.updated.toList) :
    (snapshot.recovered fallback).description = snapshot.description ↔
      (snapshot.description = none →
        ∀ line ∈ (Text.pieces '\n' snapshot.name.toList).tail, ¬descriptionMark <+: line) := by
  rw [recovered, foldl_headerLines h hupdated]
  cases hdescription : snapshot.description with
  | some description =>
      have hvalue := h.description description hdescription
      rw [List.foldl_append, hvalue.foldl_entryLines (by decide)]
      simp [setHeader]
  | none =>
      have hfirst (line : List Char) :
          ¬descriptionMark <+: headerMark ++ "name".toList ++ [':', ' '] ++ line := by
        simp [descriptionMark, headerMark]
      refine Iff.trans (description_foldl_addLine_eq_none_iff _) ?_
      rw [List.append_nil, entryLines_eq (by decide), List.forall_mem_cons]
      simp only [true_and, forall_const, and_iff_right (hfirst _)]

/-- A snapshot with values of one line is recovered as it is, returns before line feeds and at the
end of the last value aside. -/
theorem parse_toText_of_hasHeaderValues (h : HasHeaderValues snapshot)
    (hname : IsHeaderValue snapshot.name) (hupdated : '\n' ∉ snapshot.updated.toList)
    (fallback : String) :
    parse fallback snapshot.toText =
      .ok { snapshot with
        content := normalize snapshot.content
        updated := String.ofList (dropReturns snapshot.updated.toList) } := by
  have hfits : ∀ line ∈ snapshot.headerLines, headerMark <+: line := by
    refine forall_headerLines_iff.mpr ⟨?_, fun description hdescription => ?_, ?_, ?_⟩
    · exact fitsHeader_of_not_mem hname.no_feed
    · exact fitsHeader_of_not_mem (h.description description hdescription).no_feed
    · exact fitsHeader_of_not_mem h.created.no_feed
    · exact fitsHeader_of_not_mem hupdated
  rw [parse_toText hfits, recovered, foldl_headerLines h hupdated, List.foldl_append,
    hname.foldl_entryLines (by decide)]
  cases hdescription : snapshot.description with
  | none => simp [setHeader]
  | some description =>
      rw [(h.description description hdescription).foldl_entryLines (by decide)]
      simp [setHeader]

end FormCompiler.Snapshot
