import FormCompiler.Proofs.Testing.SnapshotText

/-!
# The format of snapshot files

The principal results say which snapshots are read from their text as they were, and that it does
not matter to the reader by which convention the lines of a file end.
-/

namespace FormCompiler.Snapshot

variable {fallback : String} {snapshot loaded : Snapshot}

/-! ## What is kept in a file -/

/-- Every value of the header looks as it does once it is read. -/
structure HasReadHeader (snapshot : Snapshot) : Prop extends HasHeaderValues snapshot where
  name : IsHeaderValue snapshot.name
  updated : IsHeaderValue snapshot.updated

/-- What a file keeps as it is: values of one line, none with a carriage return at its end, and a
content without a carriage return before a line feed. -/
structure IsStorable (snapshot : Snapshot) : Prop extends HasReadHeader snapshot where
  content : ¬['\r', '\n'] <:+: snapshot.content.toList

theorem HasReadHeader.setHeader {key value : String} (h : HasReadHeader snapshot)
    (hvalue : IsHeaderValue value) : HasReadHeader (snapshot.setHeader key value) := by
  have hvalues : HasHeaderValues (snapshot.setHeader key value) :=
    h.toHasHeaderValues.setHeader hvalue
  unfold Snapshot.setHeader at hvalues ⊢
  split_ifs at hvalues ⊢
  · exact ⟨hvalues, hvalue, h.updated⟩
  · exact ⟨hvalues, h.name, h.updated⟩
  · exact ⟨hvalues, h.name, h.updated⟩
  · exact ⟨hvalues, h.name, hvalue⟩
  · exact h

theorem isHeaderValue_dropReturns {line : List Char} (h : '\n' ∉ line) :
    IsHeaderValue (String.ofList (dropReturns line)) := by
  refine ⟨?_, ?_⟩
  · rw [String.toList_ofList]
    exact fun hmem => h ((List.rdropWhile_prefix (· == '\r') line).subset hmem)
  · rw [String.toList_ofList]
    exact getLast?_dropReturns line

/-- The text of a snapshot begins with a line of its name. -/
theorem exists_pieces_toText (snapshot : Snapshot) :
    ∃ value rest, Text.pieces '\n' snapshot.toText.toList =
        (headerMark ++ "name".toList ++ [':', ' '] ++ value) :: rest ∧
      '\n' ∉ value ∧ rest ≠ [] := by
  rw [pieces_toText, headerLines, entryLines_eq (by decide)]
  simp only [List.append_assoc, List.cons_append]
  exact ⟨_, _, rfl, Text.not_mem_of_mem_pieces (List.head_mem _), by simp⟩

/-- Since the name is read first, whatever stands for a missing one is not among the values. -/
theorem hasReadHeader_of_parse_toText (h : parse fallback snapshot.toText = .ok loaded) :
    HasReadHeader loaded := by
  obtain ⟨value, rest, hpieces, hvalue, hrest⟩ := exists_pieces_toText snapshot
  have hmark : headerMark <+: headerMark ++ "name".toList ++ [':', ' '] ++ value := by
    simp only [List.append_assoc]
    exact List.prefix_append _ _
  rw [parse, hpieces, parseLines_of_header hmark hrest, addLine_entry (by decide)] at h
  have hempty : IsHeaderValue "" := ⟨by decide, by decide⟩
  have hstart : HasReadHeader
      ((⟨fallback, none, "", "", ""⟩ : Snapshot).setHeader "name"
        (String.ofList (dropReturns value))) :=
    ⟨⟨fun _ hnone => absurd hnone (Option.not_mem_none _), hempty⟩,
      isHeaderValue_dropReturns hvalue, hempty⟩
  refine parseLines_induction HasReadHeader.setHeader
    (fun _ h => ⟨⟨h.description, h.created⟩, h.name, h.updated⟩) hstart (fun line hmem => ?_) h
  have hpiece : line ∈ Text.pieces '\n' snapshot.toText.toList := by
    rw [hpieces]
    exact List.mem_cons_of_mem _ hmem
  exact Text.not_mem_of_mem_pieces hpiece

/-- A snapshot is read from its text as it was, whatever stands for a missing name, exactly when a
file keeps it. -/
theorem parse_toText_eq_ok_iff (fallback : String) (snapshot : Snapshot) :
    parse fallback snapshot.toText = .ok snapshot ↔ snapshot.IsStorable := by
  have hread (hheader : HasReadHeader snapshot) : parse fallback snapshot.toText =
      .ok { snapshot with content := normalize snapshot.content } := by
    rw [parse_toText_of_hasHeaderValues hheader.toHasHeaderValues hheader.name
      hheader.updated.no_feed, dropReturns_eq_self hheader.updated.no_return, String.ofList_toList]
  constructor
  · intro h
    have hheader := hasReadHeader_of_parse_toText h
    rw [hread hheader] at h
    have hcontent : normalize snapshot.content = snapshot.content :=
      congrArg Snapshot.content (Except.ok.inj h)
    refine ⟨hheader, Text.unifyNewlines_eq_self_iff.mp ?_⟩
    rw [← String.toList_inj, normalize, String.toList_ofList] at hcontent
    exact hcontent
  · intro h
    have hcontent : normalize snapshot.content = snapshot.content := by
      rw [normalize, Text.unifyNewlines_eq_self_iff.mpr h.content, String.ofList_toList]
    rw [hread h.toHasReadHeader, hcontent]

/-! ## Line ends of a file -/

theorem dropReturns_concat (line : List Char) : dropReturns (line ++ ['\r']) = dropReturns line :=
  List.rdropWhile_concat_pos _ _ _ rfl

/-- The induction is on the lines.  A header line loses the return at its end, and behind the
separator the returns are dropped from all lines at once. -/
theorem parseLines_returned {lines : List (List Char)} (hlines : ∀ line ∈ lines, '\n' ∉ line)
    (hplain : ¬['\r', '\n'] <:+: ['\n'].intercalate lines) :
    parseLines fallback snapshot (Text.pieces '\n' (['\r', '\n'].intercalate lines)) =
      parseLines fallback snapshot lines := by
  induction lines generalizing snapshot with
  | nil => rfl
  | cons line rest ih =>
      obtain ⟨hline, hothers⟩ := List.forall_mem_cons.mp hlines
      rcases eq_or_ne rest [] with rfl | hrest
      · rw [List.intercalate_singleton, Text.pieces_of_not_mem hline]
      · rw [List.intercalate_cons_of_ne_nil hrest] at hplain
        have hreturned : '\n' ∉ line ++ ['\r'] := by simpa using hline
        have hafter : ¬['\r', '\n'] <:+: ['\n'].intercalate rest := fun hpair =>
          hplain (hpair.trans (List.suffix_append _ _).isInfix)
        have hsplit : line ++ ['\r', '\n'] ++ ['\r', '\n'].intercalate rest =
            line ++ ['\r'] ++ '\n' :: ['\r', '\n'].intercalate rest := by simp
        have hcontent : Text.unifyNewlines (['\r', '\n'].intercalate rest) =
            Text.unifyNewlines (['\n'].intercalate rest) := by
          rw [← Text.addReturns_intercalate hothers, Text.unifyNewlines_addReturns,
            Text.unifyNewlines_eq_self_iff.mpr hafter]
        rw [List.intercalate_cons_of_ne_nil hrest, hsplit, Text.pieces_append_cons hreturned,
          parseLines_cons (Text.pieces_ne_nil _ _), parseLines_cons hrest, header?,
          dropReturns_concat, ← header?]
        simp only [ih hothers hafter, Text.intercalate_pieces, normalize, String.toList_ofList,
          hcontent]

/-- A file is read as before, with the same snapshot or the same error, when each line feed in it
has become a carriage return and a line feed.  Only a file that ended a line so before is left
out. -/
theorem parse_addReturns (fallback : String) {text : String}
    (h : ¬['\r', '\n'] <:+: text.toList) :
    parse fallback (String.ofList (Text.addReturns text.toList)) = parse fallback text := by
  have hlines : ∀ line ∈ Text.pieces '\n' text.toList, '\n' ∉ line :=
    fun _ => Text.not_mem_of_mem_pieces
  have hreturned := Text.addReturns_intercalate hlines
  rw [Text.intercalate_pieces] at hreturned
  rw [parse, String.toList_ofList, hreturned, parse]
  exact parseLines_returned hlines (by rwa [Text.intercalate_pieces])

/-- A file with a header line that says nothing and with a separator in its content. -/
def busyFile : String := "# name: a\n# no key\n# updated: \n---\none\n---\n\n# name: b"

/-- A file in which a line before the separator is no header line. -/
def brokenFile : String := "# name: a\n#created: then\n---\none\n"

theorem parse_addReturns_busyFile :
    (¬['\r', '\n'] <:+: busyFile.toList ∧
        parse "c" (String.ofList (Text.addReturns busyFile.toList)) = parse "c" busyFile ∧
        parse "c" busyFile = .ok ⟨"a", none, "", "", "one\n---\n\n# name: b"⟩) ∧
      ¬['\r', '\n'] <:+: brokenFile.toList ∧
        parse "c" (String.ofList (Text.addReturns brokenFile.toList)) = parse "c" brokenFile ∧
        parse "c" brokenFile = .error (.malformedHeader "c" "#created: then") := by
  have hbusy : ¬['\r', '\n'] <:+: busyFile.toList := by decide +kernel
  have hbroken : ¬['\r', '\n'] <:+: brokenFile.toList := by decide +kernel
  exact ⟨⟨hbusy, parse_addReturns "c" hbusy, by decide +kernel⟩, hbroken,
    parse_addReturns "c" hbroken, by decide +kernel⟩

end FormCompiler.Snapshot
