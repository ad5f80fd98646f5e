import FormCompiler.Proofs.Record.Modes
import FormCompiler.Proofs.Record.Stored

/-!
# Storing a loaded form

Loading makes every field settled: it has an identifier, and no text that would count as absent.
The record that is stored for a settled field gives the field back, without an identifier from the
source, and of the problems of the record that was first loaded it has all but a column span out
of bounds.  The principal result puts this together with the text of the records.
-/

namespace FormCompiler

/-! ## The record of a settled field -/

/-- The field has an identifier, and none of its settings is an empty text. -/
structure FieldSchema.IsSettled (field : FieldSchema) : Prop where
  id : field.id ≠ ""
  pattern : field.validation.pattern ≠ some ""
  customMessage : field.validation.customMessage ≠ some ""
  crossField : field.validation.crossField ≠ some ""

theorem nonEmpty?_ne (text : Option String) : nonEmpty? text ≠ some "" := by
  simp [nonEmpty?]

theorem nonEmpty?_eq_self {text : Option String} (h : text ≠ some "") : nonEmpty? text = text := by
  cases text with
  | none => rfl
  | some t =>
      have ht : t ≠ "" := fun heq => h (congrArg some heq)
      simp [nonEmpty?, ht]

/-- An absent text is stored as an empty one, which counts as absent. -/
theorem nonEmpty?_getD {text : Option String} (h : text ≠ some "") :
    nonEmpty? (some (text.getD "")) = text := by
  cases text with
  | none => rfl
  | some t => exact nonEmpty?_eq_self h

namespace FieldSchema

variable {σ : Type} [IdSource σ] {field : FieldSchema}

theorem takeId_toRecord (h : field.IsSettled) (ids : σ) :
    field.toRecord.takeId ids = (field.id, ids) := by
  have hid : nonEmpty? (some field.id) = some field.id :=
    nonEmpty?_eq_self fun heq => h.id (Option.some.inj heq)
  unfold FieldRecord.takeId toRecord
  simp only [hid]

theorem settledColumns_toRecord (field : FieldSchema) :
    field.toRecord.settledColumns = field.columns := by
  unfold FieldRecord.settledColumns toRecord
  cases field.columns <;> rfl

theorem rule_toRecord (h : field.IsSettled) :
    field.toRecord.validation.rule = field.validation := by
  have hcross : nonEmpty? ((field.validation.crossField.map CrossFieldRecord.reference).map
      CrossFieldRecord.field) = field.validation.crossField := by
    rw [Option.map_map]
    refine Eq.trans ?_ (nonEmpty?_eq_self h.crossField)
    congr 1
    exact Option.map_id'
  unfold ValidationRecord.rule toRecord
  simp only [nonEmpty?_getD h.pattern, nonEmpty?_getD h.customMessage, hcross]

theorem ofType_toRecord (field : FieldSchema) :
    FieldKind.ofType field.toRecord.type field.toRecord.options = field.kind := by
  unfold toRecord type
  cases field.kind <;> rfl

theorem conditions_toRecord (field : FieldSchema) :
    field.toRecord.conditions.map ConditionRecord.condition = field.conditions := by
  unfold toRecord
  rw [List.map_map]
  exact List.map_id' _

/-- The record of a settled field gives the field back. -/
theorem fieldWith_toRecord (h : field.IsSettled) : field.toRecord.fieldWith field.id = field := by
  unfold FieldRecord.fieldWith FieldRecord.draft FieldDraft.withId
  rw [rule_toRecord h, ofType_toRecord, conditions_toRecord, settledColumns_toRecord]
  rfl

end FieldSchema

namespace FormSchema

open Load FieldRecord FieldSchema

variable {σ : Type} [IdSource σ] {mode : StrictMode} {index : Nat} {seen : List String}
  {record : FieldRecord} {field : FieldSchema} {state reached : LoadState σ}

/-! ## Loaded fields and their records -/

/-- Loading settles a field, if the source never gives an empty identifier. -/
theorem MadeOf.isSettled (h : MadeOf σ record field)
    (hdrawn : ∀ ids : σ, (IdSource.next ids).1 ≠ "") : field.IsSettled := by
  obtain ⟨ids, rfl⟩ := h
  refine ⟨?_, nonEmpty?_ne _, nonEmpty?_ne _, nonEmpty?_ne _⟩
  change (record.takeId ids).1 ≠ ""
  unfold takeId
  split
  · next id hid => exact fun heq => nonEmpty?_ne record.id (heq ▸ hid)
  · exact hdrawn ids

/-- The problems that storing does not repair. -/
def stays (d : Diagnostic) : Bool := d.code ≠ .columnsClamped

theorem emptyOptions_toRecord_iff (record : FieldRecord) (id : String) :
    ((record.fieldWith id).toRecord.type = .select ∧ (record.fieldWith id).toRecord.options = []) ↔
      (record.type = .select ∧ record.options = []) := by
  have htype : (record.fieldWith id).toRecord.type = record.type :=
    FieldKind.type_ofType record.type record.options
  rw [htype]
  refine and_congr_right fun hselect => ?_
  have hkind : (record.fieldWith id).kind = .select record.options := by
    change FieldKind.ofType record.type record.options = _
    rw [hselect]
    rfl
  unfold toRecord
  rw [hkind]

theorem problems_toRecord (h : MadeOf σ record field) (path : String) :
    field.toRecord.problems path = (record.problems path).filter stays := by
  obtain ⟨ids, rfl⟩ := h
  generalize (record.takeId ids).1 = id
  have hname : (record.fieldWith id).toRecord.nameProblems path =
      (record.nameProblems path).filter stays := by
    change record.nameProblems path = _
    unfold nameProblems
    split <;> rfl
  have hoptions : (record.fieldWith id).toRecord.optionsProblems path =
      (record.optionsProblems path).filter stays := by
    unfold optionsProblems
    rw [if_congr (emptyOptions_toRecord_iff record id) rfl rfl]
    split <;> rfl
  have hcolumns : (record.fieldWith id).toRecord.columnsProblems path =
      (record.columnsProblems path).filter stays := by
    have hspan : (1 : Int) ≤ (record.fieldWith id).columns.span ∧
        ((record.fieldWith id).columns.span : Int) ≤ 3 := by
      cases (record.fieldWith id).columns <;> decide
    have hnone : (record.columnsProblems path).filter stays = [] := by
      unfold columnsProblems
      split
      · rfl
      · split <;> rfl
    rw [hnone]
    exact if_pos hspan
  unfold problems
  rw [hname, hoptions, hcolumns, List.filter_append, List.filter_append]

theorem offends_toRecord (h : MadeOf σ record field) :
    field.toRecord.Offends seen ↔ record.Offends seen := by
  obtain ⟨ids, rfl⟩ := h
  generalize (record.takeId ids).1 = id
  have hself : (record.fieldWith id).toRecord.IsSelfConditioned ↔ record.IsSelfConditioned := by
    unfold IsSelfConditioned
    change (∃ c ∈ (record.conditions.map ConditionRecord.condition).map _, _ = record.name) ↔ _
    simp only [List.map_map, List.mem_map, exists_exists_and_eq_and]
    rfl
  unfold Offends
  rw [hself]
  rfl

theorem acceptable_toRecord {records : List FieldRecord} {fields : List FieldSchema}
    (h : List.Forall₂ (MadeOf σ) records fields) :
    ∀ seen, Acceptable seen records → Acceptable seen (fields.map toRecord) := by
  induction h with
  | nil => exact fun _ h => h
  | cons hmade _ ih =>
      rintro seen ⟨hrecord, hrest⟩
      rw [List.map_cons]
      refine ⟨fun hoffends => hrecord ((offends_toRecord hmade).mp hoffends), ?_⟩
      rw [← hmade.name_eq] at hrest
      exact ih _ hrest

theorem problemsFrom_toRecord {records : List FieldRecord} {fields : List FieldSchema}
    (h : List.Forall₂ (MadeOf σ) records fields) :
    ∀ index, problemsFrom index (fields.map toRecord) =
      (problemsFrom index records).filter stays := by
  induction h with
  | nil => exact fun _ => rfl
  | cons hmade _ ih =>
      intro index
      rw [List.map_cons, problemsFrom, problemsFrom, List.filter_append, problems_toRecord hmade,
        ih]

theorem tolerates_filter {problems : List Diagnostic} (h : Tolerates mode problems) :
    Tolerates mode (problems.filter stays) :=
  h.imp_right fun hnil => by rw [hnil]; rfl

/-- The records of settled fields give the fields back.  The induction is on the fields; no step
takes an identifier from the source. -/
theorem outcome_loadFrom_toRecord {fields : List FieldSchema}
    (hsettled : ∀ field ∈ fields, field.IsSettled) :
    ∀ (index : Nat) (seen : List String) (state : LoadState σ),
      Acceptable seen (fields.map toRecord) →
        Tolerates mode (problemsFrom index (fields.map toRecord)) →
          (loadFrom mode index seen (fields.map toRecord)).outcome state =
            (.ok fields,
              ⟨state.diagnostics ++ problemsFrom index (fields.map toRecord), state.ids⟩) := by
  induction fields with
  | nil =>
      intro index seen state _ _
      rw [List.map_nil, problemsFrom, List.append_nil]
      rfl
  | cons field rest ih =>
      intro index seen state hacceptable hmode
      obtain ⟨hfield, hrest⟩ := List.forall_mem_cons.mp hsettled
      rw [List.map_cons] at hacceptable hmode ⊢
      obtain ⟨hrecord, hothers⟩ := hacceptable
      obtain ⟨hmodeField, hmodeRest⟩ := tolerates_append.mp hmode
      have hseen : field.toRecord.name ∉ seen := fun hmem => hrecord (Or.inr (Or.inr hmem))
      have hloaded := outcome_toField_eq_ok hrecord hmodeField state
      rw [takeId_toRecord hfield, fieldWith_toRecord hfield] at hloaded
      rw [outcome_loadFrom_cons hloaded rfl hseen, ih hrest _ _ _ hothers hmodeRest, problemsFrom,
        List.append_assoc]
      rfl

/-! ## Storing and loading again -/

/-- What records that are loaded as a form were like. -/
theorem of_ofRecords_eq_ok {records : List FieldRecord} {form : FormSchema}
    (h : (ofRecords records mode).outcome state = (.ok form, reached)) :
    Acceptable [] records ∧ Tolerates mode (problemsFrom 0 records) ∧
      List.Forall₂ (MadeOf σ) records form.fields ∧
      reached.diagnostics = state.diagnostics ++ problemsFrom 0 records := by
  rw [outcome_ofRecords] at h
  rcases hfields : (loadFrom mode 0 [] records).outcome state with ⟨violation | fields, last⟩
  · rw [hfields] at h
    cases h
  · rw [hfields] at h
    cases h
    exact of_loadFrom_eq_ok hfields

theorem exists_madeOf {records : List FieldRecord} {fields : List FieldSchema}
    (h : List.Forall₂ (MadeOf σ) records fields) :
    ∀ field ∈ fields, ∃ record ∈ records, MadeOf σ record field := by
  induction h with
  | nil => exact fun _ hmem => absurd hmem List.not_mem_nil
  | cons hmade _ ih =>
      intro field hmem
      rcases List.mem_cons.mp hmem with rfl | hmem
      · exact ⟨_, List.mem_cons_self, hmade⟩
      · obtain ⟨record, hrecord, hmade⟩ := ih field hmem
        exact ⟨record, List.mem_cons_of_mem _ hrecord, hmade⟩

/-- The span of a field and the bounds of a loaded one can be stored. -/
theorem isStorable_toRecord (h : MadeOf σ record field)
    (hbounds : record.validation.HasFiniteBounds) : field.toRecord.IsStorable := by
  obtain ⟨ids, rfl⟩ := h
  refine ⟨hbounds, ?_⟩
  rintro span ⟨⟩
  cases (record.fieldWith (record.takeId ids).1).columns <;> decide

variable {τ : Type} [IdSource τ]

/-- A form that was loaded from a text and stored is loaded from the stored text again, in the same
mode and without a new identifier.  The diagnostics are those of the first time without the column
spans that were moved into bounds.  The reader and the printer of the texts may be any, as long as
numbers are in range and the value that is stored is read back. -/
theorem load_textWith {json : JsonCodec} (hrange : json.KeepsRange)
    (hdrawn : ∀ ids : σ, (IdSource.next ids).1 ≠ "")
    {stored : String} {records : List FieldRecord} (htext : listWith json stored = .ok records)
    {form : FormSchema} {ids : σ} (hload : start (ofRecords records mode) ids = (.ok form, reached))
    (hjson : json.ReadsBack form.toJson) (ids' : τ) :
    ∃ records', listWith json (form.textWith json) = .ok records' ∧
      start (ofRecords records' mode) ids' =
        (.ok form, ⟨reached.diagnostics.filter fun d => d.code ≠ .columnsClamped, ids'⟩) := by
  obtain ⟨hacceptable, hmode, hmade, hdiagnostics⟩ := of_ofRecords_eq_ok hload
  have hproblems := problemsFrom_toRecord hmade 0
  have hsettled : ∀ field ∈ form.fields, field.IsSettled := by
    intro field hfield
    obtain ⟨record, -, hfrom⟩ := exists_madeOf hmade field hfield
    exact hfrom.isSettled hdrawn
  have hstorable : ∀ record ∈ form.toRecords, record.IsStorable := by
    intro again hagain
    obtain ⟨field, hfield, rfl⟩ := List.mem_map.mp hagain
    obtain ⟨record, hrecord, hfrom⟩ := exists_madeOf hmade field hfield
    exact isStorable_toRecord hfrom (hasFiniteBounds_of_listWith hrange htext record hrecord)
  refine ⟨form.toRecords, listWith_pretty hstorable hjson, ?_⟩
  have hagain := outcome_loadFrom_toRecord hsettled 0 [] (⟨[], ids'⟩ : LoadState τ)
    (acceptable_toRecord hmade [] hacceptable) (hproblems ▸ tolerates_filter hmode)
  change (ofRecords (form.fields.map toRecord) mode).outcome ⟨[], ids'⟩ = _
  rw [outcome_ofRecords, hagain, hproblems, hdiagnostics]
  rfl

/-- A text in which much has to be settled: an empty identifier, a name with a blank, a span out of
bounds, a negative zero and a fraction, an empty pattern and a reference by name. -/
def unsettledText : String :=
  "[\x7b\"id\":\"\",\"name\":\"a b\",\"columns\":7,\"validation\":" ++
    "\x7b\"min\":-0,\"max\":0.1,\"pattern\":\"\",\"crossField\":\"c\"\x7d\x7d]"

def unsettledRecord : FieldRecord :=
  { FieldRecord.defaults with
    id := some "", name := "a b", columns := some 7,
    validation :=
      { ValidationRecord.defaults with
        min := some ⟨0x8000000000000000⟩, max := some ⟨0x3fb999999999999a⟩, pattern := some "",
        crossField := some (.name "c") } }

theorem load_textWith_unsettledText :
    JsonCodec.standard.KeepsRange ∧ (∀ ids : SequentialIds, (IdSource.next ids).1 ≠ "") ∧
      listOfText unsettledText = .ok [unsettledRecord] ∧
      ∃ (form : FormSchema) (reached : LoadState SequentialIds),
        start (ofRecords [unsettledRecord] .warn) (SequentialIds.ofStem "field") =
          (.ok form, reached) ∧
        reached.diagnostics.map (·.code) = [.nonIdentifierName, .columnsClamped] ∧
        JsonCodec.standard.ReadsBack form.toJson ∧
        ∃ records', listOfText form.toJsonText = .ok records' ∧
          start (ofRecords records' .warn) (SequentialIds.ofStem "other") =
            (.ok form, ⟨reached.diagnostics.filter fun d => d.code ≠ .columnsClamped,
              .ofStem "other"⟩) := by
  have hdrawn : ∀ ids : SequentialIds, (IdSource.next ids).1 ≠ "" := by
    intro ids heq
    have hlength := congrArg (fun text => text.toList.length) heq
    simp [IdSource.next] at hlength
  have htext : listOfText unsettledText = .ok [unsettledRecord] := by
    decide +kernel
  have hform : (start (ofRecords [unsettledRecord] .warn) (SequentialIds.ofStem "field")).1 =
      .ok ⟨[unsettledRecord.fieldWith "field-1"]⟩ := by
    decide +kernel
  have hcodes : (start (ofRecords [unsettledRecord] .warn)
      (SequentialIds.ofStem "field")).2.diagnostics.map (·.code) =
        [.nonIdentifierName, .columnsClamped] := by
    decide +kernel
  have hbounds : (unsettledRecord.fieldWith "field-1").toRecord.validation.HasStableBounds := by
    constructor <;>
    · rintro x ⟨⟩
      exact ⟨by decide, by decide +kernel⟩
  have hstorable : (unsettledRecord.fieldWith "field-1").toRecord.IsStorable := by
    refine ⟨⟨?_, ?_⟩, ?_⟩ <;>
    · rintro x ⟨⟩
      decide
  have hreads : JsonCodec.standard.ReadsBack (toJson ⟨[unsettledRecord.fieldWith "field-1"]⟩) :=
    JsonCodec.readsBack_standard ⟨isStable_toJson hstorable hbounds, trivial⟩
  refine ⟨JsonCodec.keepsRange_standard, hdrawn, htext, _, _, Prod.ext hform rfl, hcodes, hreads,
    ?_⟩
  exact load_textWith JsonCodec.keepsRange_standard hdrawn htext (Prod.ext hform rfl) hreads
    (SequentialIds.ofStem "other")

end FormSchema

end FormCompiler
