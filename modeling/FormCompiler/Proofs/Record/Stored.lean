import FormCompiler.Record.Load
import FormCompiler.Proofs.Json.Codec

/-!
# Stored records

What is written for a record is read back as the record, if its bounds are finite and its column
span has 64 bits.  The bounds of a record that was read are finite.
-/

namespace FormCompiler

open Node RecordField

/-! ## The parts of a record -/

theorem undoes_readText : Undoes readText Json.text fun _ => True := fun _ _ => rfl

theorem undoes_readBoolean : Undoes readBoolean Json.boolean fun _ => True := fun _ _ => rfl

theorem undoes_readReal : Undoes readReal Json.real fun x => x.isFinite = true := by
  intro x hx
  rw [Json.real, if_pos hx]
  rfl

theorem undoes_readInt64 :
    Undoes readInt64 Json.whole fun n => Int64.minValue.toInt ≤ n ∧ n ≤ Int64.maxValue.toInt := by
  rintro n ⟨hlow, hhigh⟩
  simp only [readInt64, Json.whole, Json.toNode, readWhole]
  rw [decide_eq_true hlow, decide_eq_true hhigh]
  rfl

theorem undoes_readType :
    Undoes (readChoice FieldType.table) (fun t => Json.text t.name) fun _ => True := by
  intro type _
  cases type <;> rfl

theorem undoes_readOperator :
    Undoes (readChoice ComparisonOp.table) (fun op => Json.text op.name) fun _ => True := by
  intro operator _
  cases operator <;> rfl

theorem undoes_readLogic :
    Undoes (readChoice LogicOp.table) (fun op => Json.text op.name) fun _ => True := by
  intro logic _
  cases logic <;> rfl

theorem undoes_readOptionalText :
    Undoes (readOptional readText) (Json.optional Json.text) fun _ => True := by
  intro text _
  exact undoes_readText.readOptional (fun _ _ => Json.noConfusion) text fun _ _ => trivial

theorem ConditionRecord.undoes_read :
    Undoes ConditionRecord.read ConditionRecord.toJson fun _ => True := by
  intro record _
  have hlogic := undoes_readLogic.readOptional (fun _ _ => Json.noConfusion) record.logic
    fun _ _ => trivial
  unfold ConditionRecord.read toJson
  simp only [Json.toNode, readRecord]
  rw [readRecord_withDefault rfl rfl hlogic,
    readRecord_withDefault rfl rfl (undoes_readText record.field trivial),
    readRecord_withDefault rfl rfl (undoes_readOperator record.operator trivial),
    readRecord_withDefault rfl rfl (undoes_readText record.value trivial)]
  exact readRecord_toMembers_nil (by simp [withDefault]) record

/-- A reference in either form is read back, inside containers that leave room for one more. -/
theorem CrossFieldRecord.undoes_read {depth : Option Nat} (hdepth : depth ≠ some 0) :
    Undoes (CrossFieldRecord.read depth) CrossFieldRecord.toJson fun _ => True := by
  intro record _
  cases record with
  | name field => rfl
  | reference field =>
      have hkeep : ∃ kept,
          (CrossFieldRecord.toJson (reference field)).toNode.keep depth = .ok kept := by
        simp only [toJson, Json.toNode, Json.toMembers, Node.keep, if_neg hdepth]
        exact ⟨_, rfl⟩
      obtain ⟨kept, hkept⟩ := hkeep
      unfold CrossFieldRecord.read
      rw [hkept]
      rfl

/-- The bounds of the settings are finite. -/
def ValidationRecord.HasFiniteBounds (record : ValidationRecord) : Prop :=
  (∀ x ∈ record.min, x.isFinite = true) ∧ ∀ x ∈ record.max, x.isFinite = true

theorem ValidationRecord.undoes_read {depth : Option Nat} (hdepth : depth ≠ some 0) :
    Undoes (ValidationRecord.read depth) ValidationRecord.toJson HasFiniteBounds := by
  rintro record ⟨hmin, hmax⟩
  have hbound : ∀ bound : Option Binary64, (∀ x ∈ bound, x.isFinite = true) →
      readOptional readReal (Json.optional Json.real bound).toNode = .ok bound :=
    undoes_readReal.readOptional fun x hx => by simp [Json.real, hx]
  have hcross := (CrossFieldRecord.undoes_read hdepth).readOptional
    (fun r _ => by cases r <;> exact Json.noConfusion) record.crossField fun _ _ => trivial
  unfold ValidationRecord.read toJson
  simp only [Json.toNode, readRecord]
  rw [readRecord_withDefault rfl rfl (undoes_readBoolean record.required trivial),
    readRecord_withDefault rfl rfl (hbound record.min hmin),
    readRecord_withDefault rfl rfl (hbound record.max hmax),
    readRecord_withDefault rfl rfl (undoes_readOptionalText record.pattern trivial),
    readRecord_withDefault rfl rfl (undoes_readOptionalText record.customMessage trivial),
    readRecord_withDefault rfl rfl hcross]
  exact readRecord_toMembers_nil (by simp [withDefault]) record

namespace FieldRecord

/-- The record can be stored: its bounds are finite and its column span has 64 bits. -/
structure IsStorable (record : FieldRecord) : Prop where
  validation : record.validation.HasFiniteBounds
  columns : ∀ span ∈ record.columns,
    Int64.minValue.toInt ≤ span ∧ span ≤ Int64.maxValue.toInt

theorem undoes_read {depth : Option Nat} (hdepth : depth.map (· - 1) ≠ some 0) :
    Undoes (FieldRecord.read depth) FieldRecord.toJson IsStorable := by
  rintro ⟨id, name, label, type, options, columns, validation, conditions, group⟩
    ⟨hvalidation, hcolumns⟩
  have hoptions : Node.readList readText (Json.texts options).toNode = .ok options :=
    undoes_readText.readList options fun _ _ => trivial
  have hspan := undoes_readInt64.readOptional (fun _ _ => Json.noConfusion) columns hcolumns
  have hsettings := ValidationRecord.undoes_read hdepth validation hvalidation
  have hconditions : Node.readList ConditionRecord.read
      (Json.array (conditions.map ConditionRecord.toJson)).toNode = .ok conditions :=
    ConditionRecord.undoes_read.readList conditions fun _ _ => trivial
  have hgroup := undoes_readOptionalText group trivial
  have htext : ∀ text : String,
      readOptional readText (Json.text text).toNode = .ok (some text) := fun _ => rfl
  unfold FieldRecord.read toJson
  simp only [Json.toNode, readRecord, List.append_assoc]
  rw [readRecord_toList (by rfl) (by rfl) (fun text _ => htext text) (by rfl),
    List.singleton_append,
    readRecord_withDefault rfl (by cases id <;> rfl) (undoes_readText name trivial),
    readRecord_toList (by rfl) (by cases id <;> rfl) (fun text _ => htext text) (by rfl)]
  -- what has been read so far depends on whether there was an identifier and a label
  have hseen : ∀ other ∈ ["type", "options", "columns", "validation", "conditions", "group"],
      ((label.toList.map fun _ => "label") ++
        "name" :: ((id.toList.map fun _ => "id") ++ [])).contains other = false := by
    cases id <;> cases label <;> simp
  generalize (label.toList.map fun _ => "label") ++
    "name" :: ((id.toList.map fun _ => "id") ++ []) = seen at hseen ⊢
  simp only [List.forall_mem_cons] at hseen
  obtain ⟨htype, hoptionsName, hcolumnsName, hsettingsName, hconditionsName, hgroupName, -⟩ := hseen
  rw [readRecord_withDefault rfl htype (undoes_readType type trivial),
    readRecord_withDefault rfl (by simpa using hoptionsName) hoptions,
    readRecord_withDefault rfl (by simpa using hcolumnsName) hspan,
    readRecord_withDefault rfl (by simpa using hsettingsName) hsettings,
    readRecord_withDefault rfl (by simpa using hconditionsName) hconditions,
    readRecord_withDefault rfl (by simpa using hgroupName) hgroup]
  exact readRecord_toMembers_nil (by simp [withDefault]) _

end FieldRecord

/-! ## Records as text -/

theorem Json.isStable_optional {α : Type} {write : α → Json} {found : Option α}
    (h : ∀ a ∈ found, (write a).IsStable) : (Json.optional write found).IsStable := by
  cases found with
  | none => trivial
  | some a => exact h a rfl

theorem ConditionRecord.isStable_toJson (record : ConditionRecord) : record.toJson.IsStable := by
  unfold toJson
  rw [Json.IsStable, Json.haveStable_iff]
  simp only [List.forall_mem_cons]
  exact ⟨Json.isStable_optional fun _ _ => trivial, trivial, trivial, trivial, by simp⟩

theorem CrossFieldRecord.isStable_toJson (record : CrossFieldRecord) : record.toJson.IsStable := by
  cases record with
  | reference field => exact ⟨trivial, trivial⟩
  | name field => trivial

/-- The standard reader gives the bounds of the settings back. -/
def ValidationRecord.HasStableBounds (record : ValidationRecord) : Prop :=
  (∀ x ∈ record.min, (Json.real x).IsStable) ∧ ∀ x ∈ record.max, (Json.real x).IsStable

theorem ValidationRecord.isStable_toJson {record : ValidationRecord} (h : record.HasStableBounds) :
    record.toJson.IsStable := by
  unfold toJson
  rw [Json.IsStable, Json.haveStable_iff]
  simp only [List.forall_mem_cons]
  exact ⟨trivial, Json.isStable_optional h.1, Json.isStable_optional h.2,
    Json.isStable_optional fun _ _ => trivial, Json.isStable_optional fun _ _ => trivial,
    Json.isStable_optional fun r _ => r.isStable_toJson, by simp⟩

namespace FieldRecord

/-- All numbers of a record are stable but for its bounds. -/
theorem isStable_toJson {record : FieldRecord} (h : record.IsStorable)
    (hbounds : record.validation.HasStableBounds) : record.toJson.IsStable := by
  have hspan : ∀ span ∈ record.columns, (Json.whole span).IsStable := by
    intro span hmem
    obtain ⟨hlow, hhigh⟩ := h.columns span hmem
    exact ⟨hlow, lt_of_le_of_lt hhigh (by decide)⟩
  have hconditions : (Json.array (record.conditions.map ConditionRecord.toJson)).IsStable := by
    rw [Json.IsStable, Json.areStable_iff]
    exact List.forall_mem_map.mpr fun condition _ => condition.isStable_toJson
  have hoptions : (Json.texts record.options).IsStable := by
    rw [Json.texts, Json.IsStable, Json.areStable_iff]
    exact List.forall_mem_map.mpr fun _ _ => trivial
  unfold toJson
  rw [Json.IsStable, Json.haveStable_iff]
  simp only [List.forall_mem_append, List.forall_mem_cons, List.forall_mem_map]
  refine ⟨⟨⟨fun _ _ => trivial, trivial, by simp⟩, fun _ _ => trivial⟩, trivial, hoptions,
    Json.isStable_optional hspan, ValidationRecord.isStable_toJson hbounds, hconditions,
    Json.isStable_optional fun _ _ => trivial, by simp⟩

/-- Stored records are read back from their text by every codec that reads their value back. -/
theorem listWith_pretty {json : JsonCodec} {records : List FieldRecord}
    (h : ∀ record ∈ records, record.IsStorable)
    (hjson : json.ReadsBack (Json.array (records.map FieldRecord.toJson))) :
    listWith json (json.pretty (Json.array (records.map FieldRecord.toJson))) = .ok records := by
  unfold listWith
  rw [hjson.readWith]
  exact (undoes_read (by simp)).readList records h

end FieldRecord

/-! ## Records that were read -/

theorem keeps_readBound :
    Keeps (readOptional readReal) fun bound => ∀ x ∈ bound, x.isFinite = true :=
  Keeps.readOptional fun _ hnode _ hread => Node.isFinite_of_readReal hnode hread

section

variable {α ρ : Type} {reader : Node → Except Fault α} {p : ρ → Prop} {store : α → ρ → ρ}

theorem keeps_withDefault {q : α → Prop} (h : Keeps reader q) (name : String)
    (hstore : ∀ a record, q a → p record → p (store a record)) :
    (withDefault name reader store).Keeps p := by
  intro node hnode record record' hread hp
  obtain ⟨a, ha, rfl⟩ := exists_of_map_eq_ok hread
  exact hstore a record (h node hnode a ha) hp

/-- A field that the property does not depend on keeps it, whatever is read. -/
theorem keeps_withDefault_of_stable (name : String)
    (hstore : ∀ a record, p record → p (store a record)) :
    (withDefault name reader store).Keeps p :=
  keeps_withDefault (fun _ _ _ _ => trivial) name fun a record (_ : True) => hstore a record

end

theorem ValidationRecord.keeps_read (depth : Option Nat) :
    Keeps (ValidationRecord.read depth) HasFiniteBounds := by
  refine keeps_readRecord ?_ ⟨by simp [defaults], by simp [defaults]⟩
  simp only [List.forall_mem_cons]
  refine ⟨keeps_withDefault_of_stable _ fun _ _ h => h,
    keeps_withDefault keeps_readBound _ fun _ _ hbound h => ⟨hbound, h.2⟩,
    keeps_withDefault keeps_readBound _ fun _ _ hbound h => ⟨h.1, hbound⟩,
    keeps_withDefault_of_stable _ fun _ _ h => h, keeps_withDefault_of_stable _ fun _ _ h => h,
    keeps_withDefault_of_stable _ fun _ _ h => h, by simp⟩

namespace FieldRecord

theorem keeps_read (depth : Option Nat) :
    Keeps (FieldRecord.read depth) fun record => record.validation.HasFiniteBounds := by
  refine keeps_readRecord ?_ ⟨by simp [defaults, ValidationRecord.defaults],
    by simp [defaults, ValidationRecord.defaults]⟩
  simp only [List.forall_mem_cons]
  refine ⟨keeps_withDefault_of_stable _ fun _ _ h => h,
    keeps_withDefault_of_stable _ fun _ _ h => h, keeps_withDefault_of_stable _ fun _ _ h => h,
    keeps_withDefault_of_stable _ fun _ _ h => h, keeps_withDefault_of_stable _ fun _ _ h => h,
    keeps_withDefault_of_stable _ fun _ _ h => h,
    keeps_withDefault (ValidationRecord.keeps_read _) _ fun _ _ hbounds _ => hbounds,
    keeps_withDefault_of_stable _ fun _ _ h => h, keeps_withDefault_of_stable _ fun _ _ h => h,
    by simp⟩

/-- The bounds of records that were read from a text are finite. -/
theorem hasFiniteBounds_of_listWith {json : JsonCodec} (hjson : json.KeepsRange) {stored : String}
    {records : List FieldRecord} (h : listWith json stored = .ok records) :
    ∀ record ∈ records, record.validation.HasFiniteBounds := by
  obtain ⟨node, hnode, hread⟩ := hjson.exists_of_readWith h
  exact (keeps_read _).readList _ hnode records hread

end FieldRecord

end FormCompiler
