import FormCompiler.Schema.Form
import Mathlib.Data.List.TakeWhile

/-!
# Drafts that become fields

A draft becomes a field when its name says something and none of its conditions is on itself; all
of it is taken over.  A list of fields becomes a form when no two of them have the same name.
-/

namespace FormCompiler

/-- Nothing is left of a text when the blanks at its ends are dropped if it is all blank. -/
theorem Text.trimmed_eq_empty_iff (text : String) :
    Text.trimmed text = "" ↔ Text.allBlank text = true := by
  unfold Text.allBlank
  rw [← String.toList_inj, Text.toList_trimmed, List.all_eq_true]
  change Text.dropBlankEnd (text.toList.dropWhile Text.isBlank) = [] ↔ _
  rw [← List.dropWhile_eq_nil_iff]
  cases hrest : text.toList.dropWhile Text.isBlank with
  | nil => simp [Text.dropBlankEnd]
  | cons c rest =>
      have hc : Text.isBlank c = false := by
        have hhead := List.head?_dropWhile_not Text.isBlank text.toList
        simpa [hrest] using hhead
      simp only [Text.dropBlankEnd, List.reverse_eq_nil_iff, List.dropWhile_eq_nil_iff,
        List.mem_reverse, reduceCtorEq, iff_false, not_forall]
      exact ⟨c, List.mem_cons_self, by simp [hc]⟩

namespace FieldDraft

theorem violation?_eq_none_iff (draft : FieldDraft) :
    draft.violation? = none ↔
      Text.allBlank draft.name = false ∧ ∀ c ∈ draft.conditions, c.field ≠ draft.name := by
  unfold violation?
  split
  · next hblank => simp [hblank]
  · next hblank =>
    split
    · next index hindex =>
      have hself : ¬∀ c ∈ draft.conditions, c.field ≠ draft.name := by
        intro hall
        have hnone : (draft.conditions.findIdx? fun c => c.field == draft.name) = none :=
          List.findIdx?_eq_none_iff.mpr fun c hc => beq_eq_false_iff_ne.mpr (hall c hc)
        rw [hnone] at hindex
        cases hindex
      simp [hself]
    · next hnone =>
      have hall : ∀ c ∈ draft.conditions, c.field ≠ draft.name := fun c hc =>
        beq_eq_false_iff_ne.mp (List.findIdx?_eq_none_iff.mp hnone c hc)
      simpa [hblank] using hall

/-- A field that was built is a draft without a violation, under some identifier. -/
theorem exists_withId_of_build {σ : Type} [IdSource σ] {draft : FieldDraft} {ids : σ}
    {field : FieldSchema} (h : (draft.build ids).1 = .ok field) :
    ∃ id, draft.violation? = none ∧ field = draft.withId id := by
  unfold build at h
  split at h
  · cases h
  · next hviolation =>
    split at h
    · next id _ => exact ⟨id, hviolation, (Except.ok.inj h).symm⟩
    · exact ⟨_, hviolation, (Except.ok.inj h).symm⟩

end FieldDraft

namespace FormSchema

theorem nodup_of_duplicate? {index : Nat} {seen : List String} {fields : List FieldSchema}
    (h : duplicate? index seen fields = none) :
    (fields.map (·.name)).Nodup ∧ ∀ field ∈ fields, field.name ∉ seen := by
  induction fields generalizing index seen with
  | nil => exact ⟨List.nodup_nil, by simp⟩
  | cons field rest ih =>
      unfold duplicate? at h
      split at h
      · cases h
      · next hseen =>
        obtain ⟨hnodup, hrest⟩ := ih h
        have hfield : field.name ∉ rest.map (·.name) := by
          intro hmem
          obtain ⟨other, hother, hname⟩ := List.mem_map.mp hmem
          exact hrest other hother (by simp [hname])
        refine ⟨List.nodup_cons.mpr ⟨hfield, hnodup⟩, fun other hmem => ?_⟩
        rcases List.mem_cons.mp hmem with rfl | hmem
        · simpa using hseen
        · exact fun hin => hrest other hmem (List.mem_cons_of_mem _ hin)

/-- A form that could be made of some fields has these fields. -/
theorem eq_of_ofFields {fields : List FieldSchema} {form : FormSchema}
    (h : ofFields fields = .ok form) : form = ⟨fields⟩ ∧ duplicate? 0 [] fields = none := by
  unfold ofFields at h
  split at h
  · cases h
  · next hnone => exact ⟨(Except.ok.inj h).symm, hnone⟩

/-- The names of a form that could be built differ. -/
theorem nodup_names_of_ofFields {fields : List FieldSchema} {form : FormSchema}
    (h : ofFields fields = .ok form) : form.names.Nodup := by
  obtain ⟨rfl, hnone⟩ := eq_of_ofFields h
  exact (nodup_of_duplicate? hnone).1

end FormSchema

end FormCompiler
