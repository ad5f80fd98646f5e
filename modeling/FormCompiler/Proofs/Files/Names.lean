import FormCompiler.Proofs.Files.Tree

/-!
# Paths that end in a name

A path that ends in a name consists of what leads to the folder and of the name behind the last
slash.  So two such paths that differ in their names only lead to places in one folder, and a name
takes another extension without leaving that folder.
-/

namespace FormCompiler

/-! ## The name at the end -/

namespace Path

/-- The path leads into a folder, and there to a name. -/
structure EndsInName (path : String) (lead : List Char) (name : String) : Prop where
  toList_eq : path.toList = lead ++ name.toList
  lead_end : lead = [] ∨ lead.getLast? = some '/'
  no_slash : '/' ∉ name.toList
  isName : isName name = true
  ne_up : name ≠ ".."

/-- A path that ends in no slash and no point ends in a name. -/
theorem exists_endsInName {path : String} {c : Char} (hlast : path.toList.getLast? = some c)
    (hslash : c ≠ '/') (hpoint : c ≠ '.') :
    ∃ lead name, EndsInName path lead name := by
  have hsplit : path.toList.rdropWhile (· ≠ '/') ++ path.toList.rtakeWhile (· ≠ '/') =
      path.toList := List.rdropWhile_append_rtakeWhile
  obtain ⟨text, htext⟩ := List.getLast?_eq_some_iff.mp hlast
  have hend : (path.toList.rtakeWhile (· ≠ '/')).getLast? = some c := by
    rw [htext, List.rtakeWhile_concat_pos _ _ _ (by simpa using hslash)]
    exact List.getLast?_concat
  have hdiffers (fixed : String) (hfixed : fixed.toList.getLast? ≠ some c) :
      String.ofList (path.toList.rtakeWhile (· ≠ '/')) ≠ fixed := by
    rintro rfl
    exact hfixed (by rw [String.toList_ofList]; exact hend)
  refine ⟨path.toList.rdropWhile (· ≠ '/'), String.ofList (path.toList.rtakeWhile (· ≠ '/')),
    ?_, ?_, ?_, ?_, ?_⟩
  · rw [String.toList_ofList, hsplit]
  · by_cases hnil : path.toList.rdropWhile (· ≠ '/') = []
    · exact .inl hnil
    · have hslashed := List.rdropWhile_last_not (· ≠ '/') path.toList hnil
      rw [List.getLast?_eq_some_getLast hnil]
      exact .inr (by simpa using hslashed)
  · rw [String.toList_ofList]
    intro hmem
    simpa using List.mem_rtakeWhile_imp hmem
  · simp only [Path.isName, Bool.and_eq_true, decide_eq_true_eq]
    exact ⟨hdiffers "" (by simp), hdiffers "." (by simpa using Ne.symm hpoint)⟩
  · exact hdiffers ".." (by simpa using Ne.symm hpoint)

/-- The parts of a path before its last one, if this is the name behind `lead`. -/
def foldersOf (lead : List Char) : List String := (Text.pieces '/' lead).dropLast.map String.ofList

namespace EndsInName

variable {path name : String} {lead : List Char}

theorem name_ne_nil (h : EndsInName path lead name) : name.toList ≠ [] := by
  intro hnil
  have hname := h.isName
  rw [String.toList_eq_nil_iff.mp hnil] at hname
  cases hname

theorem segments_eq (h : EndsInName path lead name) :
    segments path = foldersOf lead ++ [name] := by
  unfold segments foldersOf
  rw [h.toList_eq]
  rcases h.lead_end with rfl | hlead
  · rw [List.nil_append, Text.pieces_of_not_mem h.no_slash]
    simp [Text.pieces]
  · obtain ⟨front, rfl⟩ := List.getLast?_eq_some_iff.mp hlead
    have hempty : Text.pieces '/' (front ++ ['/']) = Text.pieces '/' front ++ [[]] :=
      Text.pieces_append '/' front []
    rw [hempty, List.append_assoc, List.singleton_append, Text.pieces_append,
      Text.pieces_of_not_mem h.no_slash]
    simp

theorem isAbsolute_eq (h : EndsInName path lead name) :
    isAbsolute path = decide (lead.head? = some '/') := by
  unfold isAbsolute
  rw [h.toList_eq]
  cases lead with
  | nil =>
      obtain ⟨c, rest, hname⟩ := List.exists_cons_of_ne_nil h.name_ne_nil
      have hc : c ≠ '/' := fun heq => h.no_slash (by simp [hname, heq])
      simp [hname, hc]
  | cons c lead => rfl

theorem fileName?_eq (h : EndsInName path lead name) : fileName? path = some name := by
  unfold fileName?
  rw [h.segments_eq, List.filter_append, List.filter_singleton, h.isName]
  simp [h.ne_up]

/-- Another extension stands behind the stem of the name, and nothing before it changes. -/
theorem toList_withExtension (h : EndsInName path lead name) (extension : String) :
    (withExtension path extension).toList =
      lead ++ (stem name ++ "." ++ extension).toList := by
  have hlength : path.length - name.length = lead.length := by
    rw [← String.length_toList, h.toList_eq, List.length_append, String.length_toList]
    omega
  unfold withExtension
  rw [h.fileName?_eq]
  simp [hlength, h.toList_eq]

end EndsInName

theorem eq_of_cutAt? {mark : Char} {text before after : List Char}
    (h : Text.cutAt? mark text = some (before, after)) : text = before ++ mark :: after := by
  induction text generalizing before with
  | nil => cases h
  | cons c rest ih =>
      unfold Text.cutAt? at h
      split at h
      · next hc =>
        cases h
        rw [hc, List.nil_append]
      · obtain ⟨⟨lead, tail⟩, hcut, hpair⟩ := Option.map_eq_some_iff.mp h
        cases hpair
        rw [ih hcut, List.cons_append]

/-- The stem of a name stands at its beginning. -/
theorem stem_isPrefix (name : String) : (stem name).toList <+: name.toList := by
  unfold stem cutName?
  cases hcut : Text.cutAt? '.' name.toList.reverse with
  | none => exact List.prefix_rfl
  | some pair =>
      obtain ⟨after, before⟩ := pair
      dsimp only
      split_ifs
      · exact List.prefix_rfl
      · have hname : name.toList = before.reverse ++ '.' :: after.reverse := by
          rw [← List.reverse_reverse name.toList, eq_of_cutAt? hcut]
          simp
        rw [String.toList_ofList, hname]
        exact List.prefix_append _ _

/-- With an extension that ends in no point the path still ends in a name of the same folder. -/
theorem EndsInName.withExtension {path name extension : String} {lead : List Char} {c : Char}
    (h : EndsInName path lead name) (hslash : '/' ∉ extension.toList)
    (hlast : extension.toList.getLast? = some c) (hpoint : c ≠ '.') :
    EndsInName (withExtension path extension) lead (stem name ++ "." ++ extension) := by
  have hend : (stem name ++ "." ++ extension).toList.getLast? = some c := by
    rw [String.toList_append, List.getLast?_append, hlast]
    rfl
  have hdiffers (fixed : String) (hfixed : fixed.toList.getLast? ≠ some c) :
      stem name ++ "." ++ extension ≠ fixed := by
    intro heq
    rw [heq] at hend
    exact hfixed hend
  refine ⟨h.toList_withExtension extension, h.lead_end, ?_, ?_, ?_⟩
  · have hstem : '/' ∉ (stem name).toList := fun hmem =>
      h.no_slash ((stem_isPrefix name).subset hmem)
    simp [hstem, hslash]
  · simp only [Path.isName, Bool.and_eq_true, decide_eq_true_eq]
    exact ⟨hdiffers "" (by simp), hdiffers "." (by simpa using Ne.symm hpoint)⟩
  · exact hdiffers ".." (by simpa using Ne.symm hpoint)

end Path

/-! ## Places in one folder -/

namespace FileTree

variable {tree : FileTree} {path other name : String} {lead : List Char} {key : FileKey}

/-- What stands before the name of a path leads to a folder. -/
structure LeadsTo (tree : FileTree) (lead : List Char) (folder : FileKey) : Prop where
  descend_eq : tree.descend (if lead.head? = some '/' then ["/"] else []) (Path.foldersOf lead) =
    .ok folder
  is_folder : tree.get? folder = some .folder

theorem descend_append {key target : FileKey} {segments : List String} {name : String}
    (hname : Path.isName name = true) (hup : name ≠ "..") :
    tree.descend key (segments ++ [name]) = .ok target ↔
      ∃ folder, tree.descend key segments = .ok folder ∧ tree.get? folder = some .folder ∧
        target = folder ++ [name] := by
  induction segments generalizing key with
  | nil =>
      simp only [List.nil_append, descend, if_neg hup, if_pos hname]
      rcases hkey : tree.get? key with _ | content | _ <;> simp [hkey, eq_comm]
  | cons segment rest ih =>
      rw [List.cons_append, descend, descend]
      rcases hkey : tree.get? key with _ | content | _
      · simp
      · simp
      · dsimp only
        split_ifs
        · exact ih
        · exact ih
        · exact ih

theorem locate_eq_ok_iff (h : Path.EndsInName path lead name) :
    tree.locate path = .ok key ↔ ∃ folder, tree.LeadsTo lead folder ∧ key = folder ++ [name] := by
  have hne : path ≠ "" := by
    rintro rfl
    have hnil := h.toList_eq
    simp [h.name_ne_nil] at hnil
  unfold locate
  rw [if_neg hne, h.segments_eq, h.isAbsolute_eq, descend_append h.isName h.ne_up]
  constructor
  · rintro ⟨folder, hdescend, hfolder, rfl⟩
    exact ⟨folder, ⟨by simpa using hdescend, hfolder⟩, rfl⟩
  · rintro ⟨folder, ⟨hdescend, hfolder⟩, rfl⟩
    exact ⟨folder, by simpa using hdescend, hfolder, rfl⟩

/-- A file is written where a folder is and no folder stands in its way. -/
theorem write_eq_insert (content : String) (hkey : tree.locate path = .ok key)
    (hfile : tree.get? key ≠ some .folder) (hfolder : tree.get? key.dropLast = some .folder) :
    tree.write path content = .ok (tree.insert key (.file content)) := by
  unfold write
  rw [hkey]
  dsimp only [bind, Except.bind]
  rcases hentry : tree.get? key with _ | old | _
  · rw [hfolder]
    rfl
  · rw [hfolder]
    rfl
  · exact absurd hentry hfile

/-- A file that is read is copied by writing it. -/
theorem copy_eq_write {content target : String} (h : tree.read path = .ok content) :
    tree.copy path target = tree.write target content := by
  unfold read at h
  unfold copy
  rcases hentry : tree.look path with error | entry
  · rw [hentry] at h
    cases h
  · rw [hentry] at h
    cases entry with
    | file old =>
        cases h
        rfl
    | folder => cases h

end FileTree

end FormCompiler
