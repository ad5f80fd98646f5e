import FormCompiler.Files.Path

/-!
# File trees

The files and folders below a working folder, by their keys: the names on the way from the working
folder down. Paths are followed part by part, and every part on the way must be a folder. What is
said about a tree is said about `FileTree.get?`.
-/

namespace FormCompiler

/-- Why an operation on files fails. -/
inductive FileError where
  | notFound
  | alreadyExists
  | notFolder
  | isFolder
  /-- What is to be copied is no file. -/
  | notRegular
  deriving DecidableEq

def FileError.message : FileError → String
  | notFound => "No such file or directory (os error 2)"
  | alreadyExists => "File exists (os error 17)"
  | notFolder => "Not a directory (os error 20)"
  | isFolder => "Is a directory (os error 21)"
  | notRegular => "the source path is neither a regular file nor a symlink to a regular file"

/-- What stands at a place of a file tree. -/
inductive FileEntry where
  | file (content : String)
  | folder
  deriving DecidableEq

/-- The place of a file or a folder. Below the root of all paths the first name is a slash. -/
abbrev FileKey := List String

/-- Files and folders in the order of their keys. -/
structure FileTree where
  entries : List (FileKey × FileEntry)

namespace FileTree

def empty : FileTree := ⟨[]⟩

/-- What stands at a key. The working folder and the root are always there. -/
def get? (tree : FileTree) (key : FileKey) : Option FileEntry :=
  if key = [] || key = ["/"] then some .folder else tree.entries.lookup key

/-- Puts an entry at its place in a list that is in the order of the keys. -/
def insertEntry (key : FileKey) (entry : FileEntry) :
    List (FileKey × FileEntry) → List (FileKey × FileEntry)
  | [] => [(key, entry)]
  | (other, old) :: rest =>
      if key = other then (key, entry) :: rest
      else if key < other then (key, entry) :: (other, old) :: rest
      else (other, old) :: insertEntry key entry rest

/-- The tree with an entry, which replaces what stood at the key. -/
def insert (tree : FileTree) (key : FileKey) (entry : FileEntry) : FileTree :=
  ⟨insertEntry key entry tree.entries⟩

def erase (tree : FileTree) (key : FileKey) : FileTree :=
  ⟨tree.entries.filter fun (other, _) => other ≠ key⟩

/-! ## Following paths -/

/-- The key that is reached from a folder over the parts of a path. The last part need not exist. -/
def descend (tree : FileTree) (key : FileKey) : List String → Except FileError FileKey
  | [] => .ok key
  | segment :: rest =>
      match tree.get? key with
      | none => .error .notFound
      | some (.file _) => .error .notFolder
      | some .folder =>
          if segment = ".." then descend tree key.dropLast rest
          else if Path.isName segment then descend tree (key ++ [segment]) rest
          else descend tree key rest

def locate (tree : FileTree) (path : String) : Except FileError FileKey :=
  if path = "" then .error .notFound
  else tree.descend (if Path.isAbsolute path then ["/"] else []) (Path.segments path)

def look (tree : FileTree) (path : String) : Except FileError FileEntry := do
  match tree.get? (← tree.locate path) with
  | some entry => pure entry
  | none => .error .notFound

def contains (tree : FileTree) (path : String) : Bool := (tree.look path).toOption.isSome

/-! ## Operations -/

def read (tree : FileTree) (path : String) : Except FileError String := do
  match ← tree.look path with
  | .file content => pure content
  | .folder => .error .isFolder

/-- The tree after a file is written; its folder must be there. -/
def write (tree : FileTree) (path content : String) : Except FileError FileTree := do
  let key ← tree.locate path
  match tree.get? key, tree.get? key.dropLast with
  | some .folder, _ => .error .isFolder
  | _, some .folder => pure (tree.insert key (.file content))
  | _, some (.file _) => .error .notFolder
  | _, none => .error .notFound

/-- The tree after all folders on the way over some parts, from a folder on, are there. A file in
the place of the last one is something else than a file on the way. -/
def makeFoldersFrom (tree : FileTree) (key : FileKey) : List String → Except FileError FileTree
  | [] => .ok tree
  | segment :: rest =>
      if segment = ".." then makeFoldersFrom tree key.dropLast rest
      else if !Path.isName segment then makeFoldersFrom tree key rest
      else
        let key := key ++ [segment]
        match tree.get? key with
        | some .folder => makeFoldersFrom tree key rest
        | some (.file _) => .error (if rest.isEmpty then .alreadyExists else .notFolder)
        | none => makeFoldersFrom (tree.insert key .folder) key rest

/-- The tree after a folder and all folders above it are there. -/
def makeFolders (tree : FileTree) (path : String) : Except FileError FileTree :=
  tree.makeFoldersFrom (if Path.isAbsolute path then ["/"] else []) (Path.segments path)

/-- The tree after all folders above the last name of a path are there. -/
def makeParents (tree : FileTree) (path : String) : Except FileError FileTree :=
  tree.makeFoldersFrom (if Path.isAbsolute path then ["/"] else []) (Path.parent path)

def copy (tree : FileTree) (source target : String) : Except FileError FileTree := do
  match ← tree.look source with
  | .file content => tree.write target content
  | .folder => .error .notRegular

def remove (tree : FileTree) (path : String) : Except FileError FileTree := do
  let key ← tree.locate path
  match tree.get? key with
  | some (.file _) => pure (tree.erase key)
  | some .folder => .error .isFolder
  | none => .error .notFound

/-- The key of a file relative to a folder that it is below, or that it stands in the place of. What
is reached from the root is not below the working folder. -/
def below? (folder : FileKey) : FileKey × FileEntry → Option FileKey
  | (_, .folder) => none
  | (key, .file _) =>
      if folder.isPrefixOf key && (folder ≠ [] || key.head? ≠ some "/") then
        some (key.drop folder.length)
      else none

/-- The keys of all files below a key, and of the file at the key itself, relative to it and in
order. -/
def filesBelow (tree : FileTree) (key : FileKey) : List FileKey :=
  tree.entries.filterMap (below? key)

def foldersIn (tree : FileTree) (key : FileKey) : List String :=
  tree.entries.filterMap fun (other, entry) =>
    match entry with
    | .folder =>
        if other.length = key.length + 1 && key.isPrefixOf other then other.getLast? else none
    | .file _ => none

/-! ## Laws -/

theorem lookup_insertEntry (key other : FileKey) (entry : FileEntry)
    (entries : List (FileKey × FileEntry)) :
    (insertEntry key entry entries).lookup other =
      if other = key then some entry else entries.lookup other := by
  by_cases h : other = key
  · subst other
    rw [if_pos rfl]
    induction entries with
    | nil => simp [insertEntry]
    | cons head rest ih =>
        unfold insertEntry
        split
        · simp
        · rename_i differs
          have apart : (key == head.1) = false := by simp [differs]
          split
          · simp
          · rw [List.lookup_cons, ih]
            simp [apart]
  · rw [if_neg h]
    have apart : (other == key) = false := by simp [h]
    induction entries with
    | nil => simp [insertEntry, List.lookup_cons, apart]
    | cons head rest ih =>
        obtain ⟨first, old⟩ := head
        unfold insertEntry
        split
        · rename_i same
          have alsoApart : (other == first) = false := by simp [← same, h]
          rw [List.lookup_cons, List.lookup_cons, apart, alsoApart]
        · split
          · rw [List.lookup_cons, apart]
          · rw [List.lookup_cons, List.lookup_cons, ih]

theorem get?_insert (tree : FileTree) (key other : FileKey) (entry : FileEntry)
    (named : key ≠ [] ∧ key ≠ ["/"]) :
    (tree.insert key entry).get? other = if other = key then some entry else tree.get? other := by
  unfold get? insert
  rw [lookup_insertEntry]
  by_cases h : other = key
  · subst other
    simp [named]
  · simp [h]

end FileTree

end FormCompiler
