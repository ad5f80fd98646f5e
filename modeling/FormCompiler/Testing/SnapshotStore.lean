import FormCompiler.Testing.Snapshot

/-!
# The snapshot store

Snapshots are kept as files below a folder, each at a path that follows from its name.
-/

namespace FormCompiler

/-- What a clock shows: the time as it is stored, in seconds, and the milliseconds that the test at
hand took. -/
structure ClockReading where
  stamp : String
  seconds : Int
  elapsed : Nat
  deriving DecidableEq

/-- What a clock shows, one test after the other. -/
structure Clock where
  reading : (test : Nat) → ClockReading

namespace Clock

/-- What the clock shows for the next test. -/
def now (clock : Clock) : ClockReading := clock.reading 0

/-- The clock after the next test. -/
def later (clock : Clock) : Clock := ⟨fun test => clock.reading (test + 1)⟩

instance : Coe ClockReading Clock := ⟨fun now => ⟨fun _ => now⟩⟩

end Clock

/-- The snapshots below a folder. -/
structure SnapshotStore where
  folder : String
  deriving DecidableEq

namespace SnapshotStore

def extension : String := "snap"

def fileName (name : String) : String :=
  let suffix := "." ++ extension
  if Text.endsWith suffix.toList name.toList then name else name ++ suffix

def path (store : SnapshotStore) (name : String) : String := Path.join store.folder (fileName name)

def holds (store : SnapshotStore) (name : String) (files : FileTree) : Bool :=
  files.contains (store.path name)

def load (store : SnapshotStore) (name : String) (files : FileTree) : Except TestError Snapshot :=
  if store.holds name files then
    match files.read (store.path name) with
    | .ok text => Snapshot.parse name text
    | .error error => .error (.file error)
  else .error (.snapshotNotFound name (store.path name))

/-- Stores a snapshot under its own name. -/
def save (store : SnapshotStore) (snapshot : Snapshot) : FileAction Unit := do
  let path := store.path snapshot.name
  FileAction.change (·.makeParents path)
  FileAction.change (·.write path snapshot.toText)

/-- Replaces the content of a snapshot. -/
def update (store : SnapshotStore) (name content : String) (now : ClockReading) :
    FileAction Unit := do
  let snapshot ← FileAction.ofExcept (store.load name (← get))
  -- the name in the header says where, and it need not be the one that was asked for
  store.save { snapshot with content := Snapshot.normalize content, updated := now.stamp }

def create (store : SnapshotStore) (name content : String) (description : Option String)
    (now : ClockReading) : FileAction Snapshot := do
  let snapshot : Snapshot := ⟨name, description, now.stamp, now.stamp, Snapshot.normalize content⟩
  store.save snapshot
  pure snapshot

/-- Removes a snapshot, if it is there. -/
def delete (store : SnapshotStore) (name : String) : FileAction Unit := do
  if store.holds name (← get) then
    FileAction.change (·.remove (store.path name))

/-- The path to which a snapshot is copied at a time. -/
def backupPath (store : SnapshotStore) (name : String) (now : ClockReading) : String :=
  Path.withExtension (store.path name)
    (extension ++ ".backup." ++ Text.signedDecimal now.seconds)

/-- Copies a snapshot aside, if it is there. -/
def backup (store : SnapshotStore) (name : String) (now : ClockReading) :
    FileAction (Option String) := do
  if store.holds name (← get) then
    let target := store.backupPath name now
    FileAction.change (·.copy (store.path name) target)
    pure (some target)
  else pure none

/-- What stays of the name of a snapshot file, and of no other, without the extension. The extension
is taken away before its point is; if another point is all that stands before both, the two of them
are a step to the folder above and stay. -/
def listedStem? (file : String) : Option String :=
  match Path.cutName? file with
  | some (stem, ending) =>
      if ending = extension then some (if stem = "." then ".." else stem) else none
  | none => none

/-- The names on the way to a file, the last one without its extension, if it is a snapshot file. -/
def listedName? (folder : FileKey) (key : FileKey) : Option String := do
  let stem ← listedStem? (← (folder ++ key).getLast?)
  pure (if key.isEmpty then "" else "/".intercalate (key.dropLast ++ [stem]))

/-- The names of all snapshots, in order. -/
def list (store : SnapshotStore) (files : FileTree) : List String :=
  match files.locate store.folder with
  | .error _ => []
  | .ok folder =>
      ((files.filesBelow folder).filterMap (listedName? folder)).mergeSort fun a b => a ≤ b

end SnapshotStore

end FormCompiler
