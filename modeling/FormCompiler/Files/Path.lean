import FormCompiler.Text.Search

/-!
# Paths

A path is a text whose names are separated by slashes. The name of a file is cut at its last point
into a stem and an extension; a point at the beginning of the name belongs to the stem.
-/

namespace FormCompiler.Path

/-- The parts of a path between its slashes; some may be empty. -/
def segments (path : String) : List String := (Text.pieces '/' path.toList).map String.ofList

/-- Whether a part of a path names something; empty parts and single points do not. -/
def isName (segment : String) : Bool := segment ≠ "" && segment ≠ "."

def isAbsolute (path : String) : Bool := path.toList.head? = some '/'

/-- The path of something below a folder. An absolute path stays what it is. -/
def join (folder path : String) : String :=
  if isAbsolute path then path
  else if folder = "" || folder.toList.getLast? = some '/' then folder ++ path
  else folder ++ "/" ++ path

/-- The last name of a path; a step to the folder above is no name. -/
def fileName? (path : String) : Option String :=
  ((segments path).filter isName).getLast?.filter fun name => name ≠ ".."

/-- The parts of a path before its last name. -/
def parent (path : String) : List String :=
  let names := (segments path).filter isName
  (if isAbsolute path then [""] else []) ++ names.dropLast

/-- The path of the folder that a path leads into last. -/
def parentPath (path : String) : String := "/".intercalate (parent path)

/-- Where the last point of a name cuts it, unless nothing stands before it. -/
def cutName? (name : String) : Option (String × String) :=
  match Text.cutAt? '.' name.toList.reverse with
  | some (after, before) =>
      if before.isEmpty || name = ".." then none
      else some (String.ofList before.reverse, String.ofList after.reverse)
  | none => none

def stem (name : String) : String :=
  match cutName? name with
  | some (stem, _) => stem
  | none => name

def extension? (path : String) : Option String := do
  let (_, extension) ← cutName? (← fileName? path)
  pure extension

def withExtension (path extension : String) : String :=
  match fileName? path with
  | none => path
  | some name =>
      let before := path.toList.take (path.length - name.length)
      String.ofList before ++ stem name ++ "." ++ extension

end FormCompiler.Path
