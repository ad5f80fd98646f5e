import FormCompiler.Instant.Reader
import FormCompiler.Record.Load

/-!
# Designs

A design is a named snapshot of a form in its stored shape. Without a name of its own it is called
after the time of the snapshot.
-/

namespace FormCompiler

structure Design where
  id : String
  name : String
  createdAt : Instant
  fields : List FieldRecord
  deriving DecidableEq

namespace Design

/-- The key under which a host keeps the fields that are being worked on. -/
def fieldsKey : String := "formBuilder_fields_v2"

/-- The key under which a host keeps the designs. -/
def designsKey : String := "formBuilder_saves_v2"

def defaultName (createdAt : Instant) : String := "Design " ++ createdAt.timeText " "

/-- The snapshot of a form at an instant. Blanks around a name do not belong to it. -/
def snapshot {σ : Type} [IdSource σ] (name : Option String) (form : FormSchema)
    (createdAt : Instant) (ids : σ) : Design × σ :=
  let (id, ids) := IdSource.next ids
  let name := nonEmpty? (name.map Text.trimmed)
  (⟨id, name.getD (defaultName createdAt), createdAt, form.toRecords⟩, ids)

def restore {σ : Type} [IdSource σ] (design : Design) (mode : StrictMode) : Load σ FormSchema :=
  FormSchema.ofRecords design.fields mode

/-! ## Storing -/

def readInstant (node : Node) : Except Fault Instant := do
  match Instant.read? (← node.readText) with
  | some instant => pure instant
  | none => .error .mismatch

open RecordField in
/-- A design; `depth` more containers may stand inside it. -/
def read (depth : Option Nat) : Node → Except Fault Design :=
  Node.readRecord
    [mandatory "id" Node.readText fun value design => { design with id := value },
     mandatory "name" Node.readText fun value design => { design with name := value },
     mandatory "createdAt" readInstant fun value design => { design with createdAt := value },
     mandatory "fields" (FieldRecord.readList (depth.map (· - 1))) fun value design =>
       { design with fields := value }]
    ⟨"", "", ⟨0, 0⟩, []⟩

def listOfText (stored : String) : Except Fault (List Design) :=
  Json.readWith (Node.readList (read (some 125))) stored

def toJson (design : Design) : Json :=
  .object
    [("id", .text design.id),
     ("name", .text design.name),
     ("createdAt", .text design.createdAt.display),
     ("fields", .array (design.fields.map FieldRecord.toJson))]

def listToText (designs : List Design) : String := (Json.array (designs.map toJson)).compact

end Design

end FormCompiler
