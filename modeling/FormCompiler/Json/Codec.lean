import FormCompiler.Json.Printer
import FormCompiler.Json.Reader

/-!
# Codecs

Values are stored and loaded again through a reader and a printer of JSON texts. Nothing that is
stored depends on which they are, so they are a parameter; the standard ones are those of this
library.
-/

namespace FormCompiler

/-- A reader and a printer of JSON texts. The reader gives the document of a text, and the fault of
what stands after it. -/
structure JsonCodec where
  read : String → Node × Option Fault
  pretty : Json → String

namespace JsonCodec

def standard : JsonCodec := ⟨Json.read, Json.pretty⟩

/-- Reads a text with a typed reader; what stands after the value is looked at last. -/
def readWith {α : Type} (json : JsonCodec) (reader : Node → Except Fault α) (input : String) :
    Except Fault α := do
  let (node, after) := json.read input
  let value ← reader node
  match after with
  | none => pure value
  | some fault => .error fault

end JsonCodec

namespace Json

def readWith {α : Type} (reader : Node → Except Fault α) (input : String) : Except Fault α :=
  JsonCodec.standard.readWith reader input

/-- The value of a text, through at most 127 nested containers. -/
def parse (input : String) : Except Fault Json := readWith (Node.keep (some 127)) input

end Json

end FormCompiler
