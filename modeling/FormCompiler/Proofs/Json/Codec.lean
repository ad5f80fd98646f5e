import FormCompiler.Json.Codec
import FormCompiler.Proofs.Json.Decoding

/-!
# Codecs that give back what they store

What is expected of a reader and a printer: the numbers of a document are JSON numbers, and a
printed value is read back.  The standard reader rounds a number more than once, so it need not
give every number back; it reads back every value with stable numbers.
-/

namespace FormCompiler.JsonCodec

/-- What is printed for a value is read as this value, numbers included, and nothing stands behind
it. -/
def ReadsBack (json : JsonCodec) (value : Json) : Prop :=
  json.read (json.pretty value) = (value.toNode, none)

/-- Whatever is read, its whole numbers have 64 bits and its other numbers are finite. -/
def KeepsRange (json : JsonCodec) : Prop := ∀ text, (json.read text).1.IsWritable

theorem keepsRange_standard : standard.KeepsRange := Json.isWritable_read

theorem readsBack_standard {value : Json} (h : value.IsStable) : standard.ReadsBack value :=
  Json.read_pretty h

variable {json : JsonCodec}

/-- A typed reader finds in a printed value what it finds in the value. -/
theorem ReadsBack.readWith {α : Type} {value : Json} (h : json.ReadsBack value)
    (reader : Node → Except Fault α) :
    json.readWith reader (json.pretty value) = reader value.toNode := by
  unfold JsonCodec.readWith
  rw [h]
  dsimp only
  cases reader value.toNode <;> rfl

/-- What is read from a text with a typed reader is read from a document with numbers in range. -/
theorem KeepsRange.exists_of_readWith {α : Type} (h : json.KeepsRange)
    {reader : Node → Except Fault α} {text : String} {found : α}
    (hread : json.readWith reader text = .ok found) :
    ∃ node : Node, node.IsWritable ∧ reader node = .ok found := by
  refine ⟨(json.read text).1, h text, ?_⟩
  unfold JsonCodec.readWith at hread
  obtain ⟨value, hvalue, hafter⟩ := exists_of_bind_eq_ok hread
  split at hafter
  · rw [hvalue, ← hafter]
    rfl
  · cases hafter

end FormCompiler.JsonCodec
