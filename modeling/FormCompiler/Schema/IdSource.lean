import FormCompiler.Text.Search

/-!
# Sources of identifiers

New fields and designs take their identifiers from a source, which is threaded through the work.
-/

namespace FormCompiler

/-- A source of identifiers: each step gives one and the source that remains. -/
class IdSource (σ : Type) where
  next : σ → String × σ

/-- Identifiers `stem-1`, `stem-2` and so on, counted by a word of 64 bits. -/
structure SequentialIds where
  stem : String
  upcoming : UInt64
  deriving DecidableEq

/-- The identifiers of a stem, from the first one on. -/
def SequentialIds.ofStem (stem : String) : SequentialIds := ⟨stem, 1⟩

instance : IdSource SequentialIds where
  next ids :=
    (ids.stem ++ "-" ++ Text.decimal ids.upcoming.toNat, { ids with upcoming := ids.upcoming + 1 })

/-- Identifiers that are drawn elsewhere, in the order in which they are drawn. -/
structure DrawnIds where
  draw : Nat → String
  taken : Nat

instance : IdSource DrawnIds where
  next ids := (ids.draw ids.taken, { ids with taken := ids.taken + 1 })

/-- The next identifiers of a source. -/
def IdSource.take {σ : Type} [IdSource σ] : Nat → σ → List String × σ
  | 0, ids => ([], ids)
  | count + 1, ids =>
      let (id, ids) := IdSource.next ids
      let (others, ids) := IdSource.take count ids
      (id :: others, ids)

end FormCompiler
