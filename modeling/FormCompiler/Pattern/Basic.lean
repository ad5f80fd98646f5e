import FormCompiler.Text.Blank
import FormCompiler.Text.Word

/-!
# Patterns

A pattern matches parts of a text. At a spot of a text it has a list of matches, the preferred one
first: the left side of a choice before the right side, and more repetitions before fewer unless the
repetition is reluctant. Of several matches that end at one spot only the first one is kept.
-/

namespace FormCompiler

inductive CharSet where
  | range (low high : Char)
  | digit
  | word
  | blank
  | nothing
  | union (a b : CharSet)
  | complement (a : CharSet)
  deriving DecidableEq

namespace CharSet

def holds (c : Char) : CharSet → Bool
  | range low high => low ≤ c && c ≤ high
  | digit => Text.isDecimalDigit c
  | word => Text.isWord c
  | blank => Text.isBlank c
  | nothing => false
  | union a b => a.holds c || b.holds c
  | complement a => !a.holds c

def one (c : Char) : CharSet := range c c

def ranges (pairs : List (Char × Char)) : CharSet :=
  pairs.foldr (fun (low, high) set => .union (.range low high) set) .nothing

def intersection (a b : CharSet) : CharSet :=
  .complement (.union (.complement a) (.complement b))

def difference (a b : CharSet) : CharSet := a.intersection (.complement b)

/-- The characters that belong to one of the two sets only. -/
def symmetricDifference (a b : CharSet) : CharSet := .union (a.difference b) (b.difference a)

end CharSet

inductive Pattern where
  | empty
  | member (set : CharSet)
  | textStart
  | textEnd
  /-- A place where a word begins or ends, or one where none does. -/
  | wordEdge (negated : Bool)
  | sequence (first second : Pattern)
  | choice (left right : Pattern)
  /-- A number of repetitions within bounds; the greedy one prefers many. -/
  | repeated (part : Pattern) (least : Nat) (most : Option Nat) (greedy : Bool)
  deriving DecidableEq

/-- A place in a text: the character before it and the text after it with its length. -/
structure Spot where
  last : Option Char
  left : Nat
  rest : List Char

namespace Spot

def start (text : List Char) : Spot := ⟨none, text.length, text⟩

/-- Whether exactly one of the two neighbours of the spot stands in a word. -/
def atWordEdge (spot : Spot) : Bool :=
  (spot.last.map Text.isWord).getD false != (spot.rest.head?.map Text.isWord).getD false

/-- The spots of a list without those that occurred before. -/
def distinct (seen : List Nat) : List Spot → List Spot
  | [] => []
  | spot :: others =>
      if seen.contains spot.left then distinct seen others
      else spot :: distinct (spot.left :: seen) others

end Spot

namespace Pattern

/-- Exactly so many steps from a spot. -/
def exactly (step : Spot → List Spot) : Nat → Spot → List Spot
  | 0, spot => [spot]
  | count + 1, spot => Spot.distinct [] ((step spot).flatMap (exactly step count))

/-- At most so many steps from a spot. -/
def atMost (step : Spot → List Spot) (greedy : Bool) : Nat → Spot → List Spot
  | 0, spot => [spot]
  | count + 1, spot =>
      let further := (step spot).flatMap (atMost step greedy count)
      Spot.distinct [] (if greedy then further ++ [spot] else spot :: further)

/-- Any number of steps from a spot, where the spots in `seen` have been left before. A step that
goes nowhere ends the repetition. -/
def anyNumber (step : Spot → List Spot) (greedy : Bool) :
    Nat → List Nat → Spot → List Spot × List Nat
  | 0, seen, spot => ([spot], seen)
  | fuel + 1, seen, spot =>
      if seen.contains spot.left then ([], seen)
      else
        let (further, seen) :=
          (step spot).foldl
            (fun (found, seen) next =>
              if next.left = spot.left then (found ++ [spot], seen)
              else
                let (more, seen) := anyNumber step greedy fuel seen next
                (found ++ more, seen))
            ([], spot.left :: seen)
        (if greedy then further ++ [spot] else spot :: further, seen)

/-- The ends of the matches that begin at a spot, the preferred one first. -/
def ends : Pattern → Spot → List Spot
  | empty, spot => [spot]
  | member set, spot =>
      match spot.rest with
      | [] => []
      | c :: rest => if set.holds c then [⟨some c, spot.left - 1, rest⟩] else []
  | textStart, spot => if spot.last.isNone then [spot] else []
  | textEnd, spot => if spot.rest.isEmpty then [spot] else []
  | wordEdge negated, spot => if spot.atWordEdge != negated then [spot] else []
  | sequence first second, spot => Spot.distinct [] ((first.ends spot).flatMap second.ends)
  | choice left right, spot => Spot.distinct [] (left.ends spot ++ right.ends spot)
  | repeated part least most greedy, spot =>
      let further : Spot → List Spot :=
        match most with
        | some most => atMost part.ends greedy (most - least)
        | none => fun spot =>
            Spot.distinct [] (anyNumber part.ends greedy (spot.left + 1) [] spot).1
      Spot.distinct [] ((exactly part.ends least spot).flatMap further)

/-! ## Searching -/

/-- The first match at a spot or after it: what stands before the match, and its end. -/
def searchFrom (pattern : Pattern) : (last : Option Char) → (rest : List Char) →
    Option (List Char × Spot × Spot)
  | last, [] => (pattern.ends ⟨last, 0, []⟩).head?.map fun stop => ([], ⟨last, 0, []⟩, stop)
  | last, c :: rest =>
      let spot : Spot := ⟨last, rest.length + 1, c :: rest⟩
      match pattern.ends spot with
      | stop :: _ => some ([], spot, stop)
      | [] =>
          (searchFrom pattern (some c) rest).map fun (before, found) => (c :: before, found)

/-- Whether the pattern matches somewhere in the text. -/
def occursIn (pattern : Pattern) (text : String) : Bool :=
  (pattern.searchFrom none text.toList).isSome

/-- The next match from a spot on. A match of no characters does not follow another match
directly. -/
def nextMatch? (pattern : Pattern) (matchedBefore : Bool) (spot : Spot) :
    Option (List Char × Spot) :=
  match pattern.searchFrom spot.last spot.rest with
  | none => none
  | some (before, start, stop) =>
      if matchedBefore && stop.left = spot.left && start.left = spot.left then
        match spot.rest with
        | [] => none
        | c :: rest =>
            (pattern.searchFrom (some c) rest).map fun (before, _, stop) => (c :: before, stop)
      else some (before, stop)

def replaceFrom (pattern : Pattern) (replacement : List Char) :
    Nat → Bool → Spot → List Char
  | 0, _, spot => spot.rest
  | fuel + 1, matchedBefore, spot =>
      match pattern.nextMatch? matchedBefore spot with
      | none => spot.rest
      | some (before, stop) =>
          before ++ replacement ++ replaceFrom pattern replacement fuel true stop

def replaceAll (pattern : Pattern) (replacement text : String) : String :=
  let chars := text.toList
  String.ofList
    (pattern.replaceFrom replacement.toList (2 * chars.length + 2) false (Spot.start chars))

end Pattern

end FormCompiler
