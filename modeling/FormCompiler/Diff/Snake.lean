/-!
# The middle of an edit path

Two lists span a grid whose diagonal steps keep an equal item. A shortest path from the upper left
corner to the lower right one is looked for from both ends at once: after `d` steps aside, the
furthest point on each diagonal is known from the points after `d - 1` steps. Where the two searches
meet, the path can be cut in two.
-/

namespace FormCompiler.Diff

/-- The furthest points that one search has reached, by their diagonals. -/
structure Frontier where
  offset : Nat
  points : Array Nat

namespace Frontier

/-- Nothing is reached; the search will start on diagonal zero. -/
def start (offset : Nat) : Frontier := ⟨offset, Array.replicate (2 * offset + 2) 0⟩

def index (frontier : Frontier) (diagonal : Int) : Nat := (diagonal + frontier.offset).toNat

def get (frontier : Frontier) (diagonal : Int) : Nat :=
  frontier.points.getD (frontier.index diagonal) 0

def set (frontier : Frontier) (diagonal : Int) (point : Nat) : Frontier :=
  { frontier with points := frontier.points.setIfInBounds (frontier.index diagonal) point }

/-- Where a search comes to a diagonal by its last step aside. -/
def entry (frontier : Frontier) (steps : Nat) (diagonal : Int) : Nat :=
  let before := frontier.get (diagonal - 1)
  let after := frontier.get (diagonal + 1)
  if diagonal = -(steps : Int) || (diagonal ≠ steps && before < after) then after else before + 1

end Frontier

/-- The number of equal items from two places on. -/
def matchLength (equal : Nat → Nat → Bool) : (fuel x y : Nat) → Nat
  | 0, _, _ => 0
  | fuel + 1, x, y => if equal x y then matchLength equal fuel (x + 1) (y + 1) + 1 else 0

/-- Two lists of items with their lengths, and the searches from both ends. -/
structure Search (α : Type) where
  old : Array α
  new : Array α
  forward : Frontier
  backward : Frontier

namespace Search

variable {α : Type} [DecidableEq α]

/-- How many more items there are in the old list than in the new one. -/
def surplus (search : Search α) : Int := (search.old.size : Int) - search.new.size

/-- Whether the items at two places, counted from the front, are there and equal. -/
def equalFront (search : Search α) (x y : Nat) : Bool :=
  match search.old[x]?, search.new[y]? with
  | some a, some b => a = b
  | _, _ => false

def equalBack (search : Search α) (x y : Nat) : Bool :=
  x < search.old.size && y < search.new.size &&
    search.equalFront (search.old.size - 1 - x) (search.new.size - 1 - y)

/-- The end of the diagonal run that starts at a point. -/
def slide (search : Search α) (equal : Nat → Nat → Bool) (x : Nat) (y : Int) : Nat :=
  if y < 0 then x else x + matchLength equal (min search.old.size search.new.size) x y.toNat

/-- One diagonal of the search from the front; the answer is where the paths meet, if they do. -/
def stepForward (search : Search α) (steps : Nat) (diagonal : Int) :
    Search α × Option (Nat × Nat) :=
  let x := search.forward.entry steps diagonal
  let y := (x : Int) - diagonal
  let furthest := search.slide search.equalFront x y
  let search := { search with forward := search.forward.set diagonal furthest }
  let other := diagonal - search.surplus
  -- with an odd surplus the paths meet in a step from the front, else in one from the back
  let meets :=
    search.surplus % 2 ≠ 0 && other.natAbs + 1 ≤ steps &&
      search.old.size ≤ furthest + search.backward.get (-other)
  (search, if meets then some (x, y.toNat) else none)

def stepBackward (search : Search α) (steps : Nat) (diagonal : Int) :
    Search α × Option (Nat × Nat) :=
  let x := search.backward.entry steps diagonal
  let y := (x : Int) - diagonal
  let furthest := search.slide search.equalBack x y
  let search := { search with backward := search.backward.set diagonal furthest }
  let other := diagonal - search.surplus
  let meets :=
    search.surplus % 2 = 0 && other.natAbs ≤ steps &&
      search.old.size ≤ furthest + search.forward.get (-other)
  (search,
    if meets then
      some (search.old.size - furthest, ((search.new.size : Int) - (furthest - diagonal)).toNat)
    else none)

/-- The diagonals that can be reached in a number of steps, the greatest first. -/
def diagonals (steps : Nat) : List Int :=
  (List.range (steps + 1)).map fun i : Nat => (steps : Int) - 2 * i

/-- Goes over some diagonals until the paths meet. -/
def tryAll (step : Search α → Int → Search α × Option (Nat × Nat)) :
    List Int → Search α → Search α × Option (Nat × Nat)
  | [], search => (search, none)
  | diagonal :: rest, search =>
      match step search diagonal with
      | (search, some found) => (search, some found)
      | (search, none) => tryAll step rest search

/-- Searches with more and more steps, at most `fuel` times. -/
def run : (fuel steps : Nat) → Search α → Option (Nat × Nat)
  | 0, _, _ => none
  | fuel + 1, steps, search =>
      match tryAll (fun search => search.stepForward steps) (diagonals steps) search with
      | (_, some found) => some found
      | (search, none) =>
          match tryAll (fun search => search.stepBackward steps) (diagonals steps) search with
          | (_, some found) => some found
          | (search, none) => run fuel (steps + 1) search

end Search

/-- Where a shortest edit path between two lists can be cut in two. -/
def middle? {α : Type} [DecidableEq α] (old new : List α) : Option (Nat × Nat) :=
  let size := old.length + new.length
  let start := Frontier.start (size + 2)
  Search.run (size + 1) 0 ⟨old.toArray, new.toArray, start, start⟩

end FormCompiler.Diff
