import FormCompiler.Diff.Lines
import FormCompiler.Diff.Script
import FormCompiler.Pattern.Language
import FormCompiler.Terminal.Style

/-!
# Reports of differences

Two texts are compared line by line after the parts that are expected to vary have been masked. A
report shows the changed lines with some lines around them, up to a limit.
-/

namespace FormCompiler.Diff

/-- What a line of a report says. -/
inductive ChangeKind where
  | kept
  | removed
  | added
  deriving DecidableEq

structure Change where
  kind : ChangeKind
  line : String
  deriving DecidableEq

/-- The lines of a block, the removed ones before the added ones. -/
def Block.changes : Block → List Change
  | same lines => lines.map (⟨.kept, ·⟩)
  | changed removed added => removed.map (⟨.removed, ·⟩) ++ added.map (⟨.added, ·⟩)

/-! ## Groups -/

def lastLines (count : Nat) (lines : List String) : List String :=
  lines.drop (lines.length - count)

/-- Blocks whose leading lines without a change are at most so many. -/
def trimStart (context : Nat) : List Block → List Block
  | .same lines :: rest => .same (lastLines context lines) :: rest
  | blocks => blocks

/-- Blocks whose trailing lines without a change are at most so many. -/
def trimEnd (context : Nat) : List Block → List Block
  | [] => []
  | [.same lines] => [.same (lines.take context)]
  | block :: rest => block :: trimEnd context rest

/-- Cuts blocks into groups where more lines stay than are shown between two changes; `group` holds
the blocks of the current group. -/
def splitGroups (context : Nat) (group : List Block) : List Block → List (List Block)
  | [] =>
      match group with
      | [] => []
      | [.same _] => []
      | group => [group]
  | .same lines :: rest =>
      if 2 * context < lines.length then
        (group ++ [.same (lines.take context)]) ::
          splitGroups context [.same (lastLines context lines)] rest
      else splitGroups context (group ++ [.same lines]) rest
  | block :: rest => splitGroups context (group ++ [block]) rest

/-- The groups of changes with so many lines around them. -/
def groups (context : Nat) (blocks : List Block) : List (List Block) :=
  splitGroups context [] (trimEnd context (trimStart context blocks))

/-! ## Output -/

/-- How differences are shown. -/
structure Options where
  colored : Bool
  context : Nat
  full : Bool
  /-- The greatest number of lines that are shown; zero is no limit. -/
  limit : Nat
  deriving DecidableEq

def Options.defaults : Options := ⟨true, 3, false, 100⟩

def ChangeKind.sign : ChangeKind → String
  | kept => " "
  | removed => "-"
  | added => "+"

def Change.display (colored : Bool) (change : Change) : String :=
  let paint := Terminal.paint colored
  let line := printed change.line
  match change.kind with
  | .kept => change.kind.sign ++ line
  | .removed => paint .red change.kind.sign ++ paint .red line
  | .added => paint .green change.kind.sign ++ paint .green line

def headline (colored : Bool) : String := Terminal.paint colored .bold "=== Diff Output ===\n"

def gapLine : String := "...\n"

def cutLine : String := "... (diff truncated) ...\n"

/-- The lines of a group after `shown` lines; the count of lines is absent once the limit cuts the
report. -/
def groupText (options : Options) (shown : Nat) : List Change → String × Option Nat
  | [] => ("", some shown)
  | change :: rest =>
      if options.limit ≠ 0 && options.limit ≤ shown then (cutLine, none)
      else
        let (others, count) := groupText options (shown + 1) rest
        (change.display options.colored ++ others, count)

/-- The groups after the first one, each after a gap, unless the limit has cut the report. -/
def groupTexts (options : Options) (first : Bool) (shown : Nat) : List (List Change) → String
  | [] => ""
  | group :: rest =>
      let (lines, count) := groupText options shown group
      (if first then "" else gapLine) ++ lines ++
        match count with
        | some shown => groupTexts options false shown rest
        | none => ""

/-- The report of groups, whatever they are. -/
def groupReport (options : Options) (groups : List (List Change)) : String :=
  headline options.colored ++ groupTexts options true 0 groups

def selected (options : Options) (blocks : List Block) : List (List Change) :=
  (if options.full then [blocks] else groups options.context blocks).map fun group =>
    group.flatMap Block.changes

def report (options : Options) (blocks : List Block) : String :=
  groupReport options (selected options blocks)

/-! ## Comparison -/

/-- How many lines differ, and where the first change is. -/
structure Summary where
  added : Nat
  removed : Nat
  first : Option Nat
  deriving DecidableEq

def Summary.none : Summary := ⟨0, 0, .none⟩

/-- The number of the first changed line: in the old text if a line is removed there, else in the
new text. -/
def firstChange (old new : Nat) : List Change → Option Nat
  | [] => none
  | change :: rest =>
      match change.kind with
      | .kept => firstChange (old + 1) (new + 1) rest
      | .removed => some (old + 1)
      | .added => some (new + 1)

def summary (changes : List Change) : Summary :=
  ⟨(changes.filter fun c => c.kind = .added).length,
    (changes.filter fun c => c.kind = .removed).length, firstChange 0 0 changes⟩

/-- The outcome of a comparison. -/
structure Comparison where
  isMatch : Bool
  output : String
  summary : Summary
  deriving DecidableEq

def mask : String := "***MASKED***"

/-- A text with all matches of some patterns masked, one pattern after the other. -/
def maskAll (patterns : List Matcher) (text : String) : String :=
  patterns.foldl (fun text pattern => pattern.replaceAll mask text) text

def compare (options : Options) (patterns : List Matcher) (expected actual : String) :
    Comparison :=
  let expected := maskAll patterns expected
  let actual := maskAll patterns actual
  if expected = actual then ⟨true, "", .none⟩
  else
    let blocks := blocks (lines expected) (lines actual)
    ⟨false, report options blocks, summary (blocks.flatMap Block.changes)⟩

/-- Every line of both texts with its sign, nothing masked. -/
def plainReport (expected actual : String) : String :=
  String.join
    (((blocks (lines expected) (lines actual)).flatMap Block.changes).map (·.display false))

end FormCompiler.Diff
