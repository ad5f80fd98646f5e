/-!
# Lines and levels

Generated source is a list of lines, each at a level. Only when a layout is rendered do the levels
become spaces, so the width of a level changes no text. An empty line has no spaces at all.
-/

namespace FormCompiler.Source

/-- A line of text at a level. -/
structure Line where
  level : Nat
  text : String
  deriving DecidableEq

/-- Lines, from the first one on. -/
abbrev Layout := List Line

namespace Layout

/-- One line at the outermost level. -/
def line (text : String) : Layout := [⟨0, text⟩]

def blank : Layout := line ""

/-- The lines a number of levels deeper. -/
def indentBy (levels : Nat) (layout : Layout) : Layout :=
  layout.map fun line => { line with level := line.level + levels }

def nested (layout : Layout) : Layout := layout.indentBy 1

end Layout

/-- The text of a line with its spaces and the line feed. -/
def Line.render (width : Nat) (line : Line) : String :=
  if line.text = "" then "\n"
  else String.ofList (List.replicate (line.level * width) ' ') ++ line.text ++ "\n"

/-- The text of a layout, with a number of spaces for each level. -/
def Layout.render (width : Nat) : Layout → String
  | [] => ""
  | line :: rest => line.render width ++ Layout.render width rest

/-! ## Writing line by line -/

/-- The lines written so far and the level of the next one. -/
structure Writer where
  written : Layout
  level : Nat
  deriving DecidableEq

namespace Writer

def empty : Writer := ⟨[], 0⟩

/-- Goes one level deeper. -/
def indent (writer : Writer) : Writer := { writer with level := writer.level + 1 }

/-- Goes one level back; the outermost level stays. -/
def dedent (writer : Writer) : Writer := { writer with level := writer.level - 1 }

/-- Writes a layout at the current level. -/
def add (writer : Writer) (layout : Layout) : Writer :=
  { writer with written := writer.written ++ layout.indentBy writer.level }

def line (writer : Writer) (text : String) : Writer := writer.add (Layout.line text)

def blank (writer : Writer) : Writer := writer.add Layout.blank

/-- Writes a part one level deeper. -/
def nested (writer : Writer) (part : Writer → Writer) : Writer := (part writer.indent).dedent

def render (writer : Writer) (width : Nat) : String := writer.written.render width

theorem nested_add (writer : Writer) (layout : Layout) :
    writer.nested (·.add layout) = writer.add layout.nested := by
  cases writer with
  | mk written level =>
      simp [nested, add, indent, dedent, Layout.nested, Layout.indentBy, Nat.add_comm,
        Nat.add_left_comm]

end Writer

end FormCompiler.Source
