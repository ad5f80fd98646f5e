/-!
# Diagnostics

A diagnostic names a problem that does not stop the work: what kind of problem it is, the path of
the value that has it, and a message. How severe it is follows from its kind.
-/

namespace FormCompiler

/-- How severe a problem is, from the mildest on. -/
inductive Severity where
  | info
  | warning
  | error
  deriving DecidableEq

namespace Severity

def display : Severity → String
  | info => "info"
  | warning => "warning"
  | error => "error"

def table : List (String × Severity) := [("Info", info), ("Warning", warning), ("Error", error)]

def stored : Severity → String
  | info => "Info"
  | warning => "Warning"
  | error => "Error"

/-- The place in the order from mild to severe. -/
def rank : Severity → Nat
  | info => 0
  | warning => 1
  | error => 2

/-- The more severe of two. -/
def join (a b : Severity) : Severity := if a.rank < b.rank then b else a

end Severity

/-- The kinds of problems that are tolerated. -/
inductive DiagnosticCode where
  /-- A condition or a cross-field rule names a field that the form does not have. -/
  | danglingReference
  /-- The lower bound is greater than the upper bound. -/
  | contradictoryBounds
  | emptyOptions
  /-- A column span was moved into its bounds. -/
  | columnsClamped
  /-- A name has characters that the extraction of names does not recognise. -/
  | nonIdentifierName
  deriving DecidableEq

namespace DiagnosticCode

def all : List DiagnosticCode :=
  [danglingReference, contradictoryBounds, emptyOptions, columnsClamped, nonIdentifierName]

def name : DiagnosticCode → String
  | danglingReference => "DanglingReference"
  | contradictoryBounds => "ContradictoryBounds"
  | emptyOptions => "EmptyOptions"
  | columnsClamped => "ColumnsClamped"
  | nonIdentifierName => "NonIdentifierName"

def table : List (String × DiagnosticCode) := all.map fun code => (code.name, code)

def severity : DiagnosticCode → Severity
  | danglingReference => .error
  | contradictoryBounds => .warning
  | emptyOptions => .warning
  | columnsClamped => .info
  | nonIdentifierName => .warning

end DiagnosticCode

structure Diagnostic where
  code : DiagnosticCode
  path : String
  message : String
  deriving DecidableEq

namespace Diagnostic

def severity (d : Diagnostic) : Severity := d.code.severity

def display (d : Diagnostic) : String :=
  "[" ++ d.severity.display ++ "] " ++ d.code.name ++ " at " ++ d.path ++ ": " ++ d.message

/-- The greatest severity among some problems. -/
def maxSeverity? : List Diagnostic → Option Severity
  | [] => none
  | d :: rest =>
      match maxSeverity? rest with
      | none => some d.severity
      | some other => some (d.severity.join other)

/-- Whether a problem of a kind is among them. -/
def hasCode (code : DiagnosticCode) (diagnostics : List Diagnostic) : Bool :=
  diagnostics.any fun d => d.code = code

end Diagnostic

end FormCompiler
