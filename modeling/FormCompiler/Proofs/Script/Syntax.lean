import FormCompiler.Compiled.Visibility
import FormCompiler.Proofs.Script.Token

/-!
# Expressions of a script

An expression is read from its tokens by a machine with a stack.  The frames of the stack are the
brackets that are open and the operators that wait for their right sides; an operator first settles
the waiting ones that bind at least as tightly.  The operator `??` may not stand beside `&&` or `||`
without parentheses.
-/

namespace FormCompiler.Script

inductive Expr where
  | name (name : String)
  | text (units : List Nat)
  | numeral (digits : List Char)
  | negate (expr : Expr)
  | member (object key : Expr)
  | call (function argument : Expr)
  | binary (op : Operator) (left right : Expr)
  deriving DecidableEq

namespace Operator

def rank : Operator → Nat
  | or | coalesce => 1
  | and => 2
  | equal | notEqual => 3
  | greater | less => 4

/-- Operators that may not stand in one expression without parentheses. -/
def clashes : Operator → Operator → Bool
  | coalesce, or | coalesce, and | or, coalesce | and, coalesce => true
  | _, _ => false

end Operator

/-- What an expression is part of: an open bracket, or an operator without its right side. -/
inductive Frame where
  | group
  | argument (function : Expr)
  | index (object : Expr)
  | negation
  | left (op : Operator) (left : Expr)
  deriving DecidableEq

/-- A machine that expects an expression, or the name behind a point, or has read an expression. -/
inductive State where
  | awaiting (frames : List Frame)
  | pointed (object : Expr) (frames : List Frame)
  | complete (expr : Expr) (frames : List Frame)
  deriving DecidableEq

/-- Settles the waiting operators of at least a rank, up to the innermost open bracket. -/
def settle (least : Nat) (expr : Expr) : List Frame → Expr × List Frame
  | .negation :: frames => settle least (.negate expr) frames
  | .left op left :: frames =>
      if least ≤ op.rank then settle least (.binary op left expr) frames
      else (expr, .left op left :: frames)
  | frames => (expr, frames)

/-- Whether an operator clashes with one that waits inside the innermost open bracket. -/
def clashesIn (op : Operator) : List Frame → Bool
  | .negation :: frames => clashesIn op frames
  | .left other _ :: frames => op.clashes other || clashesIn op frames
  | _ => false

def closeRound : Expr × List Frame → Option State
  | (expr, .group :: frames) => some (.complete expr frames)
  | (expr, .argument function :: frames) => some (.complete (.call function expr) frames)
  | _ => none

def closeSquare : Expr × List Frame → Option State
  | (expr, .index object :: frames) => some (.complete (.member object expr) frames)
  | _ => none

def step : State → Token → Option State
  | .awaiting frames, .name name => some (.complete (.name name) frames)
  | .awaiting frames, .text units => some (.complete (.text units) frames)
  | .awaiting frames, .numeral digits => some (.complete (.numeral digits) frames)
  | .awaiting (.negation :: _), .minus => none
  | .awaiting frames, .minus => some (.awaiting (.negation :: frames))
  | .awaiting frames, .openRound => some (.awaiting (.group :: frames))
  | .pointed object frames, .name name =>
      some (.complete (.member object (.text (unitsOf name))) frames)
  | .complete expr frames, .point => some (.pointed expr frames)
  | .complete expr frames, .openSquare => some (.awaiting (.index expr :: frames))
  | .complete expr frames, .openRound => some (.awaiting (.argument expr :: frames))
  | .complete expr frames, .closeRound => closeRound (settle 0 expr frames)
  | .complete expr frames, .closeSquare => closeSquare (settle 0 expr frames)
  | .complete expr frames, .operator op =>
      if clashesIn op frames then none
      else
        let (expr, frames) := settle op.rank expr frames
        some (.awaiting (.left op expr :: frames))
  | _, _ => none

def run (state : State) : List Token → Option State
  | [] => some state
  | token :: rest => (step state token).bind fun next => run next rest

/-- The expression of a machine at the end of its text. -/
def finish? : State → Option Expr
  | .complete expr frames =>
      match settle 0 expr frames with
      | (expr, []) => some expr
      | _ => none
  | _ => none

def parse? (text : String) : Option Expr :=
  ((tokens? text.toList).bind (run (.awaiting []))).bind finish?

/-- Without parentheses `&&` binds more tightly than `||`, and comparisons more tightly still. -/
example : parse? "a || b > -1 && c[\"x\"] === d.y(e)" =
    some (.binary .or (.name "a")
      (.binary .and (.binary .greater (.name "b") (.negate (.numeral ['1'])))
        (.binary .equal (.member (.name "c") (.text [120]))
          (.call (.member (.name "d") (.text [121])) (.name "e"))))) := by decide

/-- The operators `??` and `||` are not mixed. -/
example : parse? "a ?? b || c" = none := by decide

/-! ## The expressions of a form -/

namespace Expr

/-- The expression of an operand. A negative number is a negated numeral. -/
def ofOperand : Operand → Expr
  | .text value => .text (unitsOf value)
  | .number x =>
      if x.isNegative then .negate (.numeral (Source.unsignedText x))
      else .numeral (Source.unsignedText x)
  | .coerced value => .call (.name "Number") (.text (unitsOf value))

def valueOf (field : String) : Expr := .member (.name "values") (.text (unitsOf field))

/-- The value of a field as a text, where undefined and null are empty. -/
def shownText (field : String) : Expr :=
  .call (.name "String") (.binary .coalesce (valueOf field) (.text (unitsOf "")))

def ofPredicate (p : Predicate) : Expr :=
  match p.operator with
  | .equal => .binary .equal (valueOf p.field) (ofOperand p.operand)
  | .notEqual => .binary .notEqual (valueOf p.field) (ofOperand p.operand)
  | .greater => .binary .greater (valueOf p.field) (ofOperand p.operand)
  | .less => .binary .less (valueOf p.field) (ofOperand p.operand)
  | .contains =>
      .call (.member (shownText p.field) (.text (unitsOf "includes"))) (ofOperand p.operand)

def ofLogic : LogicOp → Operator
  | .and => .and
  | .or => .or

def ofBoolExpr : BoolExpr → Expr
  | .predicate p => ofPredicate p
  | .combine left logic right => .binary (ofLogic logic) (ofBoolExpr left) (ofBoolExpr right)

end Expr

end FormCompiler.Script
