import FormCompiler.Schema.Field
import FormCompiler.Values.Basic

/-!
# Visibility of a field

A list of conditions is compiled to an expression that joins them from left to right. The value of
an order comparison is read as a number once, at compile time, if it is a decimal numeral. A field
without conditions is always visible.
-/

namespace FormCompiler

/-- What a field is compared with. -/
inductive Operand where
  | text (value : String)
  | number (value : Binary64)
  /-- A text that is turned into a number when it is compared. -/
  | coerced (value : String)
  deriving DecidableEq

/-- A comparison of a field with an operand. -/
structure Predicate where
  field : String
  operator : ComparisonOp
  operand : Operand
  deriving DecidableEq

/-- An expression over the values of a form. -/
inductive BoolExpr where
  | predicate (p : Predicate)
  | combine (left : BoolExpr) (logic : LogicOp) (right : BoolExpr)
  deriving DecidableEq

namespace BoolExpr

/-- The comparisons of an expression, from left to right. -/
def predicates : BoolExpr → List Predicate
  | predicate p => [p]
  | combine left _ right => left.predicates ++ right.predicates

def referencedFields (expr : BoolExpr) : List String := expr.predicates.map (·.field)

end BoolExpr

/-- When a field is shown. -/
inductive Visibility where
  | always
  | when (expr : BoolExpr)
  deriving DecidableEq

/-! ## Compilation -/

namespace Operand

def compile (operator : ComparisonOp) (value : String) : Operand :=
  match operator with
  | .greater | .less =>
      match Coercion.decimalNumber? value with
      | some x => number x
      | none => coerced value
  | .equal | .notEqual | .contains => text value

end Operand

def Condition.predicate (c : Condition) : Predicate :=
  ⟨c.field, c.operator, .compile c.operator c.value⟩

namespace BoolExpr

/-- An expression joined with further conditions, one after the other. -/
def extend (expr : BoolExpr) (conditions : List Condition) : BoolExpr :=
  conditions.foldl (fun expr c => combine expr c.logic (predicate c.predicate)) expr

end BoolExpr

namespace Visibility

def compile : List Condition → Visibility
  | [] => always
  | first :: rest => .when ((BoolExpr.predicate first.predicate).extend rest)

def expr? : Visibility → Option BoolExpr
  | always => none
  | .when expr => some expr

def referencedFields (visibility : Visibility) : List String :=
  (visibility.expr?.map BoolExpr.referencedFields).getD []

end Visibility

/-! ## Evaluation -/

namespace Operand

def toText : Operand → String
  | text value => value
  | coerced value => value
  | number x => x.sourceText

def toNumber : Operand → Binary64
  | number x => x
  | text value => Coercion.textToNumber value
  | coerced value => Coercion.textToNumber value

end Operand

namespace Predicate

/-- Whether a value is a text and the same text as the operand. -/
def sameText (actual : Option FormValue) (operand : Operand) : Bool :=
  match actual with
  | some (.text value) => value = operand.toText
  | _ => false

/-- The number of a value; an undefined value has the undefined number. -/
def numberOf (actual : Option FormValue) : Binary64 :=
  (actual.map FormValue.toNumber).getD .undefined

/-- The text in which a part is looked for; undefined and null are empty. -/
def searchedText : Option FormValue → String
  | none => ""
  | some .null => ""
  | some value => value.toText

def holds (p : Predicate) (values : FormValues) : Bool :=
  let actual := values.get? p.field
  match p.operator with
  | .equal => sameText actual p.operand
  | .notEqual => !sameText actual p.operand
  | .greater => p.operand.toNumber.less (numberOf actual)
  | .less => (numberOf actual).less p.operand.toNumber
  | .contains => Text.occurs p.operand.toText.toList (searchedText actual).toList

end Predicate

def BoolExpr.holds (values : FormValues) : BoolExpr → Bool
  | predicate p => p.holds values
  | combine left logic right => logic.apply (left.holds values) (right.holds values)

def Visibility.isVisible (values : FormValues) : Visibility → Bool
  | always => true
  | .when expr => expr.holds values

end FormCompiler
