import FormCompiler.Compiled.Chain
import FormCompiler.Compiled.Visibility
import FormCompiler.Source.Literal

/-!
# Compiled rules in generated source

A chain is written as calls one after another, and a visibility expression as an expression over
the object `values`. Both sides of a combination stand in parentheses, so the tree can be read
back whatever the precedence of the operators.
-/

namespace FormCompiler

def BaseRule.sourceText : BaseRule → String
  | string => "yup.string()"
  | number => "yup.number()"
  | date => "yup.date()"
  | boolean => "yup.boolean()"

open Source

def RuleClause.sourceText : RuleClause → String
  | required message => ".required(" ++ literal message ++ ")"
  | min limit message => ".min(" ++ limit.sourceText ++ ", " ++ literal message ++ ")"
  | max limit message => ".max(" ++ limit.sourceText ++ ", " ++ literal message ++ ")"
  | pattern source message =>
      ".matches(new RegExp(" ++ literal source ++ "), " ++ literal message ++ ")"
  | crossField other message =>
      ".test(\"crossField\", " ++ literal message ++ ", function (value) \x7b return value === " ++
        memberAccess "this.parent" other ++ "; \x7d)"

/-- The calls of the clauses, in order. -/
def RuleClause.listText : List RuleClause → String
  | [] => ""
  | clause :: rest => clause.sourceText ++ RuleClause.listText rest

def ValidationChain.sourceText (chain : ValidationChain) : String :=
  chain.base.sourceText ++ RuleClause.listText chain.clauses

def Operand.sourceText : Operand → String
  | text value => literal value
  | number x => x.sourceText
  | coerced value => "Number(" ++ literal value ++ ")"

def Predicate.sourceText (p : Predicate) : String :=
  let value := memberAccess "values" p.field
  let operand := p.operand.sourceText
  match p.operator with
  | .equal => value ++ " === " ++ operand
  | .notEqual => value ++ " !== " ++ operand
  | .greater => value ++ " > " ++ operand
  | .less => value ++ " < " ++ operand
  | .contains => "String(" ++ value ++ " ?? \"\").includes(" ++ operand ++ ")"

def LogicOp.sourceText : LogicOp → String
  | and => "&&"
  | or => "||"

def BoolExpr.sourceText : BoolExpr → String
  | predicate p => p.sourceText
  | combine left logic right =>
      "(" ++ left.sourceText ++ ") " ++ logic.sourceText ++ " (" ++ right.sourceText ++ ")"

end FormCompiler
