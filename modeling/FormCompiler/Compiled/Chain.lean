import FormCompiler.Schema.Field
import FormCompiler.Values.Basic

/-!
# Validation chains

A rule is compiled to a base, which follows from the type of the field, and clauses in a fixed
order: required, lower bound, upper bound, pattern, and equality with another field.
-/

namespace FormCompiler

/-- What a validated value is. -/
inductive BaseRule where
  | string
  | number
  | date
  | boolean
  deriving DecidableEq

namespace BaseRule

def ofType : FieldType → BaseRule
  | .number => number
  | .date => date
  | .checkbox => boolean
  | .input => string
  | .select => string
  | .textarea => string

def name : BaseRule → String
  | string => "String"
  | number => "Number"
  | date => "Date"
  | boolean => "Boolean"

end BaseRule

/-- A clause of a chain, with the message for a value that fails it. -/
inductive RuleClause where
  | required (message : String)
  | min (limit : Binary64) (message : String)
  | max (limit : Binary64) (message : String)
  | pattern (source message : String)
  | crossField (other message : String)
  deriving DecidableEq

namespace RuleClause

def kindName : RuleClause → String
  | required _ => "Required"
  | min _ _ => "Min"
  | max _ _ => "Max"
  | pattern _ _ => "Pattern"
  | crossField _ _ => "CrossField"

def message : RuleClause → String
  | required message => message
  | min _ message => message
  | max _ message => message
  | pattern _ message => message
  | crossField _ message => message

def other? : RuleClause → Option String
  | crossField other _ => some other
  | _ => none

end RuleClause

/-- A base and the clauses after it. -/
structure ValidationChain where
  base : BaseRule
  clauses : List RuleClause
  deriving DecidableEq

namespace ValidationChain

def requiredMessage : String := "Required"
def minMessage : String := "Value too small"
def maxMessage : String := "Value too large"
def patternMessage : String := "Invalid format"
def crossFieldMessage : String := "Cross-field validation failed"

/-- A text that says something. -/
def given (text : Option String) : Option String := text.filter fun t => t ≠ ""

def clausesOf (rule : ValidationRule) : List RuleClause :=
  (if rule.required then [.required ((given rule.customMessage).getD requiredMessage)] else []) ++
    (rule.min.toList.map fun limit => .min limit minMessage) ++
    (rule.max.toList.map fun limit => .max limit maxMessage) ++
    ((given rule.pattern).toList.map fun source => .pattern source patternMessage) ++
    ((given rule.crossField).toList.map fun other => .crossField other crossFieldMessage)

def compile (type : FieldType) (rule : ValidationRule) : ValidationChain :=
  ⟨.ofType type, clausesOf rule⟩

def crossField? (chain : ValidationChain) : Option String := chain.clauses.findSome? (·.other?)

/-- Whether the values of a field and of the field it is compared with agree. Two undefined values
agree, and a chain that compares with no field holds always. -/
def crossFieldHolds (chain : ValidationChain) (field : String) (values : FormValues) : Bool :=
  match chain.crossField? with
  | none => true
  | some other =>
      match values.get? field, values.get? other with
      | none, none => true
      | some a, some b => a.strictlyEquals b
      | _, _ => false

end ValidationChain

end FormCompiler
