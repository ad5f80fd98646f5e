import FormCompiler.Compiled.Form
import FormCompiler.Source.Expression
import Mathlib.Data.List.Forall2

/-!
# Forms that do the same

Two compiled fields are alike when name, label, kind, chain and visibility agree, where limits and
numeric operands agree as soon as they are written with the same digits.  The identifiers of the
fields, their columns and their groups do not matter.
-/

namespace FormCompiler

/-- The same operand, up to numbers that are written alike. -/
inductive Operand.Alike : Operand → Operand → Prop where
  | text (value : String) : Alike (.text value) (.text value)
  | number {x y : Binary64} (h : x.sourceText = y.sourceText) : Alike (.number x) (.number y)
  | coerced (value : String) : Alike (.coerced value) (.coerced value)

/-- The same comparison of the same field, up to the operands. -/
structure Predicate.Alike (p q : Predicate) : Prop where
  field : p.field = q.field
  operator : p.operator = q.operator
  operand : p.operand.Alike q.operand

/-- The same tree, up to the operands. -/
inductive BoolExpr.Alike : BoolExpr → BoolExpr → Prop where
  | predicate {p q : Predicate} (h : p.Alike q) : Alike (.predicate p) (.predicate q)
  | combine {left right left' right' : BoolExpr} (logic : LogicOp) (hleft : Alike left left')
      (hright : Alike right right') :
      Alike (.combine left logic right) (.combine left' logic right')

/-- Shown on the same conditions. -/
inductive Visibility.Alike : Visibility → Visibility → Prop where
  | always : Alike .always .always
  | «when» {expr expr' : BoolExpr} (h : expr.Alike expr') : Alike (.when expr) (.when expr')

/-- The same clause, up to limits that are written alike. -/
inductive RuleClause.Alike : RuleClause → RuleClause → Prop where
  | required (message : String) : Alike (.required message) (.required message)
  | min {x y : Binary64} (h : x.sourceText = y.sourceText) (message : String) :
      Alike (.min x message) (.min y message)
  | max {x y : Binary64} (h : x.sourceText = y.sourceText) (message : String) :
      Alike (.max x message) (.max y message)
  | pattern (source message : String) : Alike (.pattern source message) (.pattern source message)
  | crossField (other message : String) :
      Alike (.crossField other message) (.crossField other message)

/-- The same base and the same clauses in the same order. -/
structure ValidationChain.Alike (chain chain' : ValidationChain) : Prop where
  base : chain.base = chain'.base
  clauses : List.Forall₂ RuleClause.Alike chain.clauses chain'.clauses

/-- Fields of which no user can tell one from the other. -/
structure CompiledField.Alike (c d : CompiledField) : Prop where
  name : c.field.name = d.field.name
  label : c.field.label = d.field.label
  kind : c.field.kind = d.field.kind
  validation : c.validation.Alike d.validation
  visibility : c.visibility.Alike d.visibility

/-! ## Every part is like itself -/

theorem Operand.Alike.refl (a : Operand) : a.Alike a := by
  cases a with
  | text value => exact .text value
  | number x => exact .number rfl
  | coerced value => exact .coerced value

theorem Predicate.Alike.refl (p : Predicate) : p.Alike p := ⟨rfl, rfl, .refl p.operand⟩

theorem BoolExpr.Alike.refl (expr : BoolExpr) : expr.Alike expr := by
  induction expr with
  | predicate p => exact .predicate (.refl p)
  | combine left logic right hleft hright => exact .combine logic hleft hright

theorem Visibility.Alike.refl (visibility : Visibility) : visibility.Alike visibility := by
  cases visibility with
  | always => exact .always
  | «when» expr => exact .when (.refl expr)

theorem RuleClause.Alike.refl (clause : RuleClause) : clause.Alike clause := by
  cases clause with
  | required message => exact .required message
  | min limit message => exact .min rfl message
  | max limit message => exact .max rfl message
  | pattern source message => exact .pattern source message
  | crossField other message => exact .crossField other message

theorem ValidationChain.Alike.refl (chain : ValidationChain) : chain.Alike chain :=
  ⟨rfl, List.forall₂_same.mpr fun clause _ => .refl clause⟩

/-! ## Alike parts are written alike -/

theorem Operand.Alike.sourceText_eq {a b : Operand} (h : a.Alike b) :
    a.sourceText = b.sourceText := by
  cases h with
  | text value => rfl
  | number h => exact h
  | coerced value => rfl

theorem Predicate.Alike.sourceText_eq {p q : Predicate} (h : p.Alike q) :
    p.sourceText = q.sourceText := by
  unfold Predicate.sourceText
  rw [h.field, h.operator, h.operand.sourceText_eq]

theorem BoolExpr.Alike.sourceText_eq {expr expr' : BoolExpr} (h : expr.Alike expr') :
    expr.sourceText = expr'.sourceText := by
  induction h with
  | predicate h => exact h.sourceText_eq
  | combine logic _ _ hleft hright =>
      unfold BoolExpr.sourceText
      rw [hleft, hright]

theorem RuleClause.Alike.sourceText_eq {clause clause' : RuleClause} (h : clause.Alike clause') :
    clause.sourceText = clause'.sourceText := by
  unfold RuleClause.sourceText
  cases h with
  | required message => rfl
  | min h message => simp only [h]
  | max h message => simp only [h]
  | pattern source message => rfl
  | crossField other message => rfl

theorem RuleClause.listText_eq_of_alike {clauses clauses' : List RuleClause}
    (h : List.Forall₂ RuleClause.Alike clauses clauses') :
    RuleClause.listText clauses = RuleClause.listText clauses' := by
  induction h with
  | nil => rfl
  | cons hclause _ ih =>
      unfold RuleClause.listText
      rw [hclause.sourceText_eq, ih]

theorem ValidationChain.Alike.sourceText_eq {chain chain' : ValidationChain}
    (h : chain.Alike chain') : chain.sourceText = chain'.sourceText := by
  unfold ValidationChain.sourceText
  rw [h.base, RuleClause.listText_eq_of_alike h.clauses]

end FormCompiler
