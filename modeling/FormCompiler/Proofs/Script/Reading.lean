import FormCompiler.Proofs.Script.Syntax

/-!
# Generated expressions are read back

The principal result is that the text of a visibility expression is read as the expression of its
tree, whatever the names and the values are.  A piece of text advances the machine from one state to
another; the pieces of an expression are followed one by one, and the parentheses around both sides
of a combination keep each side away from the operators outside.
-/

namespace FormCompiler.Script

open Source

/-! ## Pieces of text -/

def readFrom (state : State) (text : List Char) : Option State := (tokens? text).bind (run state)

/-- A text in front of the rest takes the machine from one state to the next. -/
def Advances (text : List Char) (state next : State) (rest : List Char) : Prop :=
  readFrom state (text ++ rest) = readFrom next rest

theorem Advances.append {first second rest : List Char} {state middle next : State}
    (hfirst : Advances first state middle (second ++ rest))
    (hsecond : Advances second middle next rest) : Advances (first ++ second) state next rest := by
  unfold Advances at *
  rw [List.append_assoc, hfirst, hsecond]

theorem advances_space (state : State) (rest : List Char) : Advances [' '] state state rest := by
  unfold Advances readFrom
  rw [List.singleton_append, tokens?_space rfl]

theorem advances_token {c : Char} {passed rest : List Char} {token : Token} {state next : State}
    (hspace : isSpace c = false) (htoken : token? (c :: (passed ++ rest)) = some (token, rest))
    (hstep : step state token = some next) : Advances (c :: passed) state next rest := by
  unfold Advances readFrom
  rw [List.cons_append, tokens?_cons hspace htoken]
  cases tokens? rest with
  | none => rfl
  | some others => simp [run, hstep]

theorem advances_name {name : String} (h : isIdentifier name = true) {rest : List Char}
    (hrest : Apart isIdentifierChar rest) {state next : State}
    (hstep : step state (.name name) = some next) : Advances name.toList state next rest := by
  have hchars : ∀ c ∈ name.toList, isIdentifierChar c = true := fun _ => isIdentifierChar_of_mem h
  have htake := takeWhile_append_of_apart hchars hrest
  have hdrop := dropWhile_append_of_apart hchars hrest
  obtain ⟨first, others, hname, hfirst⟩ := exists_cons_of_isIdentifier h
  have hspace : isSpace first = false := by
    simp [isSpace, ne_of_holds hfirst (show beginsIdentifier ' ' = false from rfl),
      ne_of_holds hfirst (show beginsIdentifier '\t' = false from rfl),
      ne_of_holds hfirst (show beginsIdentifier '\n' = false from rfl),
      ne_of_holds hfirst (show beginsIdentifier '\r' = false from rfl)]
  rw [hname] at htake hdrop ⊢
  refine advances_token hspace ?_ hstep
  rw [token?, if_pos hfirst]
  simp only [List.cons_append] at htake hdrop
  rw [htake, hdrop, ← hname, String.ofList_toList]

theorem advances_literal (text : String) {rest : List Char} {state next : State}
    (hstep : step state (.text (unitsOf text)) = some next) :
    Advances (literal text).toList state next rest := by
  rw [toList_literal_eq_body]
  refine advances_token rfl ?_ hstep
  have hquoted := readText?_literalBody text rest
  have hbegins : beginsIdentifier '"' = false := rfl
  have hdigit : Char.isDigit '"' = false := rfl
  simp [token?, hbegins, hdigit, hquoted]

/-- A mark is read whatever follows it. -/
theorem advances_mark {c : Char} {passed : List Char} {token : Token}
    (htoken : ∀ rest, token? (c :: (passed ++ rest)) = some (token, rest))
    (hspace : isSpace c = false) {state next : State} (hstep : step state token = some next)
    (rest : List Char) : Advances (c :: passed) state next rest :=
  advances_token hspace (htoken rest) hstep

theorem isNumeralChar_of_isDigit {c : Char} (h : c.isDigit = true) : isNumeralChar c = true := by
  have halnum : c.isAlphanum = true := Bool.or_eq_true_iff.mpr (Or.inr h)
  simp [isNumeralChar, isIdentifierChar, Text.isAsciiAlphanumeric, halnum]

theorem isNumeralChar_of_mem {text : List Char} (h : IsNumeral text) {c : Char}
    (hmem : c ∈ text) : isNumeralChar c = true := by
  rcases h.isDigit_or_point hmem with hdigit | rfl
  · exact isNumeralChar_of_isDigit hdigit
  · rfl

theorem not_beginsIdentifier_of_isDigit {c : Char} (h : c.isDigit = true) :
    beginsIdentifier c = false := by
  obtain ⟨hlow, hhigh⟩ := Bool.and_eq_true_iff.mp h
  have hsmall : c.val ≤ '9'.val := of_decide_eq_true hhigh
  have hletter : c.isAlpha = false := by
    rw [Bool.eq_false_iff]
    intro hc
    rcases Bool.or_eq_true_iff.mp hc with hupper | hlower
    · exact absurd (UInt32.le_trans (of_decide_eq_true hupper).1 hsmall) (by decide)
    · obtain ⟨hbegin, -⟩ := Bool.and_eq_true_iff.mp hlower
      exact absurd (UInt32.le_trans (of_decide_eq_true hbegin) hsmall) (by decide)
  simp [beginsIdentifier, Text.isAsciiLetter, hletter,
    ne_of_holds h (show Char.isDigit '_' = false from rfl),
    ne_of_holds h (show Char.isDigit '$' = false from rfl)]

theorem advances_numeral (x : Binary64) {rest : List Char} (hrest : Apart isNumeralChar rest)
    {state next : State} (hstep : step state (.numeral (unsignedText x)) = some next) :
    Advances (unsignedText x) state next rest := by
  have hchars : ∀ c ∈ unsignedText x, isNumeralChar c = true := fun _ =>
    isNumeralChar_of_mem (isNumeral_unsignedText x)
  have htake := takeWhile_append_of_apart hchars hrest
  have hdrop := dropWhile_append_of_apart hchars hrest
  obtain ⟨c, others, htext, hc⟩ := exists_cons_unsignedText x
  have hspace : isSpace c = false := by
    simp [isSpace, ne_of_holds hc (show Char.isDigit ' ' = false from rfl),
      ne_of_holds hc (show Char.isDigit '\t' = false from rfl),
      ne_of_holds hc (show Char.isDigit '\n' = false from rfl),
      ne_of_holds hc (show Char.isDigit '\r' = false from rfl)]
  rw [htext] at htake hdrop hstep ⊢
  refine advances_token hspace ?_ hstep
  simp only [List.cons_append] at htake hdrop
  rw [token?, not_beginsIdentifier_of_isDigit hc, hc, htake, hdrop]
  rfl

/-! ## Settled states -/

/-- No operator waits inside the innermost open bracket. -/
inductive Fenced : List Frame → Prop where
  | nothing : Fenced []
  | group (frames : List Frame) : Fenced (.group :: frames)
  | argument (function : Expr) (frames : List Frame) : Fenced (.argument function :: frames)
  | index (object : Expr) (frames : List Frame) : Fenced (.index object :: frames)

/-- Inside a bracket an operator takes the whole expression before it. -/
theorem Fenced.step_operator {frames : List Frame} (h : Fenced frames) (expr : Expr)
    (op : Operator) :
    step (.complete expr frames) (.operator op) = some (.awaiting (.left op expr :: frames)) := by
  cases h <;> rfl

/-- A state in which the waiting operators settle to an expression. -/
def Settles (state : State) (expr : Expr) (frames : List Frame) : Prop :=
  ∃ last waiting, state = .complete last waiting ∧ settle 0 last waiting = settle 0 expr frames

theorem settles_complete (expr : Expr) (frames : List Frame) :
    Settles (.complete expr frames) expr frames := ⟨expr, frames, rfl, rfl⟩

/-- The right side of an operator settles to the operation. -/
theorem Settles.binary {state : State} {op : Operator} {left right : Expr} {frames : List Frame}
    (h : Settles state right (.left op left :: frames)) :
    Settles state (.binary op left right) frames := by
  obtain ⟨last, waiting, rfl, hsettle⟩ := h
  refine ⟨last, waiting, rfl, hsettle.trans ?_⟩
  rw [settle, if_pos (Nat.zero_le op.rank)]

theorem Settles.closeGroup {state : State} {expr : Expr} {frames : List Frame}
    (h : Settles state expr (.group :: frames)) :
    step state .closeRound = some (.complete expr frames) := by
  obtain ⟨last, waiting, rfl, hsettle⟩ := h
  rw [step, hsettle]
  rfl

theorem Settles.closeArgument {state : State} {function argument : Expr} {frames : List Frame}
    (h : Settles state argument (.argument function :: frames)) :
    step state .closeRound = some (.complete (.call function argument) frames) := by
  obtain ⟨last, waiting, rfl, hsettle⟩ := h
  rw [step, hsettle]
  rfl

theorem Settles.finish {state : State} {expr : Expr} (h : Settles state expr []) :
    finish? state = some expr := by
  obtain ⟨last, waiting, rfl, hsettle⟩ := h
  rw [finish?, hsettle]
  rfl

/-! ## Marks -/

theorem advances_openRound {state next : State} (hstep : step state .openRound = some next)
    (rest : List Char) : Advances ['('] state next rest :=
  advances_mark (fun _ => rfl) rfl hstep rest

theorem advances_closeRound {state next : State} (hstep : step state .closeRound = some next)
    (rest : List Char) : Advances [')'] state next rest :=
  advances_mark (fun _ => rfl) rfl hstep rest

/-- A point waits for the name of a member. -/
theorem advances_point (object : Expr) (frames : List Frame) (rest : List Char) :
    Advances ['.'] (.complete object frames) (.pointed object frames) rest :=
  advances_mark (fun _ => rfl) rfl rfl rest

/-- An operator between spaces. -/
theorem advances_operator {c : Char} {passed : List Char} {op : Operator}
    (htoken : ∀ rest, token? (c :: (passed ++ rest)) = some (.operator op, rest))
    (hspace : isSpace c = false) {state next : State}
    (hstep : step state (.operator op) = some next) (rest : List Char) :
    Advances ([' '] ++ (c :: passed ++ [' '])) state next rest :=
  (advances_space state _).append
    ((advances_mark htoken hspace hstep _).append (advances_space next rest))

/-! ## Operands -/

theorem advances_memberAccess (field : String) {frames : List Frame} {rest : List Char}
    (hrest : Apart isIdentifierChar rest) :
    Advances (memberAccess "values" field).toList (.awaiting frames)
      (.complete (.valueOf field) frames) rest := by
  have hvalues : ∀ {after : List Char}, Apart isIdentifierChar after →
      Advances "values".toList (.awaiting frames) (.complete (.name "values") frames) after :=
    fun hafter => advances_name (by decide) hafter rfl
  have hpoint : ".".toList = ['.'] := String.toList_ofList
  have hopen : "[".toList = ['['] := String.toList_ofList
  have hclose : "]".toList = [']'] := String.toList_ofList
  unfold memberAccess
  split
  · next h =>
    simp only [String.toList_append, hpoint]
    exact ((hvalues (apart_cons rfl _)).append (advances_point (.name "values") frames _)).append
      (advances_name h hrest rfl)
  · simp only [String.toList_append, hopen, hclose]
    exact (((hvalues (apart_cons rfl _)).append (advances_mark (fun _ => rfl) rfl rfl _)).append
      (advances_literal field rfl)).append (advances_mark (fun _ => rfl) rfl rfl _)

/-- The numbers among the operands are finite. -/
def FiniteOperand (operand : Operand) : Prop := ∀ x, operand = .number x → x.isFinite = true

/-- An operand is read where a minus sign may stand. -/
theorem advances_operand {operand : Operand} (hfinite : FiniteOperand operand)
    {frames : List Frame}
    (hminus : step (.awaiting frames) .minus = some (.awaiting (.negation :: frames)))
    {rest : List Char} (hrest : Closes rest) :
    ∃ next, Advances operand.sourceText.toList (.awaiting frames) next rest ∧
      Settles next (.ofOperand operand) frames := by
  cases operand with
  | text value => exact ⟨_, advances_literal value rfl, settles_complete _ frames⟩
  | number x =>
      have hnumeral : ∀ {waiting : List Frame}, Advances (unsignedText x) (.awaiting waiting)
          (.complete (.numeral (unsignedText x)) waiting) rest :=
        advances_numeral x (hrest.apart rfl) rfl
      have htext : (Operand.number x).sourceText.toList =
          (if x.isNegative then ['-'] else []) ++ unsignedText x :=
        toList_sourceText_of_isFinite (hfinite x rfl)
      rw [htext, Expr.ofOperand]
      cases x.isNegative with
      | false => exact ⟨_, hnumeral, settles_complete _ frames⟩
      | true =>
          exact ⟨_, (advances_mark (fun _ => rfl) rfl hminus _).append hnumeral, _, _, rfl, rfl⟩
  | coerced value =>
      have hcall : "Number(".toList = "Number".toList ++ ['('] := by
        rw [show "Number".toList = ['N', 'u', 'm', 'b', 'e', 'r'] from String.toList_ofList]
        exact String.toList_ofList
      have hclose : ")".toList = [')'] := String.toList_ofList
      have hname : isIdentifier "Number" = true := by decide
      simp only [Operand.sourceText, String.toList_append, hcall, hclose]
      refine ⟨_, ((((advances_name hname (apart_cons rfl _) rfl).append
        (advances_openRound rfl _)).append (advances_literal value rfl)).append
          (advances_closeRound rfl _)), settles_complete _ frames⟩

/-! ## Trees -/

/-- A comparison of a field with an operand. -/
theorem advances_comparison {c : Char} {passed : List Char} {op : Operator}
    (htoken : ∀ rest, token? (c :: (passed ++ rest)) = some (.operator op, rest))
    (hspace : isSpace c = false) (field : String) {operand : Operand}
    (hfinite : FiniteOperand operand) {frames : List Frame} (hfenced : Fenced frames)
    {rest : List Char} (hrest : Closes rest) :
    ∃ next, Advances ((memberAccess "values" field).toList ++ ([' '] ++ (c :: passed ++ [' '])) ++
        operand.sourceText.toList) (.awaiting frames) next rest ∧
      Settles next (.binary op (.valueOf field) (.ofOperand operand)) frames := by
  have hright : ∃ next, Advances operand.sourceText.toList
      (.awaiting (.left op (.valueOf field) :: frames)) next rest ∧
        Settles next (.ofOperand operand) (.left op (.valueOf field) :: frames) :=
    advances_operand hfinite rfl hrest
  obtain ⟨next, hoperand, hsettles⟩ := hright
  refine ⟨next, Advances.append (Advances.append (advances_memberAccess field ?_)
    (advances_operator htoken hspace (hfenced.step_operator _ op) _)) hoperand, hsettles.binary⟩
  exact apart_cons rfl _

theorem advances_shownText (field : String) {frames : List Frame} (rest : List Char) :
    Advances ("String".toList ++ ['('] ++ (memberAccess "values" field).toList ++
        ([' '] ++ ('?' :: ['?'] ++ [' '])) ++ (literal "").toList ++ [')'])
      (.awaiting frames) (.complete (.shownText field) frames) rest := by
  have hstring : isIdentifier "String" = true := by decide
  have hfenced : Fenced (.argument (.name "String") :: frames) := .argument _ frames
  have hdefault := hfenced.step_operator (.valueOf field) .coalesce
  have hclosing := (settles_complete (.text (unitsOf "")) (.left .coalesce (.valueOf field) ::
    .argument (.name "String") :: frames)).binary.closeArgument
  refine Advances.append (Advances.append (Advances.append (Advances.append (Advances.append
    (advances_name hstring ?_ rfl) (advances_openRound rfl _)) (advances_memberAccess field ?_))
      (advances_operator (fun _ => rfl) rfl hdefault _)) (advances_literal "" rfl))
        (advances_closeRound hclosing rest)
  · exact apart_cons rfl _
  · exact apart_cons rfl _

/-- A search for an operand in the text of a field. -/
theorem advances_contains (field : String) {operand : Operand} (hfinite : FiniteOperand operand)
    {frames : List Frame} {rest : List Char} :
    Advances ("String(" ++ memberAccess "values" field ++ " ?? \"\").includes(" ++
        operand.sourceText ++ ")").toList (.awaiting frames)
      (.complete (.call (.member (.shownText field) (.text (unitsOf "includes")))
        (.ofOperand operand)) frames) rest := by
  have hcall : "String(".toList = "String".toList ++ ['('] := by
    rw [show "String".toList = ['S', 't', 'r', 'i', 'n', 'g'] from String.toList_ofList]
    exact String.toList_ofList
  have hmiddle : " ?? \"\").includes(".toList = [' '] ++ ('?' :: ['?'] ++ [' ']) ++
      (literal "").toList ++ [')'] ++ ['.'] ++ "includes".toList ++ ['('] := by
    rw [toList_literal_eq_body, show "includes".toList = ['i', 'n', 'c', 'l', 'u', 'd', 'e', 's']
      from String.toList_ofList]
    exact String.toList_ofList
  have hclose : ")".toList = [')'] := String.toList_ofList
  have htext : ("String(" ++ memberAccess "values" field ++ " ?? \"\").includes(" ++
      operand.sourceText ++ ")").toList =
      "String".toList ++ ['('] ++ (memberAccess "values" field).toList ++
        ([' '] ++ ('?' :: ['?'] ++ [' '])) ++ (literal "").toList ++ [')'] ++
          (['.'] ++ ("includes".toList ++ (['('] ++ (operand.sourceText.toList ++ [')'])))) := by
    simp only [String.toList_append, hcall, hmiddle, hclose, List.append_assoc]
  have hincludes : isIdentifier "includes" = true := by decide
  obtain ⟨next, hoperand, hsettles⟩ : ∃ next, Advances operand.sourceText.toList
      (.awaiting (.argument (.member (.shownText field) (.text (unitsOf "includes"))) :: frames))
      next ([')'] ++ rest) ∧ Settles next (.ofOperand operand)
        (.argument (.member (.shownText field) (.text (unitsOf "includes"))) :: frames) :=
    advances_operand hfinite rfl (Or.inr ⟨rest, rfl⟩)
  rw [htext]
  refine (advances_shownText field _).append ?_
  refine (advances_point (.shownText field) frames _).append ?_
  refine Advances.append (advances_name hincludes (apart_cons rfl _) rfl) ?_
  refine (advances_openRound rfl _).append ?_
  exact hoperand.append (advances_closeRound hsettles.closeArgument rest)

theorem advances_predicate {p : Predicate} (hfinite : FiniteOperand p.operand)
    {frames : List Frame} (hfenced : Fenced frames) {rest : List Char} (hrest : Closes rest) :
    ∃ next, Advances p.sourceText.toList (.awaiting frames) next rest ∧
      Settles next (.ofPredicate p) frames := by
  unfold Predicate.sourceText Expr.ofPredicate
  cases p.operator with
  | equal =>
      have hmark : " === ".toList = [' '] ++ ('=' :: ['=', '='] ++ [' ']) := String.toList_ofList
      simp only [String.toList_append, hmark]
      exact advances_comparison (fun _ => rfl) rfl p.field hfinite hfenced hrest
  | notEqual =>
      have hmark : " !== ".toList = [' '] ++ ('!' :: ['=', '='] ++ [' ']) := String.toList_ofList
      simp only [String.toList_append, hmark]
      exact advances_comparison (fun _ => rfl) rfl p.field hfinite hfenced hrest
  | greater =>
      have hmark : " > ".toList = [' '] ++ ('>' :: [] ++ [' ']) := String.toList_ofList
      simp only [String.toList_append, hmark]
      exact advances_comparison (fun _ => rfl) rfl p.field hfinite hfenced hrest
  | less =>
      have hmark : " < ".toList = [' '] ++ ('<' :: [] ++ [' ']) := String.toList_ofList
      simp only [String.toList_append, hmark]
      exact advances_comparison (fun _ => rfl) rfl p.field hfinite hfenced hrest
  | contains => exact ⟨_, advances_contains p.field hfinite, settles_complete _ frames⟩

/-- The operator of a combination, between spaces. -/
theorem advances_logic (logic : LogicOp) {expr : Expr} {frames : List Frame}
    (hfenced : Fenced frames) (rest : List Char) :
    Advances ([' '] ++ (logic.sourceText.toList ++ [' '])) (.complete expr frames)
      (.awaiting (.left (Expr.ofLogic logic) expr :: frames)) rest := by
  have hstep := hfenced.step_operator expr (Expr.ofLogic logic)
  cases logic with
  | and =>
      have hmark : LogicOp.and.sourceText.toList = ['&', '&'] := String.toList_ofList
      rw [hmark]
      exact advances_operator (fun _ => rfl) rfl hstep rest
  | or =>
      have hmark : LogicOp.or.sourceText.toList = ['|', '|'] := String.toList_ofList
      rw [hmark]
      exact advances_operator (fun _ => rfl) rfl hstep rest

theorem step_openRound (frames : List Frame) :
    step (.awaiting frames) .openRound = some (.awaiting (.group :: frames)) := by
  cases frames with
  | nil => rfl
  | cons frame frames => cases frame <;> rfl

/-- An expression in parentheses is read wherever one is expected. -/
theorem advances_group {text rest : List Char} {expr : Expr} {frames : List Frame}
    (hinside : ∃ next, Advances text (.awaiting (.group :: frames)) next ([')'] ++ rest) ∧
      Settles next expr (.group :: frames)) :
    Advances (['('] ++ text ++ [')']) (.awaiting frames) (.complete expr frames) rest := by
  obtain ⟨next, htext, hsettles⟩ := hinside
  refine Advances.append (Advances.append (advances_openRound (step_openRound frames) _) htext) ?_
  exact advances_closeRound hsettles.closeGroup rest

/-- The induction is on the tree; each side is read behind an open parenthesis, where no operator
waits. -/
theorem advances_expression {expr : BoolExpr}
    (hfinite : ∀ p ∈ expr.predicates, FiniteOperand p.operand) {frames : List Frame}
    (hfenced : Fenced frames) {rest : List Char} (hrest : Closes rest) :
    ∃ next, Advances expr.sourceText.toList (.awaiting frames) next rest ∧
      Settles next (.ofBoolExpr expr) frames := by
  induction expr generalizing frames rest with
  | predicate p =>
      have hoperand : FiniteOperand p.operand := hfinite p (by simp [BoolExpr.predicates])
      exact advances_predicate hoperand hfenced hrest
  | combine left logic right hleft hright =>
      have hopen : "(".toList = ['('] := String.toList_ofList
      have hclose : ")".toList = [')'] := String.toList_ofList
      have hafter : ") ".toList = [')'] ++ [' '] := String.toList_ofList
      have hbefore : " (".toList = [' '] ++ ['('] := String.toList_ofList
      have htext : (BoolExpr.combine left logic right).sourceText.toList =
          (['('] ++ left.sourceText.toList ++ [')']) ++
            ([' '] ++ (logic.sourceText.toList ++ [' '])) ++
              (['('] ++ right.sourceText.toList ++ [')']) := by
        simp only [BoolExpr.sourceText, String.toList_append, hopen, hclose, hafter, hbefore,
          List.append_assoc]
      have hfinites : (∀ p ∈ left.predicates, FiniteOperand p.operand) ∧
          ∀ p ∈ right.predicates, FiniteOperand p.operand := by
        constructor
        · exact fun p hp => hfinite p (List.mem_append_left _ hp)
        · exact fun p hp => hfinite p (List.mem_append_right _ hp)
      rw [htext]
      refine ⟨_, ((advances_group ?_).append (advances_logic logic hfenced _)).append
        (advances_group ?_), (settles_complete _ _).binary⟩
      · exact hleft hfinites.1 (.group frames) (Or.inr ⟨_, rfl⟩)
      · exact hright hfinites.2 (.group _) (Or.inr ⟨rest, rfl⟩)

/-- The text of an expression is read as the expression. -/
theorem parse?_sourceText {expr : BoolExpr}
    (hfinite : ∀ p ∈ expr.predicates, FiniteOperand p.operand) :
    parse? expr.sourceText = some (.ofBoolExpr expr) := by
  obtain ⟨next, hadvances, hsettles⟩ := advances_expression hfinite .nothing (Or.inl rfl)
  unfold Advances readFrom at hadvances
  rw [List.append_nil] at hadvances
  rw [parse?, hadvances]
  exact hsettles.finish

end FormCompiler.Script
