import FormCompiler.Proofs.Source.Composition
import FormCompiler.Proofs.Source.Rendering
import FormCompiler.Proofs.Source.Written
import FormCompiler.Source.Balance

/-!
# Generated source is balanced

The principal result is that the walk over the source of any form finds no imbalance.  A walk is
first stripped of its places: what is left is a state with a mode and the closers that are
awaited.  A piece of source moves such a state from one list of closers to another, so pieces
compose like paths; a piece that closes all that it opens can stand anywhere in code.
-/

namespace FormCompiler.Source.Balance

/-! ## Walks without places -/

/-- The mode of a walk: between literals, in one, or after a backslash in one. -/
inductive Mode where
  | code
  | literal (quote : Char)
  | escaped (quote : Char)
  deriving DecidableEq

/-- A mode and the closers that are awaited, the innermost one first. -/
structure State where
  mode : Mode
  awaited : List Char
  deriving DecidableEq

def codeStep (awaited : List Char) (c : Char) : Option State :=
  if isQuote c then some ⟨.literal c, awaited⟩
  else
    match closerOf? c with
    | some closer => some ⟨.code, closer :: awaited⟩
    | none =>
        if isCloser c then
          match awaited with
          | [] => none
          | closer :: outer => if closer = c then some ⟨.code, outer⟩ else none
        else some ⟨.code, awaited⟩

def literalStep (quote : Char) (awaited : List Char) (c : Char) : Option State :=
  if c = '\\' then some ⟨.escaped quote, awaited⟩
  else if c = quote then some ⟨.code, awaited⟩
  else if c = '\n' && quote ≠ '\x60' then none
  else some ⟨.literal quote, awaited⟩

/-- One character of a walk; nothing when it shows an imbalance. -/
def step (state : State) (c : Char) : Option State :=
  match state.mode with
  | .code => codeStep state.awaited c
  | .literal quote => literalStep quote state.awaited c
  | .escaped quote => some ⟨.literal quote, state.awaited⟩

def run (state : State) : List Char → Option State
  | [] => some state
  | c :: rest => (step state c).bind fun next => run next rest

theorem run_append (first second : List Char) (state : State) :
    run state (first ++ second) = (run state first).bind fun next => run next second := by
  induction first generalizing state with
  | nil => rfl
  | cons c first ih =>
      simp only [List.cons_append, run]
      cases step state c with
      | none => rfl
      | some next => exact ih next

/-- The mode of a walk with places. -/
def modeOf : WalkMode → Mode
  | .code => .code
  | .literal quote _ => .literal quote
  | .escaped quote _ => .escaped quote

/-- A walk finds no imbalance exactly when, without its places, it ends in code with nothing
awaited. -/
theorem walk_eq_none_iff (place : Position) (mode : WalkMode) (stack : List Opener)
    (text : List Char) :
    walk place mode stack text = none ↔
      run ⟨modeOf mode, stack.map (·.closer)⟩ text = some ⟨.code, []⟩ := by
  induction text generalizing place mode stack with
  | nil => cases mode <;> cases stack <;> simp [walk, atEnd, run, modeOf]
  | cons c rest ih =>
      cases mode with
      | escaped quote start => simpa [walk, run, step, modeOf] using ih _ (.literal quote start) _
      | literal quote start =>
          simp only [walk, run, step, modeOf, literalStep]
          split
          · simpa [modeOf] using ih _ (.escaped quote start) stack
          · split
            · simpa [modeOf] using ih _ .code stack
            · split
              · simp
              · simpa [modeOf] using ih _ (.literal quote start) stack
      | code =>
          simp only [walk, run, step, modeOf, codeStep]
          split
          · simpa [modeOf] using ih _ (.literal c _) stack
          · cases hopens : closerOf? c with
            | some closer => simpa [modeOf] using ih _ .code (⟨c, closer, _⟩ :: stack)
            | none =>
                simp only
                split
                · cases stack with
                  | nil => simp
                  | cons opener outer =>
                      simp only [List.map_cons]
                      split
                      · simpa [modeOf] using ih _ .code outer
                      · simp
                · simpa [modeOf] using ih _ .code stack

/-! ## Pieces of source -/

/-- A piece of source moves the awaited closers from one list to another. -/
def Moves (before after text : List Char) : Prop :=
  run ⟨.code, before⟩ text = some ⟨.code, after⟩

/-- A piece of source that leaves the awaited closers as they are. -/
def Neutral (text : List Char) : Prop := ∀ awaited, Moves awaited awaited text

theorem Moves.append {before between after first second : List Char}
    (hfirst : Moves before between first) (hsecond : Moves between after second) :
    Moves before after (first ++ second) := by
  unfold Moves at *
  rw [run_append, hfirst]
  exact hsecond

theorem Neutral.append {first second : List Char} (hfirst : Neutral first)
    (hsecond : Neutral second) : Neutral (first ++ second) :=
  fun awaited => (hfirst awaited).append (hsecond awaited)

def delimiters : List Char := ['"', '\'', '\x60', '(', ')', '[', ']', '\x7b', '\x7d']

theorem codeStep_of_not_mem {c : Char} (h : c ∉ delimiters) (awaited : List Char) :
    codeStep awaited c = some ⟨.code, awaited⟩ := by
  simp only [delimiters, List.mem_cons, List.not_mem_nil, or_false, not_or] at h
  obtain ⟨hdouble, hsingle, hback, hround, hround', hsquare, hsquare', hcurly, hcurly'⟩ := h
  have hopens : closerOf? c = none := by
    unfold closerOf?
    split
    · exact absurd rfl hround
    · exact absurd rfl hsquare
    · exact absurd rfl hcurly
    · rfl
  unfold codeStep
  rw [hopens]
  simp [isQuote, isCloser, *]

/-- A text without delimiters is neutral. -/
theorem neutral_of_not_mem {text : List Char} (h : ∀ c ∈ text, c ∉ delimiters) : Neutral text := by
  intro awaited
  unfold Moves
  induction text with
  | nil => rfl
  | cons c rest ih =>
      simp only [run, step]
      rw [codeStep_of_not_mem (h c (by simp))]
      exact ih fun d hmem => h d (List.mem_cons_of_mem _ hmem)

/-- A text of characters of a class without delimiters is neutral. -/
theorem neutral_of_holds {holds : Char → Bool} {text : List Char}
    (hclass : (delimiters.any holds) = false) (h : ∀ c ∈ text, holds c = true) :
    Neutral text := by
  refine neutral_of_not_mem fun c hmem hdelimiter => ?_
  exact List.any_eq_false.mp hclass c hdelimiter (h c hmem)

/-! ## Written texts -/

/-- In a literal, characters that neither end nor mark anything are passed over. -/
theorem run_literal_of_holds {holds : Char → Bool} {text : List Char}
    (h : ∀ c ∈ text, holds c = true) (hback : holds '\\' = false) (hquote : holds '"' = false)
    (hfeed : holds '\n' = false) (awaited : List Char) :
    run ⟨.literal '"', awaited⟩ text = some ⟨.literal '"', awaited⟩ := by
  induction text with
  | nil => rfl
  | cons c rest ih =>
      have hc := h c (by simp)
      have hstep : step ⟨.literal '"', awaited⟩ c = some ⟨.literal '"', awaited⟩ := by
        simp [step, literalStep, ne_of_holds hc hback, ne_of_holds hc hquote,
          ne_of_holds hc hfeed]
      simp only [run]
      rw [hstep]
      exact ih fun d hmem => h d (List.mem_cons_of_mem _ hmem)

/-- A character is written so that the literal goes on. -/
theorem run_literalChar (awaited : List Char) (c : Char) :
    run ⟨.literal '"', awaited⟩ (literalChar c) = some ⟨.literal '"', awaited⟩ := by
  have hwritten := writtenAs_literalChar c
  generalize literalChar c = written at hwritten ⊢
  cases hwritten with
  | bare h =>
      have hbare : ∀ d ∈ [c], standsBare d = true := fun d hmem => by
        rwa [List.mem_singleton.mp hmem]
      exact run_literal_of_holds hbare rfl rfl rfl awaited
  | marked h => rfl
  | coded h =>
      change run ⟨.literal '"', awaited⟩ (fourDigits c.toNat) = _
      exact run_literal_of_holds (fun _ => isAlphanum_of_mem_fourDigits h) rfl rfl rfl awaited

/-- A text between double quotes is neutral when the quoted text keeps a literal going. -/
theorem neutral_quoted {text : List Char}
    (h : ∀ awaited, run ⟨.literal '"', awaited⟩ text = some ⟨.literal '"', awaited⟩) :
    Neutral ('"' :: (text ++ ['"'])) := by
  intro awaited
  change run ⟨.literal '"', awaited⟩ (text ++ ['"']) = _
  rw [run_append, h]
  rfl

theorem neutral_literal (text : String) : Neutral (literal text).toList := by
  rw [toList_literal_eq_body]
  refine neutral_quoted fun awaited => ?_
  unfold literalBody
  induction text.toList with
  | nil => rfl
  | cons c rest ih =>
      rw [List.flatMap_cons, run_append, run_literalChar]
      exact ih

theorem neutral_identifier {name : String} (h : isIdentifier name = true) :
    Neutral name.toList :=
  neutral_of_holds rfl fun _ => isIdentifierChar_of_mem h

theorem neutral_number (x : Binary64) : Neutral x.sourceText.toList :=
  neutral_of_holds rfl fun _ => isNumberChar_of_mem_sourceText x

/-- A fixed text moves the awaited closers as its run says. -/
theorem moves_ofList {before after chars : List Char}
    (h : run ⟨.code, before⟩ chars = some ⟨.code, after⟩) :
    Moves before after (String.ofList chars).toList := by
  rwa [String.toList_ofList]

theorem neutral_braced (text : String) : Neutral (braced text).toList := by
  intro awaited
  simp only [braced, String.toList_append]
  exact ((moves_ofList rfl).append (neutral_literal text _)).append (moves_ofList rfl)

theorem neutral_objectKey (name : String) : Neutral (objectKey name).toList := by
  unfold objectKey
  split
  · next h => exact neutral_identifier h
  · exact neutral_literal name

theorem neutral_memberAccess {object : String} (hobject : Neutral object.toList) (name : String) :
    Neutral (memberAccess object name).toList := by
  intro awaited
  unfold memberAccess
  split
  · next h =>
    simp only [String.toList_append]
    exact ((hobject awaited).append (moves_ofList rfl)).append (neutral_identifier h awaited)
  · simp only [String.toList_append]
    exact (((hobject awaited).append (moves_ofList rfl)).append (neutral_literal name _)).append
      (moves_ofList rfl)

theorem neutral_attributeText {name : String} (hname : Neutral name.toList) (text : String) :
    Neutral (attributeText name text).toList := by
  intro awaited
  unfold attributeText
  split
  · next h =>
    have hquoted : Neutral ('"' :: (text.toList ++ ['"'])) :=
      neutral_quoted (run_literal_of_holds (fun _ => isPlainInAttribute_of_mem h) rfl rfl rfl)
    have hsign : Moves awaited awaited ['='] := rfl
    simpa using ((hname awaited).append hsign).append (hquoted awaited)
  · simp only [String.toList_append]
    exact ((hname awaited).append (moves_ofList rfl)).append (neutral_braced text awaited)

theorem neutral_childText (text : String) : Neutral (childText text).toList := by
  unfold childText
  split
  · next h => exact neutral_of_holds rfl fun _ => isPlainBetweenTags_of_mem h
  · exact neutral_braced text

/-! ## Chains and expressions -/

theorem neutral_clause (clause : RuleClause) : Neutral clause.sourceText.toList := by
  intro awaited
  unfold RuleClause.sourceText
  cases clause with
  | required message =>
      simp only [String.toList_append]
      exact ((moves_ofList rfl).append (neutral_literal message _)).append (moves_ofList rfl)
  | min limit message =>
      simp only [String.toList_append]
      exact ((((moves_ofList rfl).append (neutral_number limit _)).append
        (moves_ofList rfl)).append (neutral_literal message _)).append (moves_ofList rfl)
  | max limit message =>
      simp only [String.toList_append]
      exact ((((moves_ofList rfl).append (neutral_number limit _)).append
        (moves_ofList rfl)).append (neutral_literal message _)).append (moves_ofList rfl)
  | pattern source message =>
      simp only [String.toList_append]
      exact ((((moves_ofList rfl).append (neutral_literal source _)).append
        (moves_ofList rfl)).append (neutral_literal message _)).append (moves_ofList rfl)
  | crossField other message =>
      have hparent : Neutral "this.parent".toList := fun _ => moves_ofList rfl
      simp only [String.toList_append]
      exact ((((moves_ofList rfl).append (neutral_literal message _)).append
        (moves_ofList rfl)).append (neutral_memberAccess hparent other _)).append
          (moves_ofList rfl)

theorem neutral_clauses (clauses : List RuleClause) :
    Neutral (RuleClause.listText clauses).toList := by
  induction clauses with
  | nil => exact fun _ => rfl
  | cons clause rest ih =>
      simp only [RuleClause.listText, String.toList_append]
      exact (neutral_clause clause).append ih

theorem neutral_chain (chain : ValidationChain) : Neutral chain.sourceText.toList := by
  have hbase : Neutral chain.base.sourceText.toList := by
    cases chain.base <;> exact fun _ => moves_ofList rfl
  simp only [ValidationChain.sourceText, String.toList_append]
  exact hbase.append (neutral_clauses chain.clauses)

theorem neutral_operand (operand : Operand) : Neutral operand.sourceText.toList := by
  cases operand with
  | text value => exact neutral_literal value
  | number x => exact neutral_number x
  | coerced value =>
      intro awaited
      simp only [Operand.sourceText, String.toList_append]
      exact ((moves_ofList rfl).append (neutral_literal value _)).append (moves_ofList rfl)

theorem neutral_predicate (p : Predicate) : Neutral p.sourceText.toList := by
  have hvalues : Neutral "values".toList := fun _ => moves_ofList rfl
  have hmember := neutral_memberAccess hvalues p.field
  have hoperand := neutral_operand p.operand
  intro awaited
  unfold Predicate.sourceText
  cases p.operator with
  | contains =>
      simp only [String.toList_append]
      exact ((((moves_ofList rfl).append (hmember _)).append (moves_ofList rfl)).append
        (hoperand _)).append (moves_ofList rfl)
  | equal | notEqual | greater | less =>
      simp only [String.toList_append]
      exact ((hmember _).append (moves_ofList rfl)).append (hoperand _)

/-- Both sides of a combination stand in parentheses, at every depth. -/
theorem neutral_expression (expr : BoolExpr) : Neutral expr.sourceText.toList := by
  induction expr with
  | predicate p => exact neutral_predicate p
  | combine left logic right hleft hright =>
      have hlogic : Neutral logic.sourceText.toList := by
        cases logic <;> exact fun _ => moves_ofList rfl
      intro awaited
      simp only [BoolExpr.sourceText, String.toList_append]
      exact ((((((moves_ofList rfl).append (hleft _)).append (moves_ofList rfl)).append
        (hlogic _)).append (moves_ofList rfl)).append (hright _)).append (moves_ofList rfl)

/-! ## Lines -/

theorem neutral_setsValue (name : String) {parameters value : String}
    (hparameters : Neutral parameters.toList) (hvalue : Neutral value.toList) :
    Neutral (setsValue name parameters value).toList := by
  intro awaited
  unfold setsValue
  simp only [String.toList_append]
  exact ((((((moves_ofList rfl).append (hparameters _)).append (moves_ofList rfl)).append
    (neutral_literal name _)).append (moves_ofList rfl)).append (hvalue _)).append
      (moves_ofList rfl)

theorem neutral_fullWidth : Neutral fullWidth.toList := fun _ => moves_ofList rfl

theorem neutral_propertyValue {value : String} (h : PropertyValue value) :
    Neutral value.toList := by
  cases h with
  | chain chain => exact neutral_chain chain
  | initial type =>
      cases type with
      | checkbox => exact fun _ => moves_ofList rfl
      | input | number | select | textarea | date => exact neutral_literal ""

theorem neutral_property (key : String) {value : String} (h : PropertyValue value) :
    Neutral (propertyText key value).toList := by
  intro awaited
  unfold propertyText
  simp only [String.toList_append]
  exact ((neutral_objectKey key _).append (moves_ofList rfl)).append (neutral_propertyValue h _)

theorem neutral_fixed : ∀ text ∈ fixedLines, Neutral text.toList := by
  unfold fixedLines imports
  simp only [List.cons_append, List.nil_append, List.forall_mem_cons]
  exact ⟨fun _ => moves_ofList rfl, fun _ => moves_ofList rfl, fun _ => moves_ofList rfl,
    fun _ => moves_ofList rfl, fun _ => moves_ofList rfl, fun _ => moves_ofList rfl,
    fun _ => moves_ofList rfl, fun _ => moves_ofList rfl, fun _ => moves_ofList rfl, by simp⟩

theorem neutral_plainLine {text : String} (h : PlainLine text) : Neutral text.toList := by
  have hkey : Neutral "key".toList := fun _ => moves_ofList rfl
  have hvalue : Neutral "value".toList := fun _ => moves_ofList rfl
  have hv : Neutral "v".toList := fun _ => moves_ofList rfl
  have hdate : Neutral "date, dateString".toList := fun _ => moves_ofList rfl
  have htext : Neutral "dateString".toList := fun _ => moves_ofList rfl
  cases h with
  | fixed h => exact neutral_fixed text h
  | lastProperty key h => exact neutral_property key h
  | property key h =>
      intro awaited
      rw [String.toList_append]
      exact (neutral_property key h awaited).append (moves_ofList rfl)
  | option option =>
      intro awaited
      unfold optionText
      simp only [String.toList_append]
      exact ((((((moves_ofList rfl).append (neutral_attributeText hkey option _)).append
        (moves_ofList rfl)).append (neutral_attributeText hvalue option _)).append
          (moves_ofList rfl)).append (neutral_childText option _)).append (moves_ofList rfl)
  | number name =>
      intro awaited
      unfold numberText
      simp only [String.toList_append]
      exact ((((moves_ofList rfl).append (neutral_setsValue name hv hv _)).append
        (moves_ofList rfl)).append (neutral_fullWidth _)).append (moves_ofList rfl)
  | date name =>
      intro awaited
      unfold dateText
      simp only [String.toList_append]
      exact ((((moves_ofList rfl).append (neutral_setsValue name hdate htext _)).append
        (moves_ofList rfl)).append (neutral_fullWidth _)).append (moves_ofList rfl)
  | label text =>
      intro awaited
      unfold labelText
      simp only [String.toList_append]
      exact ((moves_ofList rfl).append (neutral_childText text _)).append (moves_ofList rfl)
  | button text =>
      intro awaited
      unfold submitText
      simp only [String.toList_append]
      exact ((moves_ofList rfl).append (neutral_childText text _)).append (moves_ofList rfl)

theorem neutral_bindingLine {name text : String} (h : BindingLine name text) :
    Neutral text.toList := by
  have hname : Neutral "name".toList := fun _ => moves_ofList rfl
  have hnamed := neutral_attributeText hname name
  intro awaited
  cases h with
  | @plain element h =>
      have helement : Neutral element.toList := by
        revert element
        simp only [plainElements, List.forall_mem_cons]
        exact ⟨fun _ => moves_ofList rfl, fun _ => moves_ofList rfl, by simp⟩
      unfold inlineText
      simp only [String.toList_append]
      exact ((((moves_ofList rfl).append (hnamed _)).append (moves_ofList rfl)).append
        (helement _)).append (moves_ofList rfl)
  | checkbox =>
      unfold inlineText
      simp only [String.toList_append]
      exact ((((moves_ofList rfl).append ((moves_ofList rfl).append (hnamed _))).append
        (moves_ofList rfl)).append (moves_ofList rfl)).append (moves_ofList rfl)

/-- The second line of a frame closes what the first one opens, in the opposite order. -/
theorem exists_moves_of_frame {first last : String} (h : Frame first last) :
    ∃ closers, ∀ awaited, Moves awaited (closers ++ awaited) first.toList ∧
      Moves (closers ++ awaited) awaited last.toList := by
  cases h with
  | schema => exact ⟨['\x7d', ')'], fun _ => ⟨moves_ofList rfl, moves_ofList rfl⟩⟩
  | initial => exact ⟨['\x7d', '\x7d'], fun _ => ⟨moves_ofList rfl, moves_ofList rfl⟩⟩
  | form => exact ⟨[], fun _ => ⟨moves_ofList rfl, moves_ofList rfl⟩⟩
  | child => exact ⟨[')', '\x7d'], fun _ => ⟨moves_ofList rfl, moves_ofList rfl⟩⟩
  | body => exact ⟨[')'], fun _ => ⟨moves_ofList rfl, moves_ofList rfl⟩⟩
  | function hname =>
      refine ⟨['\x7d'], fun awaited => ⟨?_, moves_ofList rfl⟩⟩
      unfold functionText
      simp only [String.toList_append]
      exact ((moves_ofList rfl).append (neutral_identifier hname _)).append (moves_ofList rfl)
  | block name =>
      have hkey : Neutral "key".toList := fun _ => moves_ofList rfl
      refine ⟨[], fun awaited => ⟨?_, moves_ofList rfl⟩⟩
      unfold blockText
      simp only [String.toList_append]
      exact ((moves_ofList rfl).append (neutral_attributeText hkey name _)).append
        (moves_ofList rfl)
  | shown expr =>
      refine ⟨[')', '\x7d'], fun awaited => ⟨?_, moves_ofList rfl⟩⟩
      unfold whenText
      simp only [String.toList_append]
      exact ((moves_ofList rfl).append (neutral_expression expr _)).append (moves_ofList rfl)
  | select name =>
      have hv : Neutral "v".toList := fun _ => moves_ofList rfl
      refine ⟨[], fun awaited => ⟨?_, moves_ofList rfl⟩⟩
      unfold selectText
      simp only [String.toList_append]
      exact ((((moves_ofList rfl).append (neutral_setsValue name hv hv _)).append
        (moves_ofList rfl)).append (neutral_fullWidth _)).append (moves_ofList rfl)

/-! ## Layouts -/

/-- The lines of a layout move the awaited closers from one list to another. -/
def LinesMove (before after : List Char) (layout : Layout) : Prop :=
  layout.Rendered (Moves before after)

/-- Lines that leave the awaited closers as they are. -/
def LinesNeutral (layout : Layout) : Prop := ∀ awaited, LinesMove awaited awaited layout

theorem linesMove_line {before after : List Char} {text : String}
    (h : Moves before after text.toList) : LinesMove before after (Layout.line text) := by
  refine Layout.Rendered.line fun count => ?_
  have hspaces : Neutral (List.replicate count ' ') := by
    refine neutral_of_not_mem fun c hmem => ?_
    rw [List.eq_of_mem_replicate hmem]
    decide
  have hfeed : Neutral ['\n'] := fun _ => rfl
  exact (hspaces before).append (h.append (hfeed after))

theorem LinesMove.append {before between after : List Char} {first second : Layout}
    (hfirst : LinesMove before between first) (hsecond : LinesMove between after second) :
    LinesMove before after (first ++ second) :=
  Layout.Rendered.append Moves.append hfirst hsecond

theorem LinesMove.nested {before after : List Char} {layout : Layout}
    (h : LinesMove before after layout) : LinesMove before after layout.nested :=
  Layout.Rendered.nested h

/-- The tag that binds a field by its name opens what the end of the tag closes. -/
theorem linesNeutral_bindingFrame (name : String) {content : Layout}
    (hcontent : LinesNeutral content) :
    LinesNeutral (framedWidget (attributeText "name" name) content) := by
  intro awaited
  have hname : Neutral "name".toList := fun _ => moves_ofList rfl
  have hopen : LinesMove awaited (')' :: '\x7d' :: awaited)
      (.line (framedText (attributeText "name" name))) := by
    refine linesMove_line ?_
    unfold framedText
    simp only [String.toList_append]
    exact ((moves_ofList rfl).append (neutral_attributeText hname name _)).append
      (moves_ofList rfl)
  exact (hopen.append (hcontent _).nested).append (linesMove_line (moves_ofList rfl))

/-- What is composed as a component opens nothing that it does not close. -/
theorem linesNeutral_of_composed {names : List String} {outline : Outline} {layout : Layout}
    (h : Composed names outline layout) : LinesNeutral layout := by
  induction h with
  | nil => exact fun _ _ _ => rfl
  | blank => exact fun _ => linesMove_line (moves_ofList rfl)
  | line h => exact fun awaited => linesMove_line (neutral_plainLine h awaited)
  | binding h => exact fun awaited => linesMove_line (neutral_bindingLine h awaited)
  | append _ _ hfirst hsecond => exact fun awaited => (hfirst awaited).append (hsecond awaited)
  | nested _ ih => exact fun awaited => (ih awaited).nested
  | frame h _ ih =>
      obtain ⟨closers, hclosers⟩ := exists_moves_of_frame h
      intro awaited
      exact ((linesMove_line (hclosers awaited).1).append (ih _).nested).append
        (linesMove_line (hclosers awaited).2)
  | bindingFrame name _ ih => exact linesNeutral_bindingFrame name ih

/-- A source closes all that it opens. -/
theorem moves_source (form : CompiledForm) {config : EmitterConfig}
    (hname : isIdentifier config.componentName = true) :
    Moves [] [] (form.source config).toList := by
  rw [CompiledForm.source_eq]
  have hlines := linesNeutral_of_composed (Composed.component form.fields hname)
  exact (hlines []).render config.indentWidth

end FormCompiler.Source.Balance

namespace FormCompiler.Source

open Balance

/-- The source of every form is balanced, whatever texts and numbers the form holds and whatever
the label of its button says. -/
theorem imbalance?_source (form : FormSchema) {config : EmitterConfig}
    (h : config.problem? = none) : imbalance? (form.compile.source config) = none := by
  have hmoves := moves_source form.compile (isIdentifier_componentName h)
  exact (walk_eq_none_iff _ .code [] _).mpr hmoves

/-- A select field whose texts hold all kinds of quotes, delimiters, a backslash and a line feed. -/
def unbalancedTexts : FormSchema :=
  ⟨[{ id := "1"
      name := "a\"]"
      label := "it's \x7b(\x60"
      kind := .select ["</Select>", "\n)"]
      columns := .one
      validation := { ValidationRule.none with pattern := some "[\\(\"" }
      conditions := [⟨.and, "b'", .contains, "\\\")"⟩]
      group := none }]⟩

/-- Texts that are not balanced do not unbalance the source. -/
theorem imbalance?_source_unbalancedTexts :
    (EmitterConfig.mk "Page" 4 "](").problem? = none ∧
      imbalance? (unbalancedTexts.compile.source ⟨"Page", 4, "]("⟩) = none :=
  ⟨by decide, imbalance?_source unbalancedTexts (by decide)⟩

end FormCompiler.Source
