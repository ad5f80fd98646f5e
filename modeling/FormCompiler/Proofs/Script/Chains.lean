import FormCompiler.Compiled.Chain
import FormCompiler.Proofs.Source.Places
import FormCompiler.Source.Expression

/-!
# Validation chains are read back

A reader of chains: a base call on an object, and calls of methods behind it with their arguments,
up to the end of the text.  The principal result is that the text of a compiled rule is read as the
calls that the rule asks for, in the fixed order and with nothing else, whatever its message, its
pattern and the name of the other field look like.
-/

namespace FormCompiler.Script

open Source

/-! ## Chains of calls -/

inductive Argument where
  | text (units : List Nat)
  | number (word : List Char)
  /-- A regular expression, made from its text. -/
  | regExp (source : List Nat)
  /-- A function that compares its argument with a member of the object that it belongs to. -/
  | equalsMember (name : List Nat)
  deriving DecidableEq

structure Call where
  method : List Nat
  arguments : List Argument
  deriving DecidableEq

structure CallChain where
  object : List Nat
  base : Call
  calls : List Call
  deriving DecidableEq

/-! ## The reader -/

/-- The letters of identifiers; the marks that end a name in a chain are not among them. -/
structure ScriptLetters extends IdentifierClass where
  continues_mark : ∀ c ∈ ['.', '(', ';'], continues c = false

def ScriptLetters.ascii : ScriptLetters where
  toIdentifierClass := .ascii
  continues_mark := by
    have hmarks : ['.', '(', ';'].any isIdentifierChar = false := rfl
    exact fun c hmem => Bool.eq_false_iff.mpr (List.any_eq_false.mp hmarks c hmem)

/-- Reads one item after the other, as many as there are.  An item that takes no text is none. -/
def many {α : Type} (item? : List Char → Option (α × List Char)) (text : List Char) :
    List α × List Char :=
  match item? text with
  | none => ([], text)
  | some (item, rest) =>
      if _h : rest.length < text.length then
        (item :: (many item? rest).1, (many item? rest).2)
      else ([], text)
termination_by text.length

/-- Whether a word is the name of a number that is not finite, or digits with points. -/
def isMagnitude (word : List Char) : Bool :=
  word = ['N', 'a', 'N'] || word = ['I', 'n', 'f', 'i', 'n', 'i', 't', 'y'] ||
    (word.head?.any Char.isDigit && word.all fun c => c.isDigit || c = '.')

/-- Whether a word is a number, with or without a minus sign. -/
def isNumberWord (word : List Char) : Bool :=
  isMagnitude word || (word.head? = some '-' && isMagnitude word.tail)

/-- A number, as long as it can be. -/
def numberWord? (text : List Char) : Option (List Char × List Char) :=
  if isNumberWord (text.takeWhile isNumberChar) then
    some (text.takeWhile isNumberChar, text.dropWhile isNumberChar)
  else none

def regExp? (text : List Char) : Option (List Nat × List Char) :=
  (Text.after? "new RegExp(".toList text).bind (enclosed? ')')

variable (letters : ScriptLetters)

/-- A function that compares its argument with a member. -/
def equalsMember? (text : List Char) : Option (List Nat × List Char) := do
  let rest ← Text.after? "function (value) \x7b return value === ".toList text
  let (name, rest) ← member? letters.toIdentifierClass "this.parent" rest
  let rest ← Text.after? "; \x7d".toList rest
  some (name, rest)

def argument? (text : List Char) : Option (Argument × List Char) :=
  (quoted? text).map (Prod.map .text id) <|> (regExp? text).map (Prod.map .regExp id) <|>
    (equalsMember? letters text).map (Prod.map .equalsMember id) <|>
      (numberWord? text).map (Prod.map .number id)

def nextArgument? (text : List Char) : Option (Argument × List Char) :=
  (Text.after? [',', ' '] text).bind (argument? letters)

def arguments? (text : List Char) : Option (List Argument × List Char) :=
  match argument? letters text with
  | none => (Text.after? [')'] text).map fun rest => ([], rest)
  | some (first, rest) =>
      (Text.after? [')'] (many (nextArgument? letters) rest).2).map fun after =>
        (first :: (many (nextArgument? letters) rest).1, after)

def call? (text : List Char) : Option (Call × List Char) := do
  let rest ← Text.after? ['.'] text
  let (method, rest) ← identifier? letters.toIdentifierClass rest
  let rest ← Text.after? ['('] rest
  let (arguments, rest) ← arguments? letters rest
  some (⟨method, arguments⟩, rest)

/-- The chain that a text is, from its first character to the last one. -/
def readChain? (text : String) : Option CallChain := do
  let (object, rest) ← identifier? letters.toIdentifierClass text.toList
  let (base, rest) ← call? letters rest
  if (many (call? letters) rest).2 = [] then some ⟨object, base, (many (call? letters) rest).1⟩
  else none

/-! ## Repetition -/

section

variable {α : Type} {item? : List Char → Option (α × List Char)}

theorem many_of_none {text : List Char} (h : item? text = none) : many item? text = ([], text) := by
  rw [many, h]

theorem many_append {written rest : List Char} {item : α} (hne : written ≠ [])
    (h : item? (written ++ rest) = some (item, rest)) :
    many item? (written ++ rest) = (item :: (many item? rest).1, (many item? rest).2) := by
  have hshorter : rest.length < (written ++ rest).length := by
    have := List.length_pos_iff.mpr hne
    rw [List.length_append]
    omega
  rw [many, h]
  exact dif_pos hshorter

end

/-! ## Arguments -/

/-- What follows an argument: a comma or a closing parenthesis. -/
def EndsArgument (rest : List Char) : Prop := ∃ mark ∈ [',', ')'], rest.head? = some mark

/-- A text is read as an argument wherever an argument ends. -/
def IsReadAs (written : List Char) (argument : Argument) : Prop :=
  ∀ rest, EndsArgument rest → argument? letters (written ++ rest) = some (argument, rest)

theorem after?_cons_of_ne {a b : Char} (h : a ≠ b) (lead text : List Char) :
    Text.after? (a :: lead) (b :: text) = none := if_neg h

theorem quoted?_cons_of_ne {c : Char} (hdouble : c ≠ '"') (hsingle : c ≠ '\'')
    (rest : List Char) : quoted? (c :: rest) = none := by
  simp [quoted?, hdouble, hsingle]

theorem isReadAs_text (text : String) :
    IsReadAs letters (literal text).toList (.text (unitsOf text)) := by
  intro rest _
  rw [argument?, quoted?_literal]
  rfl

theorem regExp?_literal (source : String) (rest : List Char) :
    regExp? ("new RegExp(".toList ++ ((literal source).toList ++ ')' :: rest)) =
      some (unitsOf source, rest) := by
  rw [regExp?, Text.after?_append, Option.bind_some, enclosed?_literal]

theorem isReadAs_regExp (source : String) :
    IsReadAs letters ("new RegExp(".toList ++ ((literal source).toList ++ [')']))
      (.regExp (unitsOf source)) := by
  intro rest _
  have hregExp := regExp?_literal source rest
  simp only [List.append_assoc, List.singleton_append]
  generalize (literal source).toList ++ ')' :: rest = others at *
  have hquoted : quoted? ("new RegExp(".toList ++ others) = none := by
    rw [String.toList_ofList]
    exact quoted?_cons_of_ne (by decide) (by decide) _
  rw [argument?, hquoted, hregExp]
  rfl

theorem equalsMember?_memberAccess (name : String) (rest : List Char) :
    equalsMember? letters ("function (value) \x7b return value === ".toList ++
      ((memberAccess "this.parent" name).toList ++ ("; \x7d".toList ++ rest))) =
        some (unitsOf name, rest) := by
  have hends : Apart letters.continues ("; \x7d".toList ++ rest) :=
    apart_ofList (letters.continues_mark ';' (by decide)) rest
  unfold equalsMember?
  simp only [Text.after?_append, member?_memberAccess _ _ _ hends, Option.bind_eq_bind,
    Option.bind_some]

theorem isReadAs_equalsMember (name : String) :
    IsReadAs letters ("function (value) \x7b return value === ".toList ++
      ((memberAccess "this.parent" name).toList ++ "; \x7d".toList))
      (.equalsMember (unitsOf name)) := by
  intro rest _
  have hmember := equalsMember?_memberAccess letters name rest
  simp only [List.append_assoc]
  generalize (memberAccess "this.parent" name).toList ++ ("; \x7d".toList ++ rest) = others at *
  have hquoted : quoted? ("function (value) \x7b return value === ".toList ++ others) = none := by
    rw [String.toList_ofList]
    exact quoted?_cons_of_ne (by decide) (by decide) _
  have hregExp : regExp? ("function (value) \x7b return value === ".toList ++ others) = none := by
    rw [regExp?, String.toList_ofList, String.toList_ofList, List.cons_append,
      after?_cons_of_ne (by decide)]
    rfl
  rw [argument?, hquoted, hregExp, hmember]
  rfl

/-! ### Numbers -/

theorem isMagnitude_unsignedText (x : Binary64) : isMagnitude (unsignedText x) = true := by
  obtain ⟨c, rest, htext, hc⟩ := exists_cons_unsignedText x
  have hall : ∀ d ∈ unsignedText x, d.isDigit = true ∨ d = '.' := fun d hmem =>
    (isNumeral_unsignedText x).isDigit_or_point hmem
  have hhead : (unsignedText x).head?.any Char.isDigit = true := by
    rw [htext]
    exact hc
  simpa [isMagnitude, hhead] using Or.inr hall

theorem isNumberWord_sourceText (x : Binary64) : isNumberWord x.sourceText.toList = true := by
  rcases sourceText_cases x with ⟨name, hname, htext⟩ | htext
  · have hall : [['N', 'a', 'N'], ['-', 'I', 'n', 'f', 'i', 'n', 'i', 't', 'y'],
        ['I', 'n', 'f', 'i', 'n', 'i', 't', 'y']].all isNumberWord = true := by decide
    rw [htext]
    exact List.all_eq_true.mp hall name hname
  · rw [htext]
    cases x.isNegative with
    | false => simp [isNumberWord, isMagnitude_unsignedText x]
    | true => simp [isNumberWord, isMagnitude_unsignedText x]

/-- A number begins as no argument of another kind does. -/
theorem head_of_isNumberWord {c : Char} {rest : List Char} (h : isNumberWord (c :: rest) = true) :
    c ∉ ['"', '\'', 'n', 'f'] := by
  simp only [isNumberWord, isMagnitude, List.head?_cons, List.cons.injEq, Option.any_some,
    Bool.or_eq_true, Bool.and_eq_true, decide_eq_true_eq, Option.some.injEq] at h
  intro hmem
  simp only [List.mem_cons, List.not_mem_nil, or_false] at hmem
  rcases hmem with rfl | rfl | rfl | rfl <;> simp [Char.isDigit] at h

theorem EndsArgument.apart {rest : List Char} (h : EndsArgument rest) :
    Apart isNumberChar rest := by
  obtain ⟨mark, hmark, hhead⟩ := h
  have hmarks : [',', ')'].all (fun mark => !isNumberChar mark) = true := rfl
  intro c hc
  rw [hhead, Option.mem_some_iff] at hc
  subst hc
  exact (Bool.not_eq_true' _).mp (List.all_eq_true.mp hmarks mark hmark)

theorem numberWord?_sourceText (x : Binary64) {rest : List Char} (h : EndsArgument rest) :
    numberWord? (x.sourceText.toList ++ rest) = some (x.sourceText.toList, rest) := by
  have hchars : ∀ c ∈ x.sourceText.toList, isNumberChar c = true := fun _ =>
    isNumberChar_of_mem_sourceText x
  rw [numberWord?, takeWhile_append_of_apart hchars h.apart,
    dropWhile_append_of_apart hchars h.apart, if_pos (isNumberWord_sourceText x)]

/-- What begins as no argument of another kind does is a number or no argument. -/
theorem argument?_cons {c : Char} (hc : c ∉ ['"', '\'', 'n', 'f']) (rest : List Char) :
    argument? letters (c :: rest) = (numberWord? (c :: rest)).map (Prod.map .number id) := by
  obtain ⟨hdouble, hsingle, hn, hf⟩ : c ≠ '"' ∧ c ≠ '\'' ∧ c ≠ 'n' ∧ c ≠ 'f' := by simpa using hc
  have hregExp : regExp? (c :: rest) = none := by
    rw [regExp?, String.toList_ofList, after?_cons_of_ne (Ne.symm hn)]
    rfl
  have hmember : equalsMember? letters (c :: rest) = none := by
    rw [equalsMember?, String.toList_ofList, after?_cons_of_ne (Ne.symm hf)]
    rfl
  rw [argument?, quoted?_cons_of_ne hdouble hsingle, hregExp, hmember]
  rfl

theorem isReadAs_number (x : Binary64) :
    IsReadAs letters x.sourceText.toList (.number x.sourceText.toList) := by
  intro rest hrest
  have hnumber := numberWord?_sourceText x hrest
  have hword := isNumberWord_sourceText x
  obtain ⟨c, others, hchars, -⟩ := exists_cons_sourceText x
  rw [hchars] at hnumber hword ⊢
  rw [List.cons_append] at hnumber ⊢
  rw [argument?_cons letters (head_of_isNumberWord hword), hnumber]
  rfl

/-! ## Calls -/

/-- Arguments as they stand behind the first one. -/
def listed (texts : List (List Char)) : List Char := texts.flatMap fun text => ',' :: ' ' :: text

theorem many_listed {texts : List (List Char)} {found : List Argument}
    (h : List.Forall₂ (IsReadAs letters) texts found) (rest : List Char) :
    EndsArgument (listed texts ++ ')' :: rest) ∧
      many (nextArgument? letters) (listed texts ++ ')' :: rest) = (found, ')' :: rest) := by
  induction h with
  | nil => exact ⟨⟨')', by simp, rfl⟩, many_of_none rfl⟩
  | @cons text argument texts found hread _ ih =>
      obtain ⟨hends, hmany⟩ := ih
      have hnext : nextArgument? letters ((',' :: ' ' :: text) ++ (listed texts ++ ')' :: rest)) =
          some (argument, listed texts ++ ')' :: rest) := hread _ hends
      rw [listed, List.flatMap_cons, ← listed, List.append_assoc]
      exact ⟨⟨',', by simp, rfl⟩, by rw [many_append (by simp) hnext, hmany]⟩

/-- The arguments of a call are read in order. -/
theorem arguments?_listed {text : List Char} {first : Argument}
    (hfirst : IsReadAs letters text first) {texts : List (List Char)} {found : List Argument}
    (h : List.Forall₂ (IsReadAs letters) texts found) (rest : List Char) :
    arguments? letters (text ++ (listed texts ++ ')' :: rest)) = some (first :: found, rest) := by
  obtain ⟨hends, hmany⟩ := many_listed letters h rest
  rw [arguments?, hfirst _ hends]
  dsimp only
  rw [hmany]
  simp [Text.after?]

theorem arguments?_closeRound (rest : List Char) :
    arguments? letters (')' :: rest) = some ([], rest) := by
  have hword : (')' :: rest).takeWhile isNumberChar = [] := rfl
  have hnone : argument? letters (')' :: rest) = none := by
    rw [argument?_cons letters (by decide), numberWord?, hword]
    rfl
  rw [arguments?, hnone]
  simp [Text.after?]

/-- A call is its method and what its parentheses hold. -/
theorem call?_cons {method : String} (hmethod : isIdentifier method = true)
    {text rest : List Char} {found : List Argument}
    (h : arguments? letters text = some (found, rest)) :
    call? letters ('.' :: (method.toList ++ '(' :: text)) =
      some (⟨unitsOf method, found⟩, rest) := by
  have hends : Apart letters.continues ('(' :: text) :=
    apart_cons (letters.continues_mark '(' (by decide)) _
  have hpoint : Text.after? ['.'] ('.' :: (method.toList ++ '(' :: text)) =
      some (method.toList ++ '(' :: text) := by
    simp [Text.after?]
  have hopen : Text.after? ['('] ('(' :: text) = some text := by simp [Text.after?]
  unfold call?
  simp only [hpoint, identifier?_append _ hmethod hends, hopen, h, Option.bind_eq_bind,
    Option.bind_some]

/-- A text spells a call: the method behind a point, and the arguments between parentheses. -/
inductive Spells (letters : ScriptLetters) (written : List Char) : Call → Prop where
  | closed {method : String} (hmethod : isIdentifier method = true)
      (hwritten : written = '.' :: (method.toList ++ ['(', ')'])) :
      Spells letters written ⟨unitsOf method, []⟩
  | listed {method : String} {text : List Char} {first : Argument} {texts : List (List Char)}
      {others : List Argument} (hmethod : isIdentifier method = true)
      (hfirst : IsReadAs letters text first)
      (hothers : List.Forall₂ (IsReadAs letters) texts others)
      (hwritten : written =
        '.' :: (method.toList ++ '(' :: (text ++ (listed texts ++ [')'])))) :
      Spells letters written ⟨unitsOf method, first :: others⟩

variable {letters} in
theorem Spells.ne_nil {written : List Char} {call : Call} (h : Spells letters written call) :
    written ≠ [] := by
  cases h with
  | closed _ hwritten => simp [hwritten]
  | listed _ _ _ hwritten => simp [hwritten]

variable {letters} in
/-- What spells a call is read as the call, whatever follows it. -/
theorem Spells.read {written : List Char} {call : Call} (h : Spells letters written call)
    (rest : List Char) : call? letters (written ++ rest) = some (call, rest) := by
  cases h with
  | closed hmethod hwritten =>
      rw [hwritten, ← call?_cons letters hmethod (arguments?_closeRound letters rest)]
      simp
  | listed hmethod hfirst hothers hwritten =>
      rw [hwritten, ← call?_cons letters hmethod (arguments?_listed letters hfirst hothers rest)]
      simp

/-! ## The text of a chain -/

def callOf : RuleClause → Call
  | .required message => ⟨unitsOf "required", [.text (unitsOf message)]⟩
  | .min limit message =>
      ⟨unitsOf "min", [.number limit.sourceText.toList, .text (unitsOf message)]⟩
  | .max limit message =>
      ⟨unitsOf "max", [.number limit.sourceText.toList, .text (unitsOf message)]⟩
  | .pattern source message =>
      ⟨unitsOf "matches", [.regExp (unitsOf source), .text (unitsOf message)]⟩
  | .crossField other message =>
      ⟨unitsOf "test", [.text (unitsOf "crossField"), .text (unitsOf message),
        .equalsMember (unitsOf other)]⟩

/-- A clause spells its call. -/
theorem spells_clause (clause : RuleClause) :
    Spells letters clause.sourceText.toList (callOf clause) := by
  unfold RuleClause.sourceText
  cases clause with
  | required message =>
      exact .listed (by decide : isIdentifier "required" = true) (isReadAs_text letters message)
        .nil (by simp [listed])
  | min limit message =>
      exact .listed (by decide : isIdentifier "min" = true) (isReadAs_number letters limit)
        (.cons (isReadAs_text letters message) .nil) (by simp [listed])
  | max limit message =>
      exact .listed (by decide : isIdentifier "max" = true) (isReadAs_number letters limit)
        (.cons (isReadAs_text letters message) .nil) (by simp [listed])
  | pattern source message =>
      exact .listed (by decide : isIdentifier "matches" = true) (isReadAs_regExp letters source)
        (.cons (isReadAs_text letters message) .nil) (by simp [listed])
  | crossField other message =>
      have hname : literal "crossField" = "\"crossField\"" := by decide
      exact .listed (by decide : isIdentifier "test" = true) (isReadAs_text letters "crossField")
        (.cons (isReadAs_text letters message) (.cons (isReadAs_equalsMember letters other) .nil))
        (by simp [listed, hname])

/-- The clauses of a chain are read one after the other. -/
theorem many_clauses (clauses : List RuleClause) :
    many (call? letters) (RuleClause.listText clauses).toList = (clauses.map callOf, []) := by
  induction clauses with
  | nil => exact many_of_none rfl
  | cons clause rest ih =>
      have hspells := spells_clause letters clause
      rw [RuleClause.listText, String.toList_append, many_append hspells.ne_nil (hspells.read _),
        ih]
      rfl

def methodOf : BaseRule → String
  | .string => "string"
  | .number => "number"
  | .date => "date"
  | .boolean => "boolean"

/-- A base is written as a call on the object of the library. -/
theorem exists_base (base : BaseRule) :
    ∃ written, base.sourceText.toList = "yup".toList ++ '.' :: written ∧
      Spells letters ('.' :: written) ⟨unitsOf (methodOf base), []⟩ := by
  have hmethod : isIdentifier (methodOf base) = true := by cases base <;> decide
  refine ⟨(methodOf base).toList ++ ['(', ')'], ?_, .closed hmethod rfl⟩
  cases base <;> simp [BaseRule.sourceText, methodOf]

/-- The text of a chain is read as the calls of its base and of its clauses. -/
theorem readChain?_of_chain (chain : ValidationChain) :
    readChain? letters chain.sourceText =
      some ⟨unitsOf "yup", ⟨unitsOf (methodOf chain.base), []⟩, chain.clauses.map callOf⟩ := by
  obtain ⟨written, hbase, hspells⟩ := exists_base letters chain.base
  have htext : chain.sourceText.toList =
      "yup".toList ++ ('.' :: written ++ (RuleClause.listText chain.clauses).toList) := by
    rw [ValidationChain.sourceText, String.toList_append, hbase, List.append_assoc]
  have hyup : isIdentifier "yup" = true := by decide
  have hpoint : Apart letters.continues
      ('.' :: written ++ (RuleClause.listText chain.clauses).toList) :=
    apart_cons (letters.continues_mark '.' (by decide)) _
  rw [readChain?, htext, identifier?_append letters.toIdentifierClass hyup hpoint]
  simp only [hspells.read, Option.bind_eq_bind, Option.bind_some, many_clauses, if_true]

/-! ## What a rule asks for -/

def baseMethod : FieldType → String
  | .number => "number"
  | .date => "date"
  | .checkbox => "boolean"
  | .input | .select | .textarea => "string"

/-- The message for a missing value: that of the rule, if it says something. -/
def requiredText : Option String → String
  | none => "Required"
  | some message => if message = "" then "Required" else message

/-- The call for a bound that is set. -/
def boundCalls (method message : String) : Option Binary64 → List Call
  | none => []
  | some limit => [⟨unitsOf method, [.number limit.sourceText.toList, .text (unitsOf message)]⟩]

/-- The call for a text that is set and not empty. -/
def textCalls (call : String → Call) : Option String → List Call
  | none => []
  | some text => if text = "" then [] else [call text]

/-- The chain that a rule asks for at a field of a type. -/
def mandated (type : FieldType) (rule : ValidationRule) : CallChain where
  object := unitsOf "yup"
  base := ⟨unitsOf (baseMethod type), []⟩
  calls :=
    (if rule.required then
      [⟨unitsOf "required", [.text (unitsOf (requiredText rule.customMessage))]⟩] else []) ++
    boundCalls "min" "Value too small" rule.min ++
    boundCalls "max" "Value too large" rule.max ++
    textCalls (fun source =>
      ⟨unitsOf "matches", [.regExp (unitsOf source), .text (unitsOf "Invalid format")]⟩)
      rule.pattern ++
    textCalls (fun other =>
      ⟨unitsOf "test", [.text (unitsOf "crossField"),
        .text (unitsOf "Cross-field validation failed"), .equalsMember (unitsOf other)]⟩)
      rule.crossField

theorem methodOf_ofType (type : FieldType) : methodOf (.ofType type) = baseMethod type := by
  cases type <;> rfl

theorem getD_given (message : Option String) :
    (ValidationChain.given message).getD ValidationChain.requiredMessage =
      requiredText message := by
  cases message with
  | none => rfl
  | some message =>
      by_cases h : message = "" <;>
        simp [ValidationChain.given, requiredText, ValidationChain.requiredMessage,
          Option.filter_some, h]

theorem map_given (clause : String → RuleClause) (text : Option String) :
    ((ValidationChain.given text).toList.map clause).map callOf =
      textCalls (fun text => callOf (clause text)) text := by
  cases text with
  | none => rfl
  | some text => by_cases h : text = "" <;> simp [ValidationChain.given, textCalls, h]

theorem map_callOf_clausesOf (type : FieldType) (rule : ValidationRule) :
    (ValidationChain.clausesOf rule).map callOf = (mandated type rule).calls := by
  unfold ValidationChain.clausesOf mandated
  simp only [List.map_append, map_given, getD_given]
  congr 4
  · split <;> rfl
  · cases rule.min <;> rfl
  · cases rule.max <;> rfl

/-- The text of a compiled rule is read as the chain that the rule asks for: the base of the type,
then the calls of the parts that are set, in the fixed order, with the texts of the rule exactly as
they are, and nothing else. -/
theorem readChain?_compile (type : FieldType) (rule : ValidationRule) :
    readChain? letters (ValidationChain.compile type rule).sourceText =
      some (mandated type rule) := by
  rw [readChain?_of_chain]
  simp only [ValidationChain.compile, methodOf_ofType, map_callOf_clausesOf type]
  rfl

/-- A message that looks like another clause is a message. -/
example : (mandated .input
    { ValidationRule.none with required := true, customMessage := some "\").min(1, \"" }).calls =
      [⟨unitsOf "required", [.text (unitsOf "\").min(1, \"")]⟩] := rfl

end FormCompiler.Script
