import FormCompiler.Proofs.Binary64.Magnitude
import FormCompiler.Proofs.Script.Syntax
import FormCompiler.Values.Basic

/-!
# Values of a script

What an expression means over an object that holds the values of a form.  How texts and numbers are
turned into one another, and how a numeral is read, is left to the engine that runs the script.  An
expression without a value is one that throws, or one whose conversion of an object or a function is
not followed here.
-/

namespace FormCompiler

namespace Binary64

def negated (x : Binary64) : Binary64 := ofMagnitude (!x.isNegative) x.magnitude

def absolute (x : Binary64) : Binary64 := ofMagnitude false x.magnitude

@[simp] theorem magnitude_absolute (x : Binary64) : x.absolute.magnitude = x.magnitude :=
  magnitude_ofMagnitude x.magnitude_lt

@[simp] theorem isNegative_absolute (x : Binary64) : x.absolute.isNegative = false :=
  isNegative_ofMagnitude x.magnitude_lt

theorem absolute_of_not_isNegative {x : Binary64} (h : x.isNegative = false) : x.absolute = x :=
  ext_sign (by rw [isNegative_absolute, h]) x.magnitude_absolute

/-- A negative number is what the minus sign makes of it without its sign. -/
theorem negated_absolute {x : Binary64} (h : x.isNegative = true) : x.absolute.negated = x := by
  apply ext_sign
  · rw [negated, isNegative_ofMagnitude (magnitude_lt _), isNegative_absolute, h]
    rfl
  · rw [negated, magnitude_ofMagnitude (magnitude_lt _), magnitude_absolute]

end Binary64

namespace Script

/-! ## Values -/

/-- A value of a script. The functions are those that expressions of a form can name; the search of
a text keeps the text it is the member of. -/
inductive Value where
  | undefined
  | null
  | boolean (value : Bool)
  | number (value : Binary64)
  | text (units : List Nat)
  | values
  | toText
  | toNumber
  | includes (searched : List Nat)
  deriving DecidableEq

/-- What an engine does with numbers and their texts. -/
structure Engine where
  /-- The number that a text is turned into. -/
  numberOfText : List Nat → Binary64
  /-- The text that a number is turned into. -/
  textOfNumber : Binary64 → List Nat
  /-- The number of a numeral in a script. -/
  numeral? : List Char → Option Binary64

namespace Value

/-- The value that an object of form values has for a field. -/
def ofField : Option FormValue → Value
  | none => undefined
  | some (.text value) => text (unitsOf value)
  | some (.number value) => number value
  | some (.boolean value) => boolean value
  | some .null => null

def truthy : Value → Bool
  | undefined | null => false
  | boolean value => value
  | number x => !(x.isZero || x.isUndefined)
  | text units => !units.isEmpty
  | _ => true

def number? (engine : Engine) : Value → Option Binary64
  | undefined => some .undefined
  | null => some .zero
  | boolean value => some (if value then .one else .zero)
  | number x => some x
  | text units => some (engine.numberOfText units)
  | _ => none

def units? (engine : Engine) : Value → Option (List Nat)
  | undefined => some (unitsOf "undefined")
  | null => some (unitsOf "null")
  | boolean value => some (unitsOf (if value then "true" else "false"))
  | number x => some (engine.textOfNumber x)
  | text units => some units
  | _ => none

/-- Equality without conversion. The search of a text is one function for all texts. -/
def strictlyEquals : Value → Value → Bool
  | number x, number y => x.equals y
  | includes _, includes _ => true
  | first, second => first = second

/-- The order of two values: of texts by their units, of anything else by their numbers. -/
def less? (engine : Engine) : Value → Value → Option Bool
  | text first, text second => some (first.lex second fun a b => decide (a < b))
  | first, second => do
      let x ← number? engine first
      let y ← number? engine second
      some (x.less y)

def property (values : FormValues) (key : List Nat) : Value :=
  ofField ((values.entries.find? fun entry => unitsOf entry.1 = key).map Prod.snd)

/-- The member of a value. Of texts only the search is known. -/
def member? (values : FormValues) : Value → Value → Option Value
  | .values, text key => some (property values key)
  | text searched, text key => if key = unitsOf "includes" then some (includes searched) else none
  | _, _ => none

def call? (engine : Engine) : Value → Value → Option Value
  | toText, argument => (units? engine argument).map text
  | toNumber, argument => (number? engine argument).map number
  | includes searched, argument =>
      (units? engine argument).map fun part => boolean (decide (part <:+: searched))
  | _, _ => none

def named? (name : String) : Option Value :=
  if name = "values" then some .values
  else if name = "String" then some toText
  else if name = "Number" then some toNumber
  else none

def compare? (engine : Engine) : Operator → Value → Value → Option Bool
  | .equal, left, right => some (strictlyEquals left right)
  | .notEqual, left, right => some (!strictlyEquals left right)
  | .less, left, right => less? engine left right
  | .greater, left, right => less? engine right left
  | _, _, _ => none

end Value

/-! ## Expressions -/

namespace Expr

/-- The value of an expression. The right side of a logical operator is looked at only when the left
side does not decide. -/
def eval (engine : Engine) (values : FormValues) : Expr → Option Value
  | name symbol => Value.named? symbol
  | text units => some (.text units)
  | numeral digits => (engine.numeral? digits).map .number
  | negate expr => do
      let x ← Value.number? engine (← eval engine values expr)
      some (.number x.negated)
  | member object key => do
      Value.member? values (← eval engine values object) (← eval engine values key)
  | call function argument => do
      Value.call? engine (← eval engine values function) (← eval engine values argument)
  | binary op left right => do
      let first ← eval engine values left
      match op with
      | .or => if first.truthy then some first else eval engine values right
      | .and => if first.truthy then eval engine values right else some first
      | .coalesce =>
          if first = .undefined || first = .null then eval engine values right else some first
      | op => (Value.compare? engine op first (← eval engine values right)).map .boolean

end Expr

theorem find?_unitsOf (entries : List (String × FormValue)) (field : String) :
    (entries.find? fun entry => unitsOf entry.1 = unitsOf field).map Prod.snd =
      entries.lookup field := by
  induction entries with
  | nil => rfl
  | cons entry entries ih =>
      obtain ⟨name, value⟩ := entry
      by_cases h : name = field
      · subst h
        simp
      · have hunits : unitsOf name ≠ unitsOf field := fun heq => h (unitsOf_inj.mp heq)
        have hlookup : (field == name) = false := beq_eq_false_iff_ne.mpr (Ne.symm h)
        simp [List.lookup_cons, hunits, hlookup, ih]

/-- The member of a field is its value. -/
theorem eval_valueOf (engine : Engine) (values : FormValues) (field : String) :
    (Expr.valueOf field).eval engine values = some (.ofField (values.get? field)) := by
  change some (Value.property values (unitsOf field)) = _
  rw [Value.property, find?_unitsOf]
  rfl

end Script

end FormCompiler
