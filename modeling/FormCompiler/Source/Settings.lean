import FormCompiler.Config.Problem
import FormCompiler.Source.Literal

/-!
# Settings of the generated source

The name of the component, the width of a level and the label of the button that submits the form.
-/

namespace FormCompiler

/-- The settings of the generated source. -/
structure EmitterConfig where
  componentName : String
  indentWidth : Nat
  submitLabel : String
  deriving DecidableEq

namespace EmitterConfig

def defaults : EmitterConfig := ⟨"GeneratedForm", 2, "Submit"⟩

/-- Whether a text is an identifier that begins with a capital. -/
def isComponentName (name : String) : Bool :=
  Source.isIdentifier name && (name.toList.head?.map Char.isUpper).getD false

/-- What is wrong with the settings, the name first. -/
def problem? (config : EmitterConfig) : Option ConfigProblem :=
  if !isComponentName config.componentName then some (.componentName config.componentName)
  else if 1 ≤ config.indentWidth && config.indentWidth ≤ maxIndentWidth then none
  else some (.indentWidth config.indentWidth)

/-- The settings, if nothing is wrong with them. -/
def check (config : EmitterConfig) : Except ConfigProblem EmitterConfig :=
  match config.problem? with
  | none => .ok config
  | some problem => .error problem

end EmitterConfig

end FormCompiler
