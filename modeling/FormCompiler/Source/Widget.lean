import FormCompiler.Schema.Field
import FormCompiler.Source.Layout
import FormCompiler.Source.Markup

/-!
# Widgets

The lines that show the input element of a field. Inputs, text areas and checkboxes take one line;
the others set the value of the form themselves and take several.
-/

namespace FormCompiler.Source

def fullWidth : String := "style=\x7b\x7b width: '100%' \x7d\x7d"

/-- A widget on one line, bound to a field by its name. -/
def inlineText (attributes element : String) : String :=
  "<Field " ++ attributes ++ ">\x7b(\x7b field \x7d) => (<" ++ element ++ " />)\x7d</Field>"

def inlineWidget (attributes element : String) : Layout := .line (inlineText attributes element)

/-- Opens a widget that has lines of its own. -/
def framedText (attributes : String) : String :=
  "<Field " ++ attributes ++ ">\x7b(\x7b field, form \x7d) => ("

def framedWidget (attributes : String) (content : Layout) : Layout :=
  .line (framedText attributes) ++ content.nested ++ .line ")\x7d</Field>"

/-- The handler that sets the value of a field of the form. -/
def setsValue (name parameters value : String) : String :=
  "onChange=\x7b(" ++ parameters ++ ") => form.setFieldValue(" ++ literal name ++ ", " ++ value ++
    ")\x7d"

def numberText (name : String) : String :=
  "<InputNumber \x7b...field\x7d " ++ setsValue name "v" "v" ++ " " ++ fullWidth ++ " />"

def dateText (name : String) : String :=
  "<DatePicker value=\x7bfield.value\x7d " ++ setsValue name "date, dateString" "dateString" ++
    " " ++ fullWidth ++ " />"

def selectText (name : String) : String :=
  "<Select value=\x7bfield.value\x7d " ++ setsValue name "v" "v" ++ " " ++ fullWidth ++ ">"

def optionText (option : String) : String :=
  "<Select.Option " ++ attributeText "key" option ++ " " ++ attributeText "value" option ++ ">" ++
    childText option ++ "</Select.Option>"

/-- The options of a select element, one a line. -/
def optionLines : List String → Layout
  | [] => []
  | option :: rest => .line (optionText option) ++ optionLines rest

def widget (field : FieldSchema) : Layout :=
  let named := attributeText "name" field.name
  match field.kind with
  | .input => inlineWidget named "Input \x7b...field\x7d"
  | .textarea => inlineWidget named "Input.TextArea \x7b...field\x7d"
  | .checkbox =>
      inlineWidget ("type=\"checkbox\" " ++ named)
        "Checkbox \x7b...field\x7d checked=\x7bfield.value\x7d"
  | .number => framedWidget named (.line (numberText field.name))
  | .select options =>
      framedWidget named <|
        .line (selectText field.name) ++ (optionLines options).nested ++ .line "</Select>"
  | .date => framedWidget named (.line (dateText field.name))

/-! ## Writing a widget -/

namespace Writer

/-- Writes a widget that has lines of its own. -/
def framed (writer : Writer) (attributes : String) (part : Writer → Writer) : Writer :=
  ((writer.line (framedText attributes)).nested part).line ")\x7d</Field>"

def options (writer : Writer) (options : List String) : Writer :=
  options.foldl (fun writer option => writer.line (optionText option)) writer

/-- Writes the widget of a field at the current level. -/
def widget (writer : Writer) (field : FieldSchema) : Writer :=
  let named := attributeText "name" field.name
  match field.kind with
  | .input => writer.line (inlineText named "Input \x7b...field\x7d")
  | .textarea => writer.line (inlineText named "Input.TextArea \x7b...field\x7d")
  | .checkbox =>
      writer.line (inlineText ("type=\"checkbox\" " ++ named)
        "Checkbox \x7b...field\x7d checked=\x7bfield.value\x7d")
  | .number => writer.framed named (·.line (numberText field.name))
  | .select options =>
      writer.framed named fun writer =>
        ((writer.line (selectText field.name)).nested (·.options options)).line "</Select>"
  | .date => writer.framed named (·.line (dateText field.name))

end Writer

end FormCompiler.Source
