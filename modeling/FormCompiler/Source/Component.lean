import FormCompiler.Compiled.Form
import FormCompiler.Source.Expression
import FormCompiler.Source.Settings
import FormCompiler.Source.Widget

/-!
# The generated component

A compiled form becomes one source file: imports, the validation schema, and a component with the
initial values, one block for each field, and the button that submits the form. The source depends
on the compiled form and the settings only.

The file is written line by line. Next to each part that is written stand its lines as a layout,
which is what the theory speaks about.
-/

namespace FormCompiler.Source

def imports : List String :=
  ["import React from 'react';", "import \x7b Formik, Form, Field \x7d from 'formik';",
    "import * as yup from 'yup';",
    "import \x7b Input, InputNumber, Select, Checkbox, DatePicker, Button \x7d from 'antd';"]

def propertyText (key value : String) : String := objectKey key ++ ": " ++ value

/-- The value of a field before anything is filled in. -/
def initialValue : FieldType → String
  | .checkbox => "false"
  | .input | .number | .select | .textarea | .date => literal ""

def schemaProperties (fields : List CompiledField) : List (String × String) :=
  fields.map fun c => (c.field.name, c.validation.sourceText)

def initialProperties (fields : List CompiledField) : List (String × String) :=
  fields.map fun c => (c.field.name, initialValue c.field.type)

def blockText (name : String) : String :=
  "<div style=\x7b\x7b marginBottom: 12 \x7d\x7d " ++ attributeText "key" name ++ ">"

def labelText (label : String) : String :=
  "<label style=\x7b\x7b display: 'block', marginBottom: 6 \x7d\x7d>" ++ childText label ++
    "</label>"

/-- Opens what is shown only when an expression holds. -/
def whenText (expr : BoolExpr) : String := "\x7b(" ++ expr.sourceText ++ ") && ("

def submitText (label : String) : String :=
  "<Button type=\"primary\" htmlType=\"submit\">" ++ childText label ++ "</Button>"

def functionText (name : String) : String := "export default function " ++ name ++ "() \x7b"

/-! ## Writing the file -/

namespace Writer

/-- The properties of an object literal, one a line; all but the last one end in a comma. -/
def properties (writer : Writer) (properties : List (String × String)) : Writer :=
  let last := properties.length - 1
  properties.zipIdx.foldl (fun writer ((key, value), index) =>
    writer.line (propertyText key value ++ if index < last then "," else "")) writer

def validationSchema (writer : Writer) (fields : List CompiledField) : Writer :=
  ((writer.line "const validationSchema = yup.object().shape(\x7b").nested
    (·.properties (schemaProperties fields))).line "\x7d);"

def initialValues (writer : Writer) (fields : List CompiledField) : Writer :=
  ((writer.line "initialValues=\x7b\x7b").nested
    (·.properties (initialProperties fields))).line "\x7d\x7d"

/-- The widget of a field, shown when the visibility says so. -/
def shown (writer : Writer) (visibility : Visibility) (field : FieldSchema) : Writer :=
  match visibility with
  | .always => writer.widget field
  | .when expr => ((writer.line (whenText expr)).nested (·.widget field)).line ")\x7d"

def fieldBlock (writer : Writer) (c : CompiledField) : Writer :=
  ((writer.line (blockText c.field.name)).nested fun writer =>
    (writer.line (labelText c.field.label)).shown c.visibility c.field).line "</div>"

/-- The form element with the blocks of the fields and the button. -/
def form (writer : Writer) (fields : List CompiledField) (submitLabel : String) : Writer :=
  ((writer.line "<Form onSubmit=\x7bhandleSubmit\x7d>").nested fun writer =>
    (fields.foldl fieldBlock writer).line (submitText submitLabel)).line "</Form>"

/-- The element that holds the state of the form. -/
def state (writer : Writer) (fields : List CompiledField) (submitLabel : String) : Writer :=
  let writer := (writer.line "<Formik").nested fun writer =>
    ((writer.initialValues fields).line "validationSchema=\x7bvalidationSchema\x7d").line
      "onSubmit=\x7b(values) => console.log('submit', values)\x7d"
  let writer := (writer.line ">").nested fun writer =>
    ((writer.line "\x7b(\x7b handleSubmit, values \x7d) => (").nested
      (·.form fields submitLabel)).line ")\x7d"
  writer.line "</Formik>"

def function (writer : Writer) (fields : List CompiledField) (config : EmitterConfig) : Writer :=
  ((writer.line (functionText config.componentName)).nested fun writer =>
    ((writer.line "return (").nested (·.state fields config.submitLabel)).line ");").line "\x7d"

/-- Writes the whole file. -/
def component (writer : Writer) (fields : List CompiledField) (config : EmitterConfig) : Writer :=
  let writer := (imports.foldl line writer).blank
  (writer.validationSchema fields).blank.function fields config

end Writer

/-! ## The lines of the file -/

def importLines : Layout := imports.flatMap Layout.line

def propertyLines : List (String × String) → Layout
  | [] => []
  | [(key, value)] => .line (propertyText key value)
  | (key, value) :: rest => .line (propertyText key value ++ ",") ++ propertyLines rest

def schemaLines (fields : List CompiledField) : Layout :=
  .line "const validationSchema = yup.object().shape(\x7b" ++
    (propertyLines (schemaProperties fields)).nested ++ .line "\x7d);"

def initialLines (fields : List CompiledField) : Layout :=
  .line "initialValues=\x7b\x7b" ++ (propertyLines (initialProperties fields)).nested ++
    .line "\x7d\x7d"

def shownLines (visibility : Visibility) (content : Layout) : Layout :=
  match visibility with
  | .always => content
  | .when expr => .line (whenText expr) ++ content.nested ++ .line ")\x7d"

def fieldLines (c : CompiledField) : Layout :=
  .line (blockText c.field.name) ++
    (Layout.line (labelText c.field.label) ++
      shownLines c.visibility (widget c.field)).nested ++
    .line "</div>"

def blockLines : List CompiledField → Layout
  | [] => []
  | c :: rest => fieldLines c ++ blockLines rest

def formLines (fields : List CompiledField) (submitLabel : String) : Layout :=
  .line "<Form onSubmit=\x7bhandleSubmit\x7d>" ++
    (blockLines fields ++ .line (submitText submitLabel)).nested ++
    .line "</Form>"

def stateLines (fields : List CompiledField) (submitLabel : String) : Layout :=
  .line "<Formik" ++
    (initialLines fields ++
      .line "validationSchema=\x7bvalidationSchema\x7d" ++
      .line "onSubmit=\x7b(values) => console.log('submit', values)\x7d").nested ++
    .line ">" ++
    (Layout.line "\x7b(\x7b handleSubmit, values \x7d) => (" ++
      (formLines fields submitLabel).nested ++
      .line ")\x7d").nested ++
    .line "</Formik>"

def functionLines (fields : List CompiledField) (config : EmitterConfig) : Layout :=
  .line (functionText config.componentName) ++
    (Layout.line "return (" ++ (stateLines fields config.submitLabel).nested ++
      .line ");").nested ++
    .line "\x7d"

def componentLines (fields : List CompiledField) (config : EmitterConfig) : Layout :=
  importLines ++ .blank ++ schemaLines fields ++ .blank ++ functionLines fields config

end FormCompiler.Source

namespace FormCompiler

/-- The source of a compiled form. -/
def CompiledForm.source (form : CompiledForm) (config : EmitterConfig) : String :=
  (Source.Writer.empty.component form.fields config).render config.indentWidth

def FormSchema.source (form : FormSchema) : String := form.compile.source .defaults

/-- The source of a form and the problems found while it was compiled; settings with a problem are
refused. -/
def FormSchema.generate (form : FormSchema) (config : EmitterConfig) :
    Except ConfigProblem (String × List Diagnostic) := do
  let config ← config.check
  let compiled := form.compile
  pure (compiled.source config, compiled.diagnostics)

end FormCompiler
