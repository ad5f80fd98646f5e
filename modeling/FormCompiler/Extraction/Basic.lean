import FormCompiler.Extraction.NameScan
import FormCompiler.Schema.Form
import FormCompiler.Text.Lower

/-!
# Extraction of field stubs

Every name that a text assigns becomes a field of which only the name is known. Where the text
mentions the numeric widget, in whatever case, all fields are numbers; otherwise all are inputs.
-/

namespace FormCompiler

/-- The tags of the widgets that a text may mention. -/
inductive WidgetTag where
  | input
  | inputNumber
  | select
  | checkbox
  | datePicker
  | textArea
  deriving DecidableEq

namespace WidgetTag

def all : List WidgetTag := [input, inputNumber, select, checkbox, datePicker, textArea]

def name : WidgetTag → String
  | input => "Input"
  | inputNumber => "InputNumber"
  | select => "Select"
  | checkbox => "Checkbox"
  | datePicker => "DatePicker"
  | textArea => "TextArea"

def mentioned (tag : WidgetTag) (lowered : List Char) : Bool :=
  Text.occurs (Text.lower tag.name.toList) lowered

end WidgetTag

/-- What was extracted from a text. -/
structure Extraction where
  form : FormSchema
  widgets : List WidgetTag
  numeric : Bool

namespace Extraction

/-- The tags that a text mentions, in the order of the tags. -/
def widgetsIn (text : String) : List WidgetTag :=
  let lowered := Text.lower text.toList
  WidgetTag.all.filter fun tag => tag.mentioned lowered

variable {σ : Type} [IdSource σ]

/-- The fields of some names, each with an identifier of its own. -/
def stubs (kind : FieldKind) : List String → σ → List FieldSchema × σ
  | [], ids => ([], ids)
  | name :: rest, ids =>
      let (id, ids) := IdSource.next ids
      let (built, ids) := ({ FieldDraft.new name kind with id := some id } : FieldDraft).build ids
      let (others, ids) := stubs kind rest ids
      match built with
      | .ok field => (field :: others, ids)
      | .error _ => (others, ids)

end Extraction

/-- Extracts the fields of a text. A text that assigns no name gives nothing and takes no
identifier. -/
def extract {σ : Type} [IdSource σ] (text : String) (ids : σ) : Option Extraction × σ :=
  match Extraction.names text with
  | [] => (none, ids)
  | names =>
      let widgets := Extraction.widgetsIn text
      let numeric := widgets.contains .inputNumber
      let (fields, ids) := Extraction.stubs (if numeric then .number else .input) names ids
      (some ⟨⟨fields⟩, widgets, numeric⟩, ids)

end FormCompiler
