import Tomasulo.Configuration.Document
import Tomasulo.Run.Document
import Tomasulo.Template
import Tomasulo.Text.Cut

/-!
# Texts for other programs

A renderer hands over a source with an optional configuration document and gets the whole run back
as one line of JSON, or asks for the templates.
-/

namespace Tomasulo

/-- The configuration of a document that may be absent or hold nothing but blanks. -/
def Configuration.ofOptionalDocument (document : Option String) :
    Except ConfigurationError Configuration :=
  match document with
  | none => .ok {}
  | some document =>
      if document.toList.all Text.isBlank then .ok {} else Configuration.ofDocument document

/-- The run of a source as JSON. -/
def History.exchange (source : String) (document : Option String) : Except RunError String :=
  match Configuration.ofOptionalDocument document with
  | .error error => .error (.configuration error)
  | .ok configuration => do
      let history ← History.ofSource source configuration
      return (history.document configuration.queueWindow).compact

/-- The templates as JSON. -/
def Template.exchange : String :=
  (Json.ofList
    (fun template =>
      .ofFields [("name", .ofString template.name), ("source", .ofString template.source)])
    Template.all).compact

end Tomasulo
