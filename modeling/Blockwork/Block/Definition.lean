import Blockwork.Block.Label
import Blockwork.Block.Templates
import Blockwork.Fault
import Blockwork.Text.Pattern

/-!
# Definitions

A definition is what the palette offers: a label, a kind, a colour, templates,
and for kinds with a body the name of the placeholder that receives the body.
When no name is given, it is the first conventional one that occurs in the
templates, read one after the other, and `body` when none occurs.

A definition that comes from outside may hold templates and placeholder names
that are not texts.  `Definition.faults` lists what is wrong with it.
-/

namespace Blockwork

open Blockwork.Unicode (isWord startsWithWord)

/-! ## The body placeholder -/

/-- The conventional names of the body placeholder. -/
def conventionalNames : List String := ["body", "then", "else", "area", "content", "inner"]

/-- The conventional name at the start of a text, if it ends there as a word. -/
def conventionalAt? (cs : List Char) : Option String :=
  conventionalNames.find? fun n =>
    match Text.dropLiteral? n.toList cs with
    | some rest => !startsWithWord rest
    | none => false

/-- The first conventional placeholder of a text. -/
def firstConventional? : List Char → Option String
  | [] => none
  | c :: cs =>
      if c = '%' then
        match conventionalAt? cs with
        | some n => some n
        | none => firstConventional? cs
      else firstConventional? cs

/-- Texts joined by a separator. -/
def joinTexts (separator : String) : List String → String
  | [] => ""
  | [s] => s
  | s :: ss => s ++ separator ++ joinTexts separator ss

/-- The name of the body placeholder.  A given one wins, whatever it is.
Otherwise all templates have to be texts. -/
def inferContainerVar (templates : Templates) (explicit : Option Json) : Except Breakdown Json :=
  match explicit.bind Json.given? with
  | some v => .ok v
  | none =>
      match templates.texts? with
      | none => .error .wrongType
      | some texts =>
          .ok (.str ((firstConventional? (joinTexts " " texts).toList).getD "body"))

/-! ## Definitions -/

/-- A definition of the palette. -/
structure Definition where
  label : String
  kind : Kind := .command
  /-- The colour, a text unless it came from outside. -/
  color : Json := .str "#4C97FF"
  /-- The templates by language. -/
  templates : Templates := {}
  /-- The name of the body placeholder, if one is given. -/
  containerVar : Option Json := none

namespace Definition

def inputNames (d : Definition) : List String := Label.inputNames d.label

/-- The label with its placeholders as blanks. -/
def displayName (d : Definition) : String := Label.displayName d.label

/-- The name of the body placeholder in effect, none for kinds without a body. -/
def bodyVar (d : Definition) : Except Breakdown (Option Json) :=
  if d.kind.hasBody then (inferContainerVar d.templates d.containerVar).map some else .ok none

/-- What is wrong with the definition. -/
def faults (d : Definition) : List DefinitionFault :=
  (if Unicode.strip d.label = "" then [.blankLabel] else []) ++
    (if d.templates.allTexts then [] else [.templateNotText])

/-- The definition as an object. -/
def toJson (naming : Templates.Naming) (d : Definition) : Json :=
  .obj ([("label", .str d.label), ("kind", .str d.kind.name), ("color", d.color),
      ("templates", d.templates.toJson naming)] ++
    match d.containerVar.bind Json.given? with
    | some v => [("containerVar", v)]
    | none => [])

/-- The kind that a value names, as a fault if it names none. -/
def kindOf (v : Json) : Except Fault Kind :=
  match Kind.ofJson? v with
  | some k => .ok k
  | none => .error (.naming v (.definition (.unknownKind v)))

/-- A failure without a message, as a fault. -/
def lift {α : Type} (r : Except Breakdown α) : Except Fault α := r.mapError .breakdown

/-- Read a definition from an object.  A kind may also be given as a type. -/
def ofJson : Json → Except Fault Definition
  | .obj members => do
      match Json.member? members "label" with
      | none => .error (.definition .noLabel)
      | some label =>
          let color := (Json.member? members "color").getD (.str "#4C97FF")
          demandTexts [label]
          let kind ← kindOf ((Json.member? members "kind").getD
            ((Json.member? members "type").getD (.str Kind.command.name)))
          demandTexts [color]
          let templates ← lift (Templates.ofJson (Json.member members "templates"))
          .ok {
            label := label.display
            kind
            color := .str color.display
            templates
            containerVar := (Json.member members "containerVar").given? }
  | _ => .error (.definition .notObject)

end Definition

end Blockwork
