import Variorum.Document.Settings
import Variorum.Suite.Definition

/-!
# Documents

A suite as a JSON text, with the settings for its resolution. What a parameter ranges over may be
texts and numbers; whether it is shows only when the whole document has been read.
-/

namespace Variorum

inductive DocumentError
  | malformed
  | unsupportedValue (parameter found : String)
  deriving DecidableEq, Repr

def DocumentError.message : DocumentError → String
  | .malformed => "Invalid suite document"
  | .unsupportedValue parameter found =>
    s!"Parameter '{parameter}' has an unsupported value: {found}"

structure ParameterDocument where
  name : String
  values : List Json.Tree

structure SubjectDocument where
  id : String
  name : String
  code : String
  parameters : List ParameterDocument
  macros : List MacroDefinition
  outcomes : List OutcomeDefinition

/-- A suite whose parameters are still to be read, and the settings it comes with. -/
structure SuiteDocument where
  id : String
  configuration : List (String × String)
  resolver : Option Config
  parameters : List ParameterDocument
  macros : List MacroDefinition
  subjects : List SubjectDocument

/-! ## The form of a document -/

namespace SuiteDocument

open Json Json.Decoder

def textBlock : Decoder String
  | room, .array lines => ("\n".intercalate ·) <$> Decoder.list .string room (.array lines)
  | room, t => Decoder.string room t

def parameterDecoder : Decoder ParameterDocument
  | room, t => do
    let fs ← fields ["name", "values"] room t
    return { name := ← fs.required "name" .string, values := ← fs.required "values" (.list .any) }

/-- A macro, which may have no bodies. -/
def macroDecoder : Decoder MacroDefinition
  | room, t => do
    let fs ← fields ["signature", "bodies"] room t
    return {
      signature := ← fs.required "signature" .string
      bodies := ← fs.optional "bodies" (.list textBlock) [] }

def outcomeDecoder : Decoder OutcomeDefinition
  | room, t => do
    let fs ← fields ["warning", "error"] room t
    return {
      warning := ← fs.optional "warning" (.nullable textBlock) none
      error := ← fs.optional "error" (.nullable textBlock) none }

def subjectDecoder : Decoder SubjectDocument
  | room, t => do
    let fs ← fields ["id", "name", "code", "parameters", "macros", "outcomes"] room t
    return {
      id := ← fs.required "id" .string
      name := ← fs.required "name" textBlock
      code := ← fs.required "code" textBlock
      parameters := ← fs.optional "parameters" (.list parameterDecoder) []
      macros := ← fs.optional "macros" (.list macroDecoder) []
      outcomes := ← fs.optional "outcomes" (.list outcomeDecoder) [] }

def decoder : Decoder SuiteDocument
  | room, t => do
    let fs ←
      fields ["id", "configuration", "resolver", "parameters", "macros", "subjects"] room t
    return {
      id := ← fs.required "id" .string
      configuration := ← fs.optional "configuration" (.map .string) []
      resolver := ← fs.optional "resolver" (.nullable Config.decoder) none
      parameters := ← fs.optional "parameters" (.list parameterDecoder) []
      macros := ← fs.optional "macros" (.list macroDecoder) []
      subjects := ← fs.optional "subjects" (.list subjectDecoder) [] }

def ofJson (s : String) : Except DocumentError SuiteDocument :=
  match decoder.run? s with
  | some d => .ok d
  | none => .error .malformed

end SuiteDocument

/-! ## The values of a document -/

/-- The value of a number: an integer if it is one of a machine word with sign, else a float. -/
def Json.Numeral.value? (n : Json.Numeral) : Option Value :=
  match n.integer?.bind Integer.ofInt? with
  | some i => some (.integer i)
  | none => n.float?.map .float

/-- The value of a tree, or the name of what it is instead. -/
def Value.ofTree : Json.Tree → Except String Value
  | .text units =>
    match units.text? with
    | some s => .ok (.infer s)
    | none => .error "string"
  | .number n =>
    match n.value? with
    | some v => .ok v
    | none => .error "number out of range"
  | .bool _ => .error "boolean"
  | .null => .error "null"
  | .array _ => .error "array"
  | .object _ => .error "object"

namespace ParameterDocument

def read (d : ParameterDocument) : Except DocumentError Parameter := do
  let values ← d.values.mapM fun t =>
    match Value.ofTree t with
    | .ok v => .ok v
    | .error found => .error (DocumentError.unsupportedValue d.name found)
  return ⟨d.name, values⟩

end ParameterDocument

def SubjectDocument.definition (d : SubjectDocument) : Except DocumentError SubjectDefinition := do
  return {
    id := d.id
    name := d.name
    code := d.code
    parameters := ← d.parameters.mapM ParameterDocument.read
    macros := d.macros
    outcomes := d.outcomes }

def SuiteDocument.definition (d : SuiteDocument) : Except DocumentError SuiteDefinition := do
  return {
    id := d.id
    configuration := d.configuration
    parameters := ← d.parameters.mapM ParameterDocument.read
    macros := d.macros
    subjects := ← d.subjects.mapM SubjectDocument.definition }

/-- The definition of a suite and the settings that its document comes with. -/
def SuiteDefinition.ofJson (s : String) :
    Except DocumentError (SuiteDefinition × Option Config) := do
  let d ← SuiteDocument.ofJson s
  return (← d.definition, d.resolver)

end Variorum
