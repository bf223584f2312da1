import Variorum.Template.Marker
import Variorum.Template.Skeleton

/-!
# Fragments

A template text cut into its skeleton and its expressions, which are not read yet.
-/

namespace Variorum

/-- The source of an embedded expression and the line that it begins on. -/
structure EmbeddedSource where
  text : String
  line : Nat
  deriving DecidableEq, Repr

/-- A skeleton with one placeholder for each expression, in their order. -/
structure Fragment where
  skeleton : String
  sources : List EmbeddedSource
  parts : List Skeleton.Part
  decode_skeleton : Skeleton.decode 1 skeleton.toList = .ok parts
  placeholders_parts : Skeleton.placeholders parts = List.range sources.length
  deriving DecidableEq

namespace Fragment

/-- The fragment of a skeleton and its expressions, if the placeholders fit them. -/
def ofSources (skeleton : String) (sources : List EmbeddedSource) :
    Except CompileError Fragment :=
  match h : Skeleton.decode 1 skeleton.toList with
  | .error e => .error e
  | .ok parts =>
    if hp : Skeleton.placeholders parts = List.range sources.length then
      .ok ⟨skeleton, sources, parts, h, hp⟩
    else .error (.templateMismatch (Skeleton.placeholders parts).length sources.length)

/-- The fragment of a skeleton and the texts of its expressions, which all begin on the first
line. -/
def ofParts (skeleton : String) (expressions : List String) : Except CompileError Fragment :=
  ofSources skeleton (expressions.map fun text => ⟨text, 1⟩)

/-- The parts of a skeleton whose placeholders are numbered from `index`. -/
def partsOf : (index : Nat) → List Marker.Piece → List Skeleton.Part
  | _, [] => []
  | index, .char c :: ps => .char c :: partsOf index ps
  | index, .expression .. :: ps => .placeholder index :: partsOf (index + 1) ps

def sourcesOf (pieces : List Marker.Piece) : List EmbeddedSource :=
  pieces.filterMap fun
    | .char _ => none
    | .expression text line => some ⟨text, line⟩

def parse (raw : String) : Except CompileError Fragment := do
  let pieces ← Marker.scan 1 raw.toList
  ofSources (String.ofList (Skeleton.encode (partsOf 0 pieces))) (sourcesOf pieces)

def expressions (f : Fragment) : List String :=
  f.sources.map (·.text)

def isConstant (f : Fragment) : Bool :=
  f.sources.isEmpty

def render (f : Fragment) (values : List String) : String :=
  Skeleton.fill f.parts values

end Fragment

end Variorum
