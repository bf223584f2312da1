import Variorum.Document.Basic
import Variorum.Document.Output
import Variorum.Library.Standard

/-!
# The command line

A suite is read as a document, resolved with the standard functions and printed. The document comes
from the file that the first argument names, or from the standard input.
-/

namespace Variorum.CommandLine

inductive Source
  | input
  | file (path : String)
  deriving DecidableEq, Repr

/-- The first argument is a path; a minus stands for the standard input. -/
def source : List String → Source
  | [] => .input
  | path :: _ => if path = "-" then .input else .file path

/-- What a run writes, and how it exits. -/
structure Completion where
  exitCode : UInt8
  output : String := ""
  notes : List String := []
  deriving DecidableEq, Repr

def unopened (path : String) : Completion :=
  { exitCode := 2, notes := [s!"cannot open suite: {path}"] }

def refused (note : String) : Completion :=
  { exitCode := 1, notes := [note] }

/-- The run that is given a document. Variables of the environment come before the settings of the
document. -/
def run (lookup : String → Option String) (text : String) : Completion :=
  match SuiteDefinition.ofJson text with
  | .error e => refused e.message
  | .ok (definition, settings) =>
    let report := definition.run Library.standard ((settings.getD {}).override lookup)
    match report.result with
    | .error e => refused e.message
    | .ok suite =>
      { exitCode := 0, output := suite.print, notes := report.log.map Diagnostic.display }

/-- What the run comes to for the bytes of a source, which have to be a text. -/
def complete (environment : List (String × String)) : Source → Option ByteArray → Completion
  | .file path, none => unopened path
  | .input, none => unopened "-"
  | _, some bytes =>
    match String.fromUTF8? bytes with
    | some text => run (fun name => environment.lookup name) text
    | none => refused DocumentError.malformed.message

end Variorum.CommandLine
