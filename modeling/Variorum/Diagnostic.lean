import Variorum.Failure

/-!
# Diagnostics

Records of what went wrong, or only half right, while a suite was compiled and resolved.
-/

namespace Variorum

/-- How grave a diagnostic is: a note, a degraded result, or a rendering that was dropped. -/
inductive Severity
  | info
  | warning
  | error
  deriving DecidableEq, Repr

/-- Where a diagnostic comes from, as far as it is known. -/
structure Origin where
  subject : Option String := none
  bindings : List (String × String) := []
  source : Option String := none
  line : Option Nat := none
  deriving DecidableEq, Repr

structure Diagnostic where
  severity : Severity
  code : String
  message : String
  origin : Origin := {}
  deriving DecidableEq, Repr

namespace Diagnostic

def multipleValues : String := "MULTIPLE_VALUES"

def ofFailure (f : Failure) (origin : Origin := {}) : Diagnostic :=
  { severity := .error, code := f.code, message := f.message, origin }

/-- A diagnostic on one line: code, message, and what is known of the origin save the line. -/
def display (d : Diagnostic) : String :=
  let subject := (d.origin.subject.map fun s => s!" (subject: {s})").getD ""
  let source := (d.origin.source.map fun s => s!" in \x60{s}\x60").getD ""
  let bindings :=
    if d.origin.bindings.isEmpty then ""
    else
      " with \x7b" ++ ", ".intercalate (d.origin.bindings.map fun b => s!"{b.1}={b.2}") ++ "\x7d"
  s!"[{d.code}] {d.message}" ++ subject ++ source ++ bindings

def count (severity : Severity) (log : List Diagnostic) : Nat :=
  log.countP (·.severity = severity)

end Diagnostic

end Variorum
