import Variorum.Json.Printer
import Variorum.Suite.Resolution

/-!
# Resolved suites as documents

What is not given is left out.
-/

namespace Variorum

def Json.Tree.ofText (s : String) : Json.Tree :=
  .text (.ofText s)

def Json.Tree.record (members : List (String × Json.Tree)) : Json.Tree :=
  .object (members.map fun m => (.ofText m.1, m.2))

open Json

def Json.Tree.given (name : String) : Option String → List (String × Tree)
  | some s => [(name, .ofText s)]
  | none => []

def ResolvedOutcome.tree (o : ResolvedOutcome) : Tree :=
  .record (Tree.given "warning" o.warning ++ Tree.given "error" o.error)

def ResolvedSubject.tree (s : ResolvedSubject) : Tree :=
  let outcomes :=
    if s.outcomes.isEmpty then [] else [("outcomes", Tree.array (s.outcomes.map (·.tree)))]
  .record ([("name", .ofText s.name), ("code", .ofText s.code)] ++ outcomes)

def ResolvedSuite.tree (s : ResolvedSuite) : Tree :=
  .record [
    ("name", .ofText s.name),
    ("configuration", .record (s.configuration.map fun e => (e.1, .ofText e.2))),
    ("subjects", .array (s.subjects.map (·.tree)))]

def ResolvedSuite.print (s : ResolvedSuite) : String :=
  s.tree.print ++ "\n"

end Variorum
