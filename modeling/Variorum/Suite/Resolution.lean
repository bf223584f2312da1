import Variorum.Config
import Variorum.Product.Space
import Variorum.Suite.Compilation

/-!
# Resolution

Every subject is rendered in each of its contexts, and what comes out is kept once. A rendering that
fails is dropped with an error and concerns no other.
-/

namespace Variorum

structure ResolvedOutcome where
  warning : Option String := none
  error : Option String := none
  deriving DecidableEq, Repr

structure ResolvedSubject where
  name : String
  code : String
  outcomes : List ResolvedOutcome := []
  deriving DecidableEq, Repr

/-- The distinct renderings of a suite, in the order of their first occurrence. -/
structure ResolvedSuite where
  name : String
  configuration : List (String × String) := []
  subjects : List ResolvedSubject := []
  deriving DecidableEq, Repr

namespace ResolvedSuite

def contains (suite : ResolvedSuite) (s : ResolvedSubject) : Bool :=
  suite.subjects.contains s

/-- Puts a rendering at the end, unless it is in the suite already. -/
def insert (suite : ResolvedSuite) (s : ResolvedSubject) : ResolvedSuite :=
  if suite.contains s then suite else { suite with subjects := suite.subjects ++ [s] }

end ResolvedSuite

/-- The renderings of a subject and the diagnostics of all attempts. -/
structure Renderings where
  rendered : List ResolvedSubject := []
  log : List Diagnostic := []
  deriving DecidableEq, Repr

namespace Outcome

def render (ev : Evaluator) (ctx : Context) (o : Outcome) :
    Report RenderFailure ResolvedOutcome := do
  let warning ← o.warning.mapM (ev.render ctx)
  let error ← o.error.mapM (ev.render ctx)
  return { warning, error }

end Outcome

namespace Subject

/-- The code behind the preamble, on a line of its own, if there is one. -/
def withPreamble (preamble : Option String) (code : String) : String :=
  match preamble with
  | some text => text ++ "\n" ++ code
  | none => code

/-- Renders a subject in a context: its name, its code and its outcomes. -/
def render (s : Subject) (config : Config) (ev : Evaluator) (ctx : Context) :
    Report RenderFailure ResolvedSubject := do
  let name ← ev.render ctx s.name
  let code ← ev.render ctx s.code
  let outcomes ← s.outcomes.mapM (Outcome.render ev ctx)
  return { name, code := withPreamble config.preamble code, outcomes }

def renderError (s : Subject) (ctx : Context) (f : RenderFailure) : Diagnostic :=
  .ofFailure f.failure {
    subject := some s.id
    bindings := ctx.bindings
    source := some f.expression
    line := some f.line }

/-- The rendering in one context, or the error that reports its failure. -/
def attempt (s : Subject) (config : Config) (ev : Evaluator) (ctx : Context) : Renderings :=
  let report := s.render config ev ctx
  match report.result with
  | .ok r => { rendered := [r], log := report.log }
  | .error f => { log := report.log ++ [s.renderError ctx f] }

def evaluator (s : Subject) (functions : Registry) (config : Config) : Evaluator :=
  { functions, maxDepth := config.maxDepth, subject := some s.id }

/-- The renderings in all contexts of a subject. If there is no context space, one error says why. -/
def resolve (s : Subject) (functions : Registry) (config : Config) : Renderings :=
  match s.space config.prune with
  | .error f => { log := [.ofFailure f { subject := some s.id }] }
  | .ok space =>
    let attempts := space.contexts.map (s.attempt config (s.evaluator functions config))
    { rendered := attempts.flatMap (·.rendered), log := attempts.flatMap (·.log) }

end Subject

namespace Suite

def resolveSubjects (suite : Suite) (functions : Registry) (config : Config) : List Renderings :=
  suite.subjects.map (·.resolve functions config)

def resolve (suite : Suite) (functions : Registry) (config : Config) :
    ResolvedSuite × List Diagnostic :=
  let perSubject := suite.resolveSubjects functions config
  ((perSubject.flatMap (·.rendered)).foldl ResolvedSuite.insert
      { name := suite.id, configuration := suite.configuration },
    perSubject.flatMap (·.log))

end Suite

namespace SuiteDefinition

/-- The position of the subject that a diagnostic is about; one about no subject comes last. -/
def subjectPosition (d : SuiteDefinition) (diagnostic : Diagnostic) : Nat :=
  d.subjects.findIdx fun s => diagnostic.origin.subject = some s.id

/-- Diagnostics of subjects that need not report in their order, brought into it. -/
def inSubjectOrder (d : SuiteDefinition) (log : List Diagnostic) : List Diagnostic :=
  log.mergeSort fun a b => d.subjectPosition a ≤ d.subjectPosition b

def run (d : SuiteDefinition) (functions : Registry) (config : Config) :
    Report CompileError ResolvedSuite :=
  let compiled := Suite.compile functions d
  match compiled.result with
  | .error e => { log := compiled.log, result := .error e }
  | .ok suite =>
    let (resolved, log) := suite.resolve functions config
    let log := compiled.log ++ log
    { log := if config.parallel then d.inSubjectOrder log else log, result := .ok resolved }

end SuiteDefinition

end Variorum
