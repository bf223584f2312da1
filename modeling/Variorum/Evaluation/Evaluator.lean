import Variorum.Evaluation.Arithmetic
import Variorum.Evaluation.Context
import Variorum.Evaluation.Report
import Variorum.Expr.Printer
import Variorum.Registry.Basic
import Variorum.Slice

/-!
# Evaluation

An expression is evaluated in a context. Where the context selects nothing, the first value is taken
and a warning recorded. A macro call renders a body in a context of its own; how deep calls may nest
is bounded, which is what ends macros that call themselves.
-/

namespace Variorum

/-- The functions that can be called, how deep macro calls may nest, and the subject that warnings are
attributed to. -/
structure Evaluator where
  functions : Registry
  maxDepth : Nat := 256
  subject : Option String := none

/-- A failed evaluation with the expression of the template in which it happened. -/
structure RenderFailure where
  failure : Failure
  expression : String
  line : Nat
  deriving DecidableEq, Repr

/-- How a macro with its arguments is expanded in the context of its call. -/
abbrev Expansion : Type :=
  Macro → List Value → Context → Report Failure Value

/-- A call that was found sound: the body to render and the arguments under their names. -/
structure PreparedCall where
  definition : Macro
  bodyIndex : Nat
  body : Template
  arguments : List (String × Value)

namespace SliceRef

def candidates (s : SliceRef) (symbols : SymbolTable) : Except Failure (List Value) :=
  match symbols.parameter? s.parameter with
  | none => .error (.unknown s.parameter)
  | some p =>
    Slice.select p.values (s.start.map (·.toInt)) (s.stop.map (·.toInt)) s.step.toInt

end SliceRef

/-- The values that an expression selects, which has to be a slice. -/
def Expr.candidates (e : Expr) (symbols : SymbolTable) : Except Failure (List Value) :=
  match e with
  | .slice _ s => s.candidates symbols
  | e => .error (.internal s!"\x60{e.print}\x60 is not a slice")

namespace Evaluator

def warnUnselected (ev : Evaluator) (message : String) (source : Option Expr) :
    Report Failure Unit :=
  .record {
    severity := .warning
    code := Diagnostic.multipleValues
    message
    origin := {
      subject := ev.subject
      source := source.map Expr.print
      line := source.map Expr.line } }

/-- The value of a name: what it is bound to, else the first value of the parameter, else the
expansion of the macro without arguments. -/
def evaluateName (ev : Evaluator) (expand : Expansion) (ctx : Context) (name : String)
    (source : Expr) : Report Failure Value :=
  match ctx.lookup? name with
  | some v => .done v
  | none =>
    match ctx.symbols.parameter? name with
    | some p =>
      match p.values with
      | [] => .fail (.invalidArgument s!"parameter '{name}' has no values")
      | [v] => .done v
      | v :: _ :: _ => do
        ev.warnUnselected
          s!"parameter '{name}' is unbound; using its first value {v.display}" (some source)
        return v
    | none =>
      match ctx.symbols.macro? name with
      | some m => expand m [] ctx
      | none => .fail (.unknown name)

/-- The value of a slice: the one that is selected, else the first of its candidates. -/
def evaluateSlice (ev : Evaluator) (ctx : Context) (s : SliceRef) (source : Expr) :
    Report Failure Value :=
  match ctx.slice? s.key with
  | some v => .done v
  | none => do
    match ← Report.ofExcept (s.candidates ctx.symbols) with
    | [] => .fail (.invalidArgument s!"{s.key} selects no values")
    | [v] => return v
    | v :: _ :: _ =>
      ev.warnUnselected s!"{s.key} is unbound; using its first value {v.display}" (some source)
      return v

/-- The value of a call: macros go before functions. -/
def evaluateCall (ev : Evaluator) (expand : Expansion) (ctx : Context) (callee : String)
    (args : List Value) : Report Failure Value :=
  match ctx.symbols.macro? callee with
  | some m => expand m args ctx
  | none => .ofExcept (ev.functions.call callee args)

mutual

/-- The value of an expression, where macro calls are expanded by `expand`. -/
def evaluateWith (ev : Evaluator) (expand : Expansion) (ctx : Context) :
    Expr → Report Failure Value
  | .literal _ v => .done v
  | .name line identifier => ev.evaluateName expand ctx identifier (.name line identifier)
  | .binary _ op left right => do
    let a ← ev.evaluateWith expand ctx left
    let b ← ev.evaluateWith expand ctx right
    .ofExcept (Value.binary op a b)
  | .negation _ operand => do
    .ofExcept (Value.negate (← ev.evaluateWith expand ctx operand))
  | .call _ callee args => do
    ev.evaluateCall expand ctx callee (← ev.evaluateAll expand ctx args)
  | .qualifiedCall _ moduleName callee args => do
    .ofExcept (ev.functions.callQualified moduleName callee (← ev.evaluateAll expand ctx args))
  | .cast _ type operand => do
    .ofExcept (Value.castTo type (← ev.evaluateWith expand ctx operand))
  | .slice line s => ev.evaluateSlice ctx s (.slice line s)
  | .invalid _ => .fail (.internal "malformed expression reached the evaluator")

def evaluateAll (ev : Evaluator) (expand : Expansion) (ctx : Context) :
    List Expr → Report Failure (List Value)
  | [] => .done []
  | e :: es => do
    let v ← ev.evaluateWith expand ctx e
    let vs ← ev.evaluateAll expand ctx es
    return v :: vs

end

def displayAll (ev : Evaluator) (expand : Expansion) (ctx : Context) :
    List (EmbeddedSource × Expr) → Report RenderFailure (List String)
  | [] => .done []
  | (source, e) :: rest => do
    let v ← (ev.evaluateWith expand ctx e).mapError (⟨·, source.text, e.line⟩)
    let texts ← ev.displayAll expand ctx rest
    return v.display :: texts

def renderWith (ev : Evaluator) (expand : Expansion) (ctx : Context) (t : Template) :
    Report RenderFailure String := do
  return t.fragment.render (← ev.displayAll expand ctx (t.fragment.sources.zip t.exprs))

def checkArity (m : Macro) (args : List Value) : Except Failure Unit :=
  if args.length = m.signature.args.length then .ok ()
  else .error (.wrongArity m.name m.signature.args.length args.length)

def tooDeep (ev : Evaluator) (m : Macro) (ctx : Context) : Failure :=
  .cyclicExpansion (ctx.path ++ [m.name]) ev.maxDepth

/-- The index of the body that a macro is expanded to: the one that is selected, else the first. -/
def chooseIndex (ev : Evaluator) (m : Macro) (ctx : Context) : Report Failure Nat :=
  match ctx.body? m.name with
  | some index => .done index
  | none =>
    match m.bodies with
    | [] => .fail (.invalidArgument s!"macro '{m.name}' has no bodies")
    | [_] => .done 0
    | _ :: _ :: _ => do
      ev.warnUnselected s!"macro '{m.name}' has no body selected; using body 0" none
      return 0

/-- The body that a macro is expanded to, after its index. -/
def chooseBody (ev : Evaluator) (m : Macro) (ctx : Context) : Report Failure (Nat × Template) := do
  let index ← ev.chooseIndex m ctx
  match m.bodies[index]? with
  | some body => return (index, body)
  | none =>
    .fail (.internal
      s!"body {index} selected for macro '{m.name}' with {m.bodies.length} bodies")

/-- Expands a macro, where calls may nest `budget` deep. The rendered body is a text. -/
def expandWithin (ev : Evaluator) : (budget : Nat) → Expansion
  | 0, m, args, ctx => do
    Report.ofExcept (checkArity m args)
    .fail (ev.tooDeep m ctx)
  | budget + 1, m, args, ctx => do
    Report.ofExcept (checkArity m args)
    let (_, body) ← ev.chooseBody m ctx
    let inner := ctx.child m.name (m.signature.args.zip args)
    let text ← (ev.renderWith (ev.expandWithin budget) inner body).mapError (·.failure)
    return .text text

/-- How deep calls may still nest in a context. -/
def budget (ev : Evaluator) (ctx : Context) : Nat :=
  ev.maxDepth - ctx.depth

def evaluate (ev : Evaluator) (ctx : Context) (e : Expr) : Report Failure Value :=
  ev.evaluateWith (ev.expandWithin (ev.budget ctx)) ctx e

def render (ev : Evaluator) (ctx : Context) (t : Template) : Report RenderFailure String :=
  ev.renderWith (ev.expandWithin (ev.budget ctx)) ctx t

def expand (ev : Evaluator) (m : Macro) (args : List Value) (ctx : Context) :
    Report Failure Value :=
  ev.expandWithin (ev.budget ctx) m args ctx

def prepare (ev : Evaluator) (m : Macro) (args : List Value) (ctx : Context) :
    Report Failure PreparedCall := do
  Report.ofExcept (checkArity m args)
  if ev.maxDepth ≤ ctx.depth then .fail (ev.tooDeep m ctx)
  else
    let (index, body) ← ev.chooseBody m ctx
    return ⟨m, index, body, m.signature.args.zip args⟩

end Evaluator

end Variorum
