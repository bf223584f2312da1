import Variorum.Symbols.Table

/-!
# Contexts

What is selected while an expression is evaluated. A macro call lays a frame with its arguments over
the frames of its callers, and a look-up goes from the innermost frame outwards.
-/

namespace Variorum

/-- The selections of one level: values of names, bodies of macros, and values of slices. -/
structure Frame where
  bindings : List (String × Value) := []
  bodies : List (String × Nat) := []
  slices : List (String × Value) := []

/-- A macro that is being expanded, and the frame that it was called from. -/
structure Call where
  callee : String
  caller : Frame

/-- The innermost frame and the calls that led to it, the latest first. -/
structure Context where
  symbols : SymbolTable
  frame : Frame := {}
  calls : List Call := []

/-- Pairs with a pair for `key` at their end and no other one. -/
def rebind {α : Type} (key : String) (a : α) (pairs : List (String × α)) : List (String × α) :=
  pairs.filter (·.1 ≠ key) ++ [(key, a)]

def assoc? {α : Type} (key : String) (pairs : List (String × α)) : Option α :=
  (pairs.find? (·.1 = key)).map (·.2)

namespace Frame

def bind (f : Frame) (name : String) (v : Value) : Frame :=
  { f with bindings := rebind name v f.bindings }

def selectBody (f : Frame) (name : String) (index : Nat) : Frame :=
  { f with bodies := rebind name index f.bodies }

def selectSlice (f : Frame) (key : String) (v : Value) : Frame :=
  { f with slices := rebind key v f.slices }

def ofArgs (args : List (String × Value)) : Frame :=
  args.foldl (fun f a => f.bind a.1 a.2) {}

def display (f : Frame) : List (String × String) :=
  f.bindings.map (fun b => (b.1, b.2.display)) ++
    f.bodies.map (fun b => (b.1 ++ "()", s!"body {b.2}")) ++
    f.slices.map (fun b => (b.1, b.2.display))

end Frame

namespace Context

def root (symbols : SymbolTable) : Context :=
  { symbols }

def bind (ctx : Context) (name : String) (v : Value) : Context :=
  { ctx with frame := ctx.frame.bind name v }

/-- Selects a body for every expansion of a macro. -/
def selectBody (ctx : Context) (name : String) (index : Nat) : Context :=
  { ctx with frame := ctx.frame.selectBody name index }

/-- Fixes the value of the slice of a canonical text. -/
def selectSlice (ctx : Context) (key : String) (v : Value) : Context :=
  { ctx with frame := ctx.frame.selectSlice key v }

/-- The context inside an expansion: the arguments hide what the caller has bound to their names, and
all else stays visible. -/
def child (ctx : Context) (callee : String) (args : List (String × Value)) : Context :=
  { ctx with frame := .ofArgs args, calls := ⟨callee, ctx.frame⟩ :: ctx.calls }

def frames (ctx : Context) : List Frame :=
  ctx.frame :: ctx.calls.map (·.caller)

def lookup? (ctx : Context) (name : String) : Option Value :=
  ctx.frames.findSome? fun f => assoc? name f.bindings

def body? (ctx : Context) (name : String) : Option Nat :=
  ctx.frames.findSome? fun f => assoc? name f.bodies

def slice? (ctx : Context) (key : String) : Option Value :=
  ctx.frames.findSome? fun f => assoc? key f.slices

/-- The macros that are being expanded, the outermost first. -/
def path (ctx : Context) : List String :=
  (ctx.calls.map (·.callee)).reverse

def depth (ctx : Context) : Nat :=
  ctx.calls.length

/-- The selections of all frames as text, the outermost first. -/
def bindings (ctx : Context) : List (String × String) :=
  ctx.frames.reverse.flatMap Frame.display

end Context

end Variorum
