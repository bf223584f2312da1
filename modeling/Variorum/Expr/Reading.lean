import Variorum.Expr.Token

/-!
# Readings of a token list

A reading takes a part from the front of a token list or fails, and remembers the farthest place
where a part was looked for in vain. That place is where a source that cannot be read goes wrong.
-/

namespace Variorum

/-- What a reading came to: the part with the tokens after it, if it was found, and the number of
tokens that were left at the farthest miss. -/
structure Attempt (α : Type) where
  found : Option (α × List Token)
  miss : Option Nat := none

def Attempt.map {α β : Type} (f : α → β) (a : Attempt α) : Attempt β where
  found := a.found.map fun p => (f p.1, p.2)
  miss := a.miss

/-- The farther of two misses is the one with fewer tokens left. -/
def fartherMiss : Option Nat → Option Nat → Option Nat
  | none, m => m
  | m, none => m
  | some m, some n => some (min m n)

/-- A way to take a part from the front of a token list. -/
def Reading (α : Type) : Type :=
  List Token → Attempt α

namespace Reading

def done {α : Type} (a : α) : Reading α :=
  fun ts => { found := some (a, ts) }

/-- Finds nothing, and does not count as a miss. -/
def refuse {α : Type} : Reading α :=
  fun _ => { found := none }

/-- Finds nothing, and counts as a miss. -/
def missing {α : Type} : Reading α :=
  fun ts => { found := none, miss := some ts.length }

/-- Reads `p` and then, behind it, what `f` makes of it. -/
def andThen {α β : Type} (p : Reading α) (f : α → Reading β) : Reading β :=
  fun ts =>
    match p ts with
    | ⟨none, miss⟩ => ⟨none, miss⟩
    | ⟨some (a, rest), miss⟩ =>
      let next := f a rest
      { next with miss := fartherMiss miss next.miss }

instance : Monad Reading where
  pure := done
  bind := andThen

def or {α : Type} (p q : Reading α) : Reading α :=
  fun ts =>
    match p ts with
    | ⟨some found, miss⟩ => ⟨some found, miss⟩
    | ⟨none, miss⟩ =>
      let next := q ts
      { next with miss := fartherMiss miss next.miss }

def optional {α : Type} (p : Reading α) : Reading (Option α) :=
  or (some <$> p) (done none)

/-- Takes a character that stands for itself; its absence is no miss. -/
def symbol (c : Char) : Reading Unit
  | t :: ts => if t.isSymbol c then done () ts else refuse ts
  | [] => refuse []

/-- Takes a name; its absence is a miss. -/
def identifier : Reading String
  | ⟨.word s, start⟩ :: ts => if s = castKeyword then missing (⟨.word s, start⟩ :: ts) else done s ts
  | ts => missing ts

/-! ## What composed readings find -/

variable {α β : Type} {p q : Reading α} {f : α → Reading β} {ts : List Token}

@[simp] theorem found_done (a : α) : (done a ts).found = some (a, ts) := rfl

@[simp] theorem found_map (f : α → β) (attempt : Attempt α) :
    (attempt.map f).found = attempt.found.map fun r => (f r.1, r.2) := rfl

@[simp] theorem found_pure (a : α) : ((pure a : Reading α) ts).found = some (a, ts) := rfl

@[simp] theorem found_refuse : ((refuse : Reading α) ts).found = none := rfl

@[simp] theorem found_missing : ((missing : Reading α) ts).found = none := rfl

@[simp] theorem found_bind :
    ((p >>= f) ts).found = (p ts).found.bind fun r => (f r.1 r.2).found := by
  show (andThen p f ts).found = _
  unfold andThen
  split
  · rename_i h
    rw [h]
    rfl
  · rename_i h
    rw [h]
    rfl

@[simp] theorem found_or : ((p.or q) ts).found = (p ts).found.or (q ts).found := by
  unfold Reading.or
  split
  · rename_i h
    rw [h]
    rfl
  · rename_i h
    rw [h]
    rfl

@[simp] theorem found_optional : (optional p ts).found =
    some (((p ts).found.map fun r => (some r.1, r.2)).getD (none, ts)) := by
  have hmap : ((some <$> p) ts).found = (p ts).found.bind fun r => some (some r.1, r.2) := found_bind
  rw [optional, found_or, hmap]
  cases (p ts).found <;> rfl

@[simp] theorem found_symbol_cons (c : Char) (t : Token) :
    (symbol c (t :: ts)).found = if t.isSymbol c then some ((), ts) else none := by
  simp only [symbol]
  split <;> rfl

@[simp] theorem found_symbol_nil (c : Char) : (symbol c []).found = none := rfl

end Reading

end Variorum
