import Variorum.Expr.Operators
import Variorum.Expr.Reading

/-!
# Reading an expression

An expression is operands with binary operators between them, each operand a primary between any number of
minus signs and any number of casts. These items are read one after the other, and grouped by the table of
operators.
-/

namespace Variorum

namespace Text

/-- The text that stands between quotes: a backslash takes the next character as it is, except that
three letters name a line feed, a tabulator and a carriage return. -/
def unescape : List Char → List Char
  | '\\' :: c :: cs =>
    (if c = 'n' then '\n' else if c = 't' then '\t' else if c = 'r' then '\r' else c) :: unescape cs
  | c :: cs => c :: unescape cs
  | [] => []

end Text

namespace Expr

open Reading

def outOfRange (what : String) (start : Position) (source : List Char) : Expr :=
  .invalid ⟨start.line, start.column, some s!"{what} out of range: {String.ofList source}"⟩

def ofInteger (start : Position) (digits : List Char) : Expr :=
  match Decimal.readInteger? digits with
  | some i => .literal start.line (.integer i)
  | none => outOfRange "integer literal" start digits

def ofFloat (start : Position) (numeral : List Char) : Expr :=
  match Decimal.readFloat? numeral with
  | some x =>
    if x.isFinite then .literal start.line (.float x) else outOfRange "float literal" start numeral
  | none => outOfRange "float literal" start numeral

structure Bound where
  start : Position
  source : List Char

/-- The integer of a bound that may be left out, or the bound if it is too large. -/
def Bound.value? : Option Bound → Except Bound (Option Int64)
  | none => .ok none
  | some b =>
    match Decimal.readInteger? b.source with
    | some i => .ok (some i)
    | none => .error b

/-- The slice with the given bounds; its step is one if it is left out. -/
def ofBounds (line : Nat) (parameter : String) (start stop step : Option Bound) : Expr :=
  let selection := do
    let start ← Bound.value? start
    let stop ← Bound.value? stop
    let step ← Bound.value? step
    return SliceRef.mk parameter start stop (step.getD 1)
  match selection with
  | .ok selection => .slice line selection
  | .error b => outOfRange "slice bound" b.start b.source

/-- A bound is digits, after a minus that touches them or none. Where a float stands, its digits are
a bound that nothing can follow. -/
def bound : Reading Bound
  | ⟨.integer ds, start⟩ :: ts => done ⟨start, ds⟩ ts
  | ⟨.float _, _⟩ :: ts => refuse ts
  | ⟨.symbol '-', start⟩ :: ⟨lexeme, next⟩ :: ts =>
    if next = start.next '-' then
      match lexeme with
      | .integer ds => done ⟨start, '-' :: ds⟩ ts
      | .float _ => refuse ts
      | _ => missing (⟨.symbol '-', start⟩ :: ⟨lexeme, next⟩ :: ts)
    else missing (⟨.symbol '-', start⟩ :: ⟨lexeme, next⟩ :: ts)
  | ts => missing ts

def sliceTail (line : Nat) (parameter : String) : Reading Expr := do
  symbol '['
  let start ← optional bound
  symbol ':'
  let stop ← optional bound
  let step ← optional do
    symbol ':'
    optional bound
  symbol ']'
  return ofBounds line parameter start stop step.join

def moreArgs (inner : Reading Expr) : Nat → Reading (List Expr)
  | 0 => done []
  | n + 1 =>
    or
      (do
        symbol ','
        let e ← inner
        let es ← moreArgs inner n
        return e :: es)
      (done [])

def arguments (inner : Reading Expr) (n : Nat) : Reading (List Expr) := do
  symbol '('
  let args ← optional do
    let e ← inner
    let es ← moreArgs inner n
    return e :: es
  symbol ')'
  return args.getD []

/-- What a name begins: a call of a module's function, a call, a slice, or the name alone. -/
def named (inner : Reading Expr) (n : Nat) (line : Nat) (word : String) : Reading Expr :=
  or
    (do
      symbol '.'
      let callee ← identifier
      let args ← arguments inner n
      return .qualifiedCall line word callee args)
    (or (do return .call line word (← arguments inner n))
      (or (sliceTail line word) (done (.name line word))))

/-- An expression without an operator outside parentheses. -/
def primary (inner : Reading Expr) (n : Nat) : Reading Expr
  | ⟨.word word, start⟩ :: ts =>
    if word = castKeyword then missing (⟨.word word, start⟩ :: ts)
    else named inner n start.line word ts
  | ⟨.integer digits, start⟩ :: ts => done (ofInteger start digits) ts
  | ⟨.float numeral, start⟩ :: ts => done (ofFloat start numeral) ts
  | ⟨.text _ raw, start⟩ :: ts =>
    done (.literal start.line (.text (String.ofList (Text.unescape raw)))) ts
  | ⟨.symbol '(', _⟩ :: ts =>
    (do
      let e ← inner
      symbol ')'
      return e : Reading Expr) ts
  | ts => missing ts

/-- The casts behind a primary. -/
def casts : Reading (List Item)
  | ⟨.word s, start⟩ :: ⟨.word type, next⟩ :: ts =>
    if s = castKeyword then
      match CastType.ofKeyword? type with
      | some type => (casts ts).map (.cast type :: ·)
      | none => { found := some ([], ⟨.word s, start⟩ :: ⟨.word type, next⟩ :: ts)
                  miss := some (ts.length + 1) }
    else { found := some ([], ⟨.word s, start⟩ :: ⟨.word type, next⟩ :: ts)
           miss := some (ts.length + 2) }
  | ⟨.word s, start⟩ :: ts =>
    { found := some ([], ⟨.word s, start⟩ :: ts)
      miss := some (if s = castKeyword then ts.length else ts.length + 1) }
  | ts => { found := some ([], ts), miss := some ts.length }

/-- A primary and its casts after any number of minus signs. -/
def operand (inner : Reading Expr) (n : Nat) : Reading (List Item)
  | ⟨.symbol '-', start⟩ :: ts => (operand inner n ts).map (.negation start.line :: ·)
  | ts =>
    (do
      let e ← primary inner n
      return .operand e :: (← casts) : Reading (List Item)) ts

def binaryOp? : Char → Option BinaryOp
  | '+' => some .add
  | '-' => some .sub
  | '*' => some .mul
  | '/' => some .div
  | '%' => some .rem
  | _ => none

/-- Takes a binary operator; its absence is no miss of its own. -/
def operator : Reading BinaryOp
  | ⟨.symbol c, _⟩ :: ts =>
    match binaryOp? c with
    | some op => done op ts
    | none => refuse ts
  | ts => refuse ts

/-- A binary operator and what it joins, or nothing. -/
def joined (more : Reading (List Item)) : Reading (List Item) :=
  or
    (do
      let op ← operator
      return .binary op :: (← more))
    (done [])

/-- At most `n` parts with binary operators between them. -/
def items (part : Reading (List Item)) : Nat → Reading (List Item)
  | 0 => refuse
  | n + 1 => do
    let first ← part
    return first ++ (← joined (items part n))

/-- An expression of at most `n` tokens: its items, as the table of operators groups them. Every list of
parts and every nesting takes a token for each further part or level, so that `n` bounds them all. -/
def expression : Nat → Reading Expr
  | 0 => refuse
  | n + 1 => do
    match tree? (← items (operand (expression n) n) (n + 1)) with
    | some e => done e
    | none => refuse

/-- The place of the token after which `left` others are left, or the end of the source. -/
def placeOf (tokens : List Token) (stop : Position) (left : Nat) : Position :=
  match tokens[tokens.length - left]? with
  | some t => t.start
  | none => stop

def parse (source : String) (line : Nat) : Except ParseError Expr :=
  let start : Position := ⟨line, 1⟩
  let tokens := Token.scan start source.toList
  match expression (tokens.length + 1) tokens with
  | ⟨some (e, []), _⟩ =>
    match e.errors with
    | [] => .ok e
    | error :: _ => .error error
  | ⟨_, miss⟩ =>
    let place := placeOf tokens (start.after source.toList) (miss.getD tokens.length)
    .error { line := place.line, column := place.column }

end Expr

end Variorum
