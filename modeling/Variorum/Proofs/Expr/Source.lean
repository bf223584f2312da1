import Variorum.Proofs.Expr.Grammar
import Variorum.Proofs.Expr.Scanning

/-!
# The grammar of sources

Which characters are an expression. A word, a number, a bound and a text in quotes are read as far as
they go, and blanks may stand before each of them and before each mark. Nothing else is decided by the
grammar: it does not say which of two rules is tried first, nor how often a part is repeated.
-/

namespace Variorum

/-- A place in a source with the characters from there on. -/
structure Cursor where
  place : Position
  ahead : List Char

/-- The text is of the class, and no longer one at the same place is. -/
def Longest (Class : List Char → Prop) (text rest : List Char) : Prop :=
  Class text ∧ ∀ more, more <+: rest → Class (text ++ more) → more = []

/-- From `a` on stand blanks and then, at `start`, a text of the class that is as long as it can be. It
ends at `b`. -/
structure Cursor.Takes (Class : List Char → Prop) (a : Cursor) (start : Position) (text : List Char)
    (b : Cursor) : Prop where
  split : ∃ blanks, (∀ c ∈ blanks, Token.isSpace c = true) ∧
    a.ahead = blanks ++ (text ++ b.ahead) ∧ start = a.place.after blanks
  place_eq : b.place = start.after text
  longest : Longest Class text b.ahead

/-! ## Classes of texts -/

/-- The characters between quotes: the quote itself and a backslash stand only behind a backslash. -/
inductive Within (quote : Char) : List Char → Prop
  | nil : Within quote []
  | plain {c cs} : c ≠ quote → c ≠ '\\' → Within quote cs → Within quote (c :: cs)
  | escaped {c cs} : Within quote cs → Within quote ('\\' :: c :: cs)

def IsQuote (c : Char) : Prop :=
  c = '"' ∨ c = '\''

def IsDigits (cs : List Char) : Prop :=
  Decimal.isDigits cs = true

/-- Digits that a minus may touch. -/
def IsSigned (cs : List Char) : Prop :=
  IsDigits cs ∨ ∃ ds, cs = '-' :: ds ∧ IsDigits ds

def IsQuoted (cs : List Char) : Prop :=
  ∃ quote raw, IsQuote quote ∧ Within quote raw ∧ cs = quote :: (raw ++ [quote])

/-! ## Literals -/

namespace Decimal

/-- The integer that digits write behind a minus or without one. -/
def signedValue : List Char → Int
  | '-' :: ds => -(digitsValue ds : Int)
  | ds => digitsValue ds

end Decimal

namespace Expr

open Token

inductive LiteralKind
  | integer
  | float
  | bound
  deriving DecidableEq, Repr

def LiteralKind.describe : LiteralKind → String
  | .integer => "integer literal"
  | .float => "float literal"
  | .bound => "slice bound"

/-- A number in a source, which may be too large to have a value. -/
structure Literal where
  kind : LiteralKind
  start : Position
  source : List Char

namespace Literal

def InRange (lit : Literal) : Prop :=
  match lit.kind with
  | .integer | .bound => Integer.InRange (Decimal.signedValue lit.source)
  | .float => (Decimal.readFloat? lit.source).any (·.isFinite) = true

instance : (lit : Literal) → Decidable lit.InRange
  | ⟨.integer, _, source⟩ => inferInstanceAs (Decidable (Integer.InRange (Decimal.signedValue source)))
  | ⟨.bound, _, source⟩ => inferInstanceAs (Decidable (Integer.InRange (Decimal.signedValue source)))
  | ⟨.float, _, source⟩ =>
    inferInstanceAs (Decidable ((Decimal.readFloat? source).any (·.isFinite) = true))

/-- The error of a number that is out of range, at the place where it begins. -/
def error (lit : Literal) : ParseError :=
  ⟨lit.start.line, lit.start.column,
    some s!"{lit.kind.describe} out of range: {String.ofList lit.source}"⟩

/-- The leaf that stands for a number. -/
inductive Means (lit : Literal) : Expr → Prop
  | integer {i : Int64} : lit.kind = .integer → i.toInt = Decimal.signedValue lit.source →
      Means lit (.literal lit.start.line (.integer i))
  | float {x : Float} : lit.kind = .float → Decimal.readFloat? lit.source = some x →
      x.isFinite = true → Means lit (.literal lit.start.line (.float x))
  | outOfRange : ¬lit.InRange → Means lit (.invalid lit.error)

end Literal

/-- The value of a bound that may be left out. -/
inductive BoundMeans : Option Literal → Option Int64 → Prop
  | absent : BoundMeans none none
  | present {lit : Literal} {i : Int64} : i.toInt = Decimal.signedValue lit.source →
      BoundMeans (some lit) (some i)

/-- The leaf that stands for a slice: its step is one if it is left out, and of the bounds that are out
of range the first one counts. -/
inductive SliceMeans (line : Nat) (parameter : String) (first last step : Option Literal) : Expr → Prop
  | inRange {i j k} : BoundMeans first i → BoundMeans last j → BoundMeans step k →
      SliceMeans line parameter first last step (.slice line ⟨parameter, i, j, k.getD 1⟩)
  | outOfRange {lit : Literal} :
      (first.toList ++ last.toList ++ step.toList).find? (¬·.InRange) = some lit →
      SliceMeans line parameter first last step (.invalid lit.error)

/-! ## Phrases -/

/-- A character stands by itself, with blanks before it or without. -/
def Mark (c : Char) (a : Cursor) (start : Position) (b : Cursor) : Prop :=
  a.Takes (· = [c]) start [c] b

/-- A word that is not the one for a cast. -/
def Name (word : String) (a : Cursor) (start : Position) (b : Cursor) : Prop :=
  a.Takes IsWord start word.toList b ∧ word ≠ castKeyword

inductive SpellsBound (a : Cursor) : Cursor → Option Literal → Prop
  | absent : SpellsBound a a none
  | present {b start ds} : a.Takes IsSigned start ds b → SpellsBound a b (some ⟨.bound, start, ds⟩)

inductive SpellsStep (a : Cursor) : Cursor → Option Literal → Prop
  | absent : SpellsStep a a none
  | present {b c step colon} : Mark ':' a colon b → SpellsBound b c step → SpellsStep a c step

mutual

/-- What stands from one place to another is an expression of the stratum with the given tree. Its
numbers are listed in the order in which they stand. -/
inductive Spells : Stratum → Cursor → Cursor → Expr → List Literal → Prop
  | name {a b start word} : Name word a start b → Spells .primary a b (.name start.line word) []
  | integer {a b start ds e} : a.Takes IsDigits start ds b →
      Literal.Means ⟨.integer, start, ds⟩ e → Spells .primary a b e [⟨.integer, start, ds⟩]
  | float {a b start numeral e} : a.Takes FloatNumeral start numeral b →
      Literal.Means ⟨.float, start, numeral⟩ e → Spells .primary a b e [⟨.float, start, numeral⟩]
  | text {a b start quote raw} : a.Takes IsQuoted start (quote :: (raw ++ [quote])) b →
      Spells .primary a b (.literal start.line (.text (String.ofList (Text.unescape raw)))) []
  | call {a b c d f start opened closed callee args lits} : Name callee a start b →
      Mark '(' b opened c → SpellsArgs c d args lits → Mark ')' d closed f →
      Spells .primary a f (.call start.line callee args) lits
  | qualifiedCall {a b c d f g h start dot next opened closed moduleName callee args lits} :
      Name moduleName a start b → Mark '.' b dot c → Name callee c next d → Mark '(' d opened f →
      SpellsArgs f g args lits → Mark ')' g closed h →
      Spells .primary a h (.qualifiedCall start.line moduleName callee args) lits
  | slice {a b c d f g h i start opened colon closed parameter first last step e} :
      Name parameter a start b → Mark '[' b opened c → SpellsBound c d first → Mark ':' d colon f →
      SpellsBound f g last → SpellsStep g h step → Mark ']' h closed i →
      SliceMeans start.line parameter first last step e →
      Spells .primary a i e (first.toList ++ last.toList ++ step.toList)
  | parens {a b c d opened closed e lits} : Mark '(' a opened b → Spells .sum b c e lits →
      Mark ')' c closed d → Spells .primary a d e lits
  | cast {a b c d start next word type e lits} : Spells .cast a b e lits →
      b.Takes IsWord start castKeyword.toList c → c.Takes IsWord next word.toList d →
      CastType.ofKeyword? word = some type → Spells .cast a d (.cast e.line type e) lits
  | negation {a b c start e lits} : Mark '-' a start b → Spells .unary b c e lits →
      Spells .unary a c (.negation start.line e) lits
  | product {a b c d start sign op left right lits lits'} : Spells .product a b left lits →
      Mark sign b start c → productOp? sign = some op → Spells .unary c d right lits' →
      Spells .product a d (.binary left.line op left right) (lits ++ lits')
  | sum {a b c d start sign op left right lits lits'} : Spells .sum a b left lits →
      Mark sign b start c → sumOp? sign = some op → Spells .product c d right lits' →
      Spells .sum a d (.binary left.line op left right) (lits ++ lits')
  | ofPrimary {a b e lits} : Spells .primary a b e lits → Spells .cast a b e lits
  | ofCast {a b e lits} : Spells .cast a b e lits → Spells .unary a b e lits
  | ofUnary {a b e lits} : Spells .unary a b e lits → Spells .product a b e lits
  | ofProduct {a b e lits} : Spells .product a b e lits → Spells .sum a b e lits

/-- Sums with commas between them, or nothing. -/
inductive SpellsArgs : Cursor → Cursor → List Expr → List Literal → Prop
  | none {a} : SpellsArgs a a [] []
  | some {a b es lits} : SpellsList a b es lits → SpellsArgs a b es lits

/-- One sum or more, with commas between them. -/
inductive SpellsList : Cursor → Cursor → List Expr → List Literal → Prop
  | single {a b e lits} : Spells .sum a b e lits → SpellsList a b [e] lits
  | comma {a b c d start e es lits lits'} : Spells .sum a b e lits → Mark ',' b start c →
      SpellsList c d es lits' → SpellsList a d (e :: es) (lits ++ lits')

end

/-- The source, from its line on and but for blanks at its end, is an expression with the given tree
and numbers. -/
def Spelled (source : String) (line : Nat) (e : Expr) (lits : List Literal) : Prop :=
  ∃ b, Spells .sum ⟨⟨line, 1⟩, source.toList⟩ b e lits ∧ ∀ c ∈ b.ahead, Token.isSpace c = true

end Expr

end Variorum
