import Variorum.Expr.Parser

/-!
# The grammar of expressions

Which token lists are expressions, in strata: a sum of products of operands, each of them a cast
after minus signs, and at the bottom what needs no parentheses. Both levels of binary operators group
to the left. The relation says nothing about how a list is read.
-/

namespace Variorum.Expr

def productOp? : Char → Option BinaryOp
  | '*' => some .mul
  | '/' => some .div
  | '%' => some .rem
  | _ => none

def sumOp? : Char → Option BinaryOp
  | '+' => some .add
  | '-' => some .sub
  | _ => none

/-- The strata, from the tightest. -/
inductive Stratum
  | primary
  | cast
  | unary
  | product
  | sum
  deriving DecidableEq, Repr

def Stratum.rank : Stratum → Nat
  | .primary => 0
  | .cast => 1
  | .unary => 2
  | .product => 3
  | .sum => 4

/-- The tokens of a bound that may be left out. A minus touches its digits. -/
inductive BoundTokens : List Token → Option Bound → Prop
  | absent : BoundTokens [] none
  | digits (ds start) : BoundTokens [⟨.integer ds, start⟩] (some ⟨start, ds⟩)
  | negative (ds start) :
      BoundTokens [⟨.symbol '-', start⟩, ⟨.integer ds, start.next '-'⟩] (some ⟨start, '-' :: ds⟩)

/-- The tokens of a step, which may be left out together with its colon. -/
inductive StepTokens : List Token → Option Bound → Prop
  | absent : StepTokens [] none
  | present {ts b} (start) : BoundTokens ts b → StepTokens (⟨.symbol ':', start⟩ :: ts) b

/-- Lists of tokens with commas between them. -/
inductive Separated : List (List Token) → List Token → Prop
  | nil : Separated [] []
  | single {ts} : Separated [ts] ts
  | comma {ts us rest vs} (start) : Separated (us :: rest) vs →
      Separated (ts :: us :: rest) (ts ++ ⟨.symbol ',', start⟩ :: vs)

/-- The tokens are an expression of the stratum with the given tree. -/
inductive Derives : Stratum → List Token → Expr → Prop
  | name {word} (start) : word ≠ castKeyword → Derives .primary [⟨.word word, start⟩] (.name start.line word)
  | integer (digits start) : Derives .primary [⟨.integer digits, start⟩] (ofInteger start digits)
  | float (numeral start) : Derives .primary [⟨.float numeral, start⟩] (ofFloat start numeral)
  | text (quote raw start) : Derives .primary [⟨.text quote raw, start⟩]
      (.literal start.line (.text (String.ofList (Text.unescape raw))))
  | call {callee ts} {parts : List (List Token × Expr)} (start opened closed) :
      callee ≠ castKeyword → Separated (parts.map (·.1)) ts →
      (∀ part ∈ parts, Derives .sum part.1 part.2) →
      Derives .primary
        (⟨.word callee, start⟩ :: ⟨.symbol '(', opened⟩ :: (ts ++ [⟨.symbol ')', closed⟩]))
        (.call start.line callee (parts.map (·.2)))
  | qualifiedCall {moduleName callee ts} {parts : List (List Token × Expr)}
      (start dot next opened closed) :
      moduleName ≠ castKeyword → callee ≠ castKeyword → Separated (parts.map (·.1)) ts →
      (∀ part ∈ parts, Derives .sum part.1 part.2) →
      Derives .primary
        (⟨.word moduleName, start⟩ :: ⟨.symbol '.', dot⟩ :: ⟨.word callee, next⟩ ::
          ⟨.symbol '(', opened⟩ :: (ts ++ [⟨.symbol ')', closed⟩]))
        (.qualifiedCall start.line moduleName callee (parts.map (·.2)))
  | slice {parameter ts us vs first last step} (start opened colon closed) :
      parameter ≠ castKeyword → BoundTokens ts first → BoundTokens us last → StepTokens vs step →
      Derives .primary
        (⟨.word parameter, start⟩ :: ⟨.symbol '[', opened⟩ ::
          (ts ++ ⟨.symbol ':', colon⟩ :: (us ++ (vs ++ [⟨.symbol ']', closed⟩]))))
        (ofBounds start.line parameter first last step)
  | parens {ts e} (opened closed) : Derives .sum ts e →
      Derives .primary (⟨.symbol '(', opened⟩ :: (ts ++ [⟨.symbol ')', closed⟩])) e
  | cast {ts e word type} (start next) : Derives .cast ts e → CastType.ofKeyword? word = some type →
      Derives .cast (ts ++ [⟨.word castKeyword, start⟩, ⟨.word word, next⟩]) (.cast e.line type e)
  | negation {ts e} (start) : Derives .unary ts e →
      Derives .unary (⟨.symbol '-', start⟩ :: ts) (.negation start.line e)
  | product {ts us left right c op} (start) : Derives .product ts left →
      productOp? c = some op → Derives .unary us right →
      Derives .product (ts ++ ⟨.symbol c, start⟩ :: us) (.binary left.line op left right)
  | sum {ts us left right c op} (start) : Derives .sum ts left → sumOp? c = some op →
      Derives .product us right →
      Derives .sum (ts ++ ⟨.symbol c, start⟩ :: us) (.binary left.line op left right)
  | ofPrimary {ts e} : Derives .primary ts e → Derives .cast ts e
  | ofCast {ts e} : Derives .cast ts e → Derives .unary ts e
  | ofUnary {ts e} : Derives .unary ts e → Derives .product ts e
  | ofProduct {ts e} : Derives .product ts e → Derives .sum ts e

variable {l m : Stratum} {ts : List Token} {e : Expr} {c : Char} {op : BinaryOp}

theorem binaryOp?_eq_some_iff : binaryOp? c = some op ↔ op.symbol = c := by
  constructor
  · intro h
    unfold binaryOp? at h
    split at h <;> cases h <;> rfl
  · rintro rfl
    cases op <;> rfl

theorem productOp?_eq_some_iff : productOp? c = some op ↔ op.symbol = c ∧ op.isProduct = true := by
  constructor
  · intro h
    unfold productOp? at h
    split at h <;> cases h <;> exact ⟨rfl, rfl⟩
  · rintro ⟨rfl, hop⟩
    cases op <;> first | rfl | cases hop

theorem sumOp?_eq_some_iff : sumOp? c = some op ↔ op.symbol = c ∧ op.isProduct = false := by
  constructor
  · intro h
    unfold sumOp? at h
    split at h <;> cases h <;> exact ⟨rfl, rfl⟩
  · rintro ⟨rfl, hop⟩
    cases op <;> first | rfl | cases hop

/-- An expression of a stratum is one of every looser stratum. -/
theorem Derives.mono (h : Derives l ts e) (hle : l.rank ≤ m.rank) : Derives m ts e := by
  have hprimary : Derives .primary ts e → Derives .cast ts e := .ofPrimary
  have hcast : Derives .cast ts e → Derives .unary ts e := .ofCast
  have hunary : Derives .unary ts e → Derives .product ts e := .ofUnary
  have hproduct : Derives .product ts e → Derives .sum ts e := .ofProduct
  cases l <;> cases m <;> simp_all [Stratum.rank]

end Variorum.Expr
