import Variorum.Expr.Printer
import Variorum.Proofs.Expr.Grammar

/-!
# The table of operators gives the strata

A list of items is grouped as the table of operators says, and what it groups are the strata of the
grammar: an expression is a sum exactly if its items, taken flat from its tokens, are grouped to its tree.
-/

namespace Variorum

namespace Operator

theorem level_pos (o : Operator) : 0 < o.level :=
  Nat.succ_pos _

theorem level_binary_lt (op : BinaryOp) : (binary op).level < negation.level := by
  cases op <;> decide

theorem level_negation_lt : negation.level < cast.level := by
  decide

end Operator

namespace Expr

/-! ## What the table says -/

/-- The items are a tree whose operators are of the level or bind more tightly. A binary operator has its
own level on its left and only tighter ones on its right. -/
inductive Groups : Nat → List Item → Expr → Prop
  | operand (k e) : Groups k [.operand e] e
  | negation {xs e} (line) : Groups Operator.negation.level xs e →
      Groups Operator.negation.level (.negation line :: xs) (.negation line e)
  | cast {xs e} (type) : Groups Operator.cast.level xs e →
      Groups Operator.cast.level (xs ++ [.cast type]) (.cast e.line type e)
  | binary {xs ys left right} (op) : Groups (Operator.binary op).level xs left →
      Groups ((Operator.binary op).level + 1) ys right →
      Groups (Operator.binary op).level (xs ++ .binary op :: ys) (.binary left.line op left right)
  | tighter {k xs e} : Groups (k + 1) xs e → Groups k xs e

/-- How tightly an item holds what stands on its left. -/
def Item.level : Item → Nat
  | .operand _ | .negation _ => 0
  | .cast _ => Operator.cast.level
  | .binary op => (Operator.binary op).level

/-- The item in front does not hold more tightly than the level what stands on its left. -/
def Looser (k : Nat) (xs : List Item) : Prop :=
  ∀ x ∈ xs.head?, x.level ≤ k

/-- What comes next in a list of items. -/
inductive Turn
  | operand
  | operator

/-- The tokens are the items, in their order: an operand after any number of minus signs, and behind it any
number of casts, then a binary operator and the next operand, or nothing. -/
inductive Flat : Turn → List Token → List Item → Prop
  | nil : Flat .operator [] []
  | negation {ts xs} (start) : Flat .operand ts xs →
      Flat .operand (⟨.symbol '-', start⟩ :: ts) (.negation start.line :: xs)
  | operand {ts us e xs} : Derives .primary ts e → Flat .operator us xs →
      Flat .operand (ts ++ us) (.operand e :: xs)
  | cast {ts xs word type} (start next) : CastType.ofKeyword? word = some type → Flat .operator ts xs →
      Flat .operator (⟨.word castKeyword, start⟩ :: ⟨.word word, next⟩ :: ts) (.cast type :: xs)
  | binary {ts xs c op} (start) : binaryOp? c = some op → Flat .operand ts xs →
      Flat .operator (⟨.symbol c, start⟩ :: ts) (.binary op :: xs)

variable {e left right : Expr} {op : BinaryOp} {type : CastType} {j k m n floor : Nat}
  {xs ys rest : List Item} {ts us vs : List Token}

theorem Groups.mono (h : Groups k xs e) (hle : j ≤ k) : Groups j xs e := by
  induction hle with
  | refl => exact h
  | step _ ih => exact ih h.tighter

theorem Groups.join (hleft : Groups k xs left) (hop : (Operator.binary op).level = k)
    (hright : Groups (k + 1) ys right) :
    Groups k (xs ++ .binary op :: ys) (.binary left.line op left right) := by
  subst hop
  exact .binary op hleft hright

theorem looser_nil : Looser k [] := by
  intro x hx
  cases hx

theorem looser_cons {x : Item} (h : x.level ≤ k) : Looser k (x :: xs) := by
  intro y hy
  cases hy
  exact h

theorem Looser.mono (h : Looser j xs) (hle : j ≤ k) : Looser k xs :=
  fun x hx => Nat.le_trans (h x hx) hle

/-- No item holds as tightly as a minus sign, and more tightly only a cast. -/
theorem Looser.below_negation (h : Looser Operator.negation.level xs) :
    Looser (Operator.negation.level - 1) xs := by
  intro x hx
  have hle := h x hx
  cases x with
  | operand | negation => exact Nat.zero_le _
  | cast => exact absurd hle (Nat.not_le.2 Operator.level_negation_lt)
  | binary op => exact Nat.le_sub_one_of_lt (Operator.level_binary_lt op)

theorem looser_cast : Looser Operator.cast.level xs := by
  intro x _
  cases x with
  | operand | negation => exact Nat.zero_le _
  | cast => exact Nat.le_refl _
  | binary op => exact Nat.le_of_lt (Nat.lt_trans (Operator.level_binary_lt op) Operator.level_negation_lt)

/-! ## Steps of the grouping -/

theorem climb_cast (h : floor < Operator.cast.level) :
    climb (n + 1) floor e (.cast type :: xs) = climb n floor (.cast e.line type e) xs := by
  rw [climb, if_pos h]

theorem climb_binary (h : floor < (Operator.binary op).level)
    (hright : group n (Operator.binary op).level xs = some (right, rest)) :
    climb (n + 1) floor e (.binary op :: xs) = climb n floor (.binary e.line op e right) rest := by
  rw [climb, if_pos h, hright]
  rfl

theorem climb_looser (h : Looser floor xs) (hn : xs.length < n) :
    climb n floor e xs = some (e, xs) := by
  obtain ⟨n, rfl⟩ : ∃ m, n = m + 1 := ⟨n - 1, by omega⟩
  cases xs with
  | nil => rfl
  | cons x xs =>
      have hx : ¬floor < x.level := Nat.not_lt.2 (h x rfl)
      cases x with
      | operand | negation => rfl
      | cast => exact if_neg hx
      | binary => exact if_neg hx

/-! ## Every grouping is found -/

/-- The grouping comes to the tree, whatever stands behind it, and goes on from there. -/
theorem Groups.exists_climb (h : Groups k xs e) (hlen : xs.length + rest.length < n) (hfloor : floor < k)
    (hrest : Looser k rest) :
    ∃ m, rest.length < m ∧ group n floor (xs ++ rest) = climb m floor e rest := by
  induction h generalizing n floor rest with
  | operand k e =>
      simp only [List.length_singleton] at hlen
      obtain ⟨n, rfl⟩ : ∃ m, n = m + 1 := ⟨n - 1, by omega⟩
      exact ⟨n, by omega, by rw [List.singleton_append, group]⟩
  | negation line h ih =>
      simp only [List.length_cons] at hlen
      obtain ⟨n, rfl⟩ : ∃ m, n = m + 1 := ⟨n - 1, by omega⟩
      obtain ⟨m, hm, hgroup⟩ := ih (by omega : _ < n) (Nat.sub_one_lt_of_lt (Operator.level_pos _)) hrest
      rw [climb_looser hrest.below_negation hm] at hgroup
      refine ⟨n, by omega, ?_⟩
      rw [List.cons_append, group, hgroup]
      rfl
  | @cast xs e type h ih =>
      simp only [List.length_append, List.length_singleton] at hlen
      have hlen' : xs.length + (Item.cast type :: rest).length < n := by
        simp only [List.length_cons]
        omega
      obtain ⟨m, hm, hgroup⟩ := ih hlen' hfloor looser_cast
      simp only [List.length_cons] at hm
      obtain ⟨m, rfl⟩ : ∃ j, m = j + 1 := ⟨m - 1, by omega⟩
      refine ⟨m, by omega, ?_⟩
      rw [List.append_assoc, List.singleton_append, hgroup, climb_cast hfloor]
  | @binary xs ys left right op _ _ ihl ihr =>
      simp only [List.length_append, List.length_cons] at hlen
      have hlen' : xs.length + (Item.binary op :: (ys ++ rest)).length < n := by
        simp only [List.length_cons, List.length_append]
        omega
      obtain ⟨m, hm, hleft⟩ := ihl hlen' hfloor (looser_cons (Nat.le_refl _))
      simp only [List.length_cons, List.length_append] at hm
      obtain ⟨m, rfl⟩ : ∃ j, m = j + 1 := ⟨m - 1, by omega⟩
      obtain ⟨l, hl, hright⟩ := ihr (by omega : _ < m) (Nat.lt_succ_self _) (hrest.mono (Nat.le_succ _))
      rw [climb_looser hrest hl] at hright
      refine ⟨m, by omega, ?_⟩
      rw [List.append_assoc, List.cons_append, hleft, climb_binary hfloor hright]
  | tighter _ ih =>
      exact ih hlen (Nat.lt_succ_of_lt hfloor) (hrest.mono (Nat.le_succ _))

/-! ## Only groupings are found -/

/-- What was grouped came from the front, and what is left does not belong to it. -/
def Cuts (floor : Nat) (xs : List Item) (e : Expr) (rest : List Item) : Prop :=
  ∃ ys, xs = ys ++ rest ∧ Groups (floor + 1) ys e ∧ Looser floor rest

theorem Groups.cuts (h : Groups k ys e) (hfloor : floor < k) (hrest : Looser floor rest) :
    Cuts floor (ys ++ rest) e rest :=
  ⟨ys, rfl, h.mono hfloor, hrest⟩

mutual

theorem cuts_group : {n floor : Nat} → {xs rest : List Item} → {e : Expr} →
    floor < Operator.negation.level → group n floor xs = some (e, rest) → Cuts floor xs e rest
  | n + 1, floor, .operand e :: xs, rest, e', hfloor, h => by
      rw [group] at h
      have hlt := Nat.lt_trans hfloor Operator.level_negation_lt
      exact cuts_climb hlt (.operand _ e) looser_cast h
  | n + 1, floor, .negation line :: xs, rest, e', hfloor, h => by
      rw [group, Option.bind_eq_bind, Option.bind_eq_some_iff] at h
      obtain ⟨⟨e, xs'⟩, hgroup, hclimb⟩ := h
      have hlt : Operator.negation.level - 1 < Operator.negation.level :=
        Nat.sub_one_lt_of_lt (Operator.level_pos _)
      obtain ⟨ys, rfl, hys, hrest⟩ := cuts_group hlt hgroup
      exact cuts_climb hfloor (.negation line hys) (hrest.mono (Nat.le_of_lt hlt)) hclimb

/-- The tree on the left goes on being grouped, as long as what follows it binds no more tightly than it. -/
theorem cuts_climb : {n floor k : Nat} → {ys xs rest : List Item} → {left e : Expr} → floor < k →
    Groups k ys left → Looser k xs → climb n floor left xs = some (e, rest) →
      Cuts floor (ys ++ xs) e rest
  | n + 1, floor, k, ys, [], rest, left, e, hfloor, hleft, _, h => by
      cases h
      exact hleft.cuts hfloor looser_nil
  | n + 1, floor, k, ys, .operand _ :: xs, rest, left, e, hfloor, hleft, _, h => by
      cases h
      exact hleft.cuts hfloor (looser_cons (Nat.zero_le _))
  | n + 1, floor, k, ys, .negation _ :: xs, rest, left, e, hfloor, hleft, _, h => by
      cases h
      exact hleft.cuts hfloor (looser_cons (Nat.zero_le _))
  | n + 1, floor, k, ys, .cast type :: xs, rest, left, e, hfloor, hleft, hxs, h => by
      rw [climb] at h
      split at h
      · rename_i hlt
        have hcast := Groups.cast type (hleft.mono (hxs _ rfl))
        have hcuts := cuts_climb hlt hcast looser_cast h
        rwa [List.append_assoc] at hcuts
      · rename_i hlt
        cases h
        exact hleft.cuts hfloor (looser_cons (Nat.not_lt.1 hlt))
  | n + 1, floor, k, ys, .binary op :: xs, rest, left, e, hfloor, hleft, hxs, h => by
      rw [climb] at h
      split at h
      · rename_i hlt
        rw [Option.bind_eq_bind, Option.bind_eq_some_iff] at h
        obtain ⟨⟨right, xs'⟩, hgroup, hclimb⟩ := h
        obtain ⟨zs, rfl, hright, hrest⟩ := cuts_group (Operator.level_binary_lt op) hgroup
        have hbinary := Groups.binary op (hleft.mono (hxs _ rfl)) hright
        have hcuts := cuts_climb hlt hbinary hrest hclimb
        rwa [List.append_assoc] at hcuts
      · rename_i hlt
        cases h
        exact hleft.cuts hfloor (looser_cons (Nat.not_lt.1 hlt))

end

/-- A list of items is grouped to a tree exactly if that is what the table says. -/
theorem tree?_eq_some_iff : tree? xs = some e ↔ Groups 1 xs e := by
  constructor
  · intro h
    unfold tree? at h
    split at h
    · rename_i e' hgroup
      cases h
      obtain ⟨ys, rfl, hys, -⟩ := cuts_group (Operator.level_pos _) hgroup
      rwa [List.append_nil]
    · cases h
  · intro h
    have hlen : xs.length + ([] : List Item).length < xs.length + 1 := Nat.lt_succ_self _
    obtain ⟨m, hm, hgroup⟩ := h.exists_climb hlen Nat.one_pos looser_nil
    rw [List.append_nil, climb_looser looser_nil hm] at hgroup
    rw [tree?, hgroup]

/-! ## Items of tokens -/

variable {l : Stratum} {turn : Turn}

theorem Flat.append (h : Flat turn us xs) (hrest : Flat .operator vs ys) :
    Flat turn (us ++ vs) (xs ++ ys) := by
  induction h with
  | nil => exact hrest
  | negation start _ ih => exact .negation start ih
  | operand h _ ih =>
      rw [List.append_assoc]
      exact .operand h ih
  | cast start next htype _ ih => exact .cast start next htype ih
  | binary start hop _ ih => exact .binary start hop ih

/-- Where no operand is missing, the tokens can be cut between any two items. -/
theorem Flat.cut (h : Flat turn ts (xs ++ ys)) (hys : ∀ us, ¬Flat .operand us ys) :
    ∃ us vs, ts = us ++ vs ∧ Flat turn us xs ∧ Flat .operator vs ys := by
  induction xs generalizing turn ts with
  | nil =>
      cases turn with
      | operand => exact absurd h (hys ts)
      | operator => exact ⟨[], ts, rfl, .nil, h⟩
  | cons x xs ih =>
      cases h with
      | negation start h =>
          obtain ⟨us, vs, rfl, hxs, hys⟩ := ih h
          exact ⟨_ :: us, vs, rfl, .negation start hxs, hys⟩
      | operand hprimary h =>
          obtain ⟨us, vs, rfl, hxs, hys⟩ := ih h
          exact ⟨_ ++ us, vs, (List.append_assoc ..).symm, .operand hprimary hxs, hys⟩
      | cast start next htype h =>
          obtain ⟨us, vs, rfl, hxs, hys⟩ := ih h
          exact ⟨_ :: _ :: us, vs, rfl, .cast start next htype hxs, hys⟩
      | binary start hop h =>
          obtain ⟨us, vs, rfl, hxs, hys⟩ := ih h
          exact ⟨_ :: us, vs, rfl, .binary start hop hxs, hys⟩

/-! ## Strata and levels -/

/-- The level of the operators that an expression of the stratum may have outside parentheses. -/
def Stratum.level : Stratum → Nat
  | .sum => (Operator.binary .add).level
  | .product => (Operator.binary .mul).level
  | .unary => Operator.negation.level
  | .cast => Operator.cast.level
  | .primary => Operator.cast.level + 1

theorem rank_le_of_level_le {l m : Stratum} (h : m.level ≤ l.level) : l.rank ≤ m.rank := by
  revert h
  cases l <;> cases m <;> decide

theorem level_product (h : op.isProduct = true) :
    (Operator.binary op).level = Stratum.product.level := by
  cases op <;> first | rfl | cases h

theorem level_sum (h : op.isProduct = false) :
    (Operator.binary op).level = Stratum.sum.level := by
  cases op <;> first | rfl | cases h

/-! ## Groupings are the strata -/

theorem Derives.exists_items (h : Derives l ts e) :
    ∃ xs, Flat .operand ts xs ∧ Groups l.level xs e := by
  have hprimary : ∀ {ts e}, Derives .primary ts e →
      ∃ xs, Flat .operand ts xs ∧ Groups Stratum.primary.level xs e := by
    intro ts e h
    have hflat := Flat.operand h .nil
    rw [List.append_nil] at hflat
    exact ⟨_, hflat, .operand _ e⟩
  induction h with
  | name start hword => exact hprimary (.name start hword)
  | integer digits start => exact hprimary (.integer digits start)
  | float numeral start => exact hprimary (.float numeral start)
  | text quote raw start => exact hprimary (.text quote raw start)
  | call start opened closed hword hsep hparts _ =>
      exact hprimary (.call start opened closed hword hsep hparts)
  | qualifiedCall start dot next opened closed hmodule hcallee hsep hparts _ =>
      exact hprimary (.qualifiedCall start dot next opened closed hmodule hcallee hsep hparts)
  | slice start opened colon closed hword hfirst hlast hstep =>
      exact hprimary (.slice start opened colon closed hword hfirst hlast hstep)
  | parens opened closed h _ => exact hprimary (.parens opened closed h)
  | cast start next _ htype ih =>
      obtain ⟨xs, hflat, hgroups⟩ := ih
      exact ⟨_, hflat.append (.cast start next htype .nil), hgroups.cast _⟩
  | negation start _ ih =>
      obtain ⟨xs, hflat, hgroups⟩ := ih
      exact ⟨_, .negation start hflat, hgroups.negation _⟩
  | product start _ hop _ ihl ihr =>
      obtain ⟨xs, hxs, hleft⟩ := ihl
      obtain ⟨ys, hys, hright⟩ := ihr
      obtain ⟨hsymbol, hop⟩ := productOp?_eq_some_iff.1 hop
      have hflat := hxs.append (.binary start (binaryOp?_eq_some_iff.2 hsymbol) hys)
      exact ⟨_, hflat, hleft.join (level_product hop) hright⟩
  | sum start _ hop _ ihl ihr =>
      obtain ⟨xs, hxs, hleft⟩ := ihl
      obtain ⟨ys, hys, hright⟩ := ihr
      obtain ⟨hsymbol, hop⟩ := sumOp?_eq_some_iff.1 hop
      have hflat := hxs.append (.binary start (binaryOp?_eq_some_iff.2 hsymbol) hys)
      exact ⟨_, hflat, hleft.join (level_sum hop) hright⟩
  | ofPrimary _ ih | ofCast _ ih | ofUnary _ ih | ofProduct _ ih =>
      obtain ⟨xs, hflat, hgroups⟩ := ih
      exact ⟨xs, hflat, hgroups.tighter⟩

theorem Groups.derives (h : Groups k xs e) (hle : l.level ≤ k) (hflat : Flat .operand ts xs) :
    Derives l ts e := by
  induction h generalizing l ts with
  | operand =>
      cases hflat with
      | operand hprimary hrest =>
          cases hrest
          rw [List.append_nil]
          exact hprimary.mono (Nat.zero_le _)
  | negation line _ ih =>
      cases hflat with
      | negation start hflat =>
          have hoperand := ih (l := .unary) (Nat.le_refl _) hflat
          exact (Derives.negation start hoperand).mono (rank_le_of_level_le hle)
  | cast type _ ih =>
      obtain ⟨us, vs, rfl, hxs, hcast⟩ := hflat.cut fun _ h => nomatch h
      cases hcast with
      | cast start next htype hnil =>
          cases hnil
          have hoperand := ih (l := .cast) (Nat.le_refl _) hxs
          exact (Derives.cast start next hoperand htype).mono (rank_le_of_level_le hle)
  | binary op _ _ ihl ihr =>
      obtain ⟨us, vs, rfl, hxs, hbinary⟩ := hflat.cut fun _ h => nomatch h
      cases hbinary with
      | binary start hop hys =>
          have hsymbol := binaryOp?_eq_some_iff.1 hop
          cases hproduct : op.isProduct with
          | true =>
              have hlevel := level_product hproduct
              have hleft := ihl (l := .product) (Nat.le_of_eq hlevel.symm) hxs
              have hright := ihr (l := .unary) (by rw [hlevel]; decide) hys
              rw [hlevel] at hle
              exact (Derives.product start hleft (productOp?_eq_some_iff.2 ⟨hsymbol, hproduct⟩) hright).mono
                (rank_le_of_level_le hle)
          | false =>
              have hlevel := level_sum hproduct
              have hleft := ihl (l := .sum) (Nat.le_of_eq hlevel.symm) hxs
              have hright := ihr (l := .product) (by rw [hlevel]; decide) hys
              rw [hlevel] at hle
              exact (Derives.sum start hleft (sumOp?_eq_some_iff.2 ⟨hsymbol, hproduct⟩) hright).mono
                (rank_le_of_level_le hle)
  | tighter _ ih => exact ih (Nat.le_succ_of_le hle) hflat

/-- Reading by the table gives the strata: the tokens are a sum with the tree exactly if their items are
grouped to it. -/
theorem derives_sum_iff : Derives .sum ts e ↔ ∃ xs, Flat .operand ts xs ∧ tree? xs = some e := by
  simp only [tree?_eq_some_iff]
  constructor
  · exact Derives.exists_items
  · rintro ⟨xs, hflat, hgroups⟩
    exact hgroups.derives (Nat.le_refl _) hflat

/-! ## Every list of items has a tree -/

/-- The grouping comes to a tree, and stops before an operator or at the end. -/
def Stops (xs : List Item) (result : Option (Expr × List Item)) : Prop :=
  ∃ e us rest, result = some (e, rest) ∧ Flat .operator us rest ∧ rest.length ≤ xs.length

theorem Stops.mono {result : Option (Expr × List Item)} (h : Stops xs result)
    (hle : xs.length ≤ ys.length) : Stops ys result := by
  obtain ⟨e, us, rest, hresult, hrest, hlen⟩ := h
  exact ⟨e, us, rest, hresult, hrest, Nat.le_trans hlen hle⟩

mutual

theorem stops_group : {n floor : Nat} → {xs : List Item} → {ts : List Token} → Flat .operand ts xs →
    xs.length < n → Stops xs (group n floor xs)
  | n + 1, floor, _, _, .operand _ h, hlen => by
      rw [group]
      exact (stops_climb h (Nat.lt_of_succ_lt_succ hlen)).mono (Nat.le_succ _)
  | n + 1, floor, _, _, .negation start h, hlen => by
      have hlen := Nat.lt_of_succ_lt_succ hlen
      obtain ⟨e, us, rest, hgroup, hrest, hle⟩ := stops_group h hlen
      rw [group, hgroup]
      exact (stops_climb hrest (Nat.lt_of_le_of_lt hle hlen)).mono (Nat.le_succ_of_le hle)

theorem stops_climb : {n floor : Nat} → {e : Expr} → {xs : List Item} → {ts : List Token} →
    Flat .operator ts xs → xs.length < n → Stops xs (climb n floor e xs)
  | n + 1, floor, e, _, _, .nil, _ => ⟨e, [], [], rfl, .nil, Nat.le_refl _⟩
  | n + 1, floor, e, _, _, .cast start next htype h, hlen => by
      rw [climb]
      split
      · exact (stops_climb h (Nat.lt_of_succ_lt_succ hlen)).mono (Nat.le_succ _)
      · exact ⟨e, _, _, rfl, .cast start next htype h, Nat.le_refl _⟩
  | n + 1, floor, e, _, _, .binary start hop h, hlen => by
      have hlen' := Nat.lt_of_succ_lt_succ hlen
      rw [climb]
      split
      · obtain ⟨right, us, rest, hgroup, hrest, hle⟩ := stops_group h hlen'
        rw [hgroup]
        exact (stops_climb hrest (Nat.lt_of_le_of_lt hle hlen')).mono (Nat.le_succ_of_le hle)
      · exact ⟨e, _, _, rfl, .binary start hop h, Nat.le_refl _⟩

end

/-- Items that take turns as they should always have a tree: no source is refused by the table. -/
theorem Flat.exists_tree (h : Flat .operand ts xs) : ∃ e, tree? xs = some e := by
  have hstops : Stops xs (group (xs.length + 1) 0 xs) := stops_group h (Nat.lt_succ_self _)
  obtain ⟨e, us, rest, hgroup, hrest, -⟩ := hstops
  obtain ⟨ys, -, -, hlooser⟩ := cuts_group (Operator.level_pos _) hgroup
  cases hrest with
  | nil => exact ⟨e, by rw [tree?, hgroup]⟩
  | cast => exact absurd (hlooser _ rfl) (Nat.not_le.2 (Operator.level_pos .cast))
  | binary => exact absurd (hlooser _ rfl) (Nat.not_le.2 (Operator.level_pos _))

/-- Which tokens are an expression does not depend on the table, which decides only about the tree. -/
theorem exists_derives_iff : (∃ e, Derives .sum ts e) ↔ ∃ xs, Flat .operand ts xs := by
  constructor
  · rintro ⟨e, h⟩
    obtain ⟨xs, hflat, -⟩ := derives_sum_iff.1 h
    exact ⟨xs, hflat⟩
  · rintro ⟨xs, hflat⟩
    obtain ⟨e, htree⟩ := hflat.exists_tree
    exact ⟨e, derives_sum_iff.2 ⟨xs, hflat, htree⟩⟩

/-! ## Parentheses -/

/-- An operand is printed in parentheses exactly if the table says that it binds more loosely, or as loosely
and on the right. -/
theorem needsParens_binary {line : Nat} {inner op : BinaryOp} {onRight : Bool} :
    needsParens op onRight (.binary line inner left right) = true ↔
      (Operator.binary inner).level < (Operator.binary op).level ∨
        onRight = true ∧ (Operator.binary inner).level = (Operator.binary op).level := by
  rw [needsParens]
  cases inner <;> cases op <;> revert onRight <;> decide

end Expr

end Variorum
