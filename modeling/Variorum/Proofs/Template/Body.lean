import Variorum.Proofs.Expr.Source
import Variorum.Template.Marker

/-!
# Bodies of markers

A marker ends at the first brace that closes it: what stands before has all its braces and quotes in
pairs, and between quotes no brace counts.
-/

namespace Variorum.Marker

/-- Braces stand in pairs, and so do quotes, between which nothing but their own kind counts. -/
inductive Enclosed : List Char → Prop
  | nil : Enclosed []
  | char {c cs} : ¬IsQuote c → c ≠ '{' → c ≠ '}' → Enclosed cs → Enclosed (c :: cs)
  | quoted {quote raw cs} : IsQuote quote → Within quote raw → Enclosed cs →
      Enclosed (quote :: (raw ++ quote :: cs))
  | braces {inner cs} : Enclosed inner → Enclosed cs → Enclosed ('{' :: (inner ++ '}' :: cs))

variable {s : State} {c quote : Char} {cs ds raw : List Char} {b : Body} {m n depth : Nat}

theorem Enclosed.append (h : Enclosed cs) (h' : Enclosed ds) : Enclosed (cs ++ ds) := by
  induction h with
  | nil => exact h'
  | char hquote hopen hclose _ ih => exact .char hquote hopen hclose ih
  | quoted hquote hwithin _ ih =>
      rw [List.cons_append, List.append_assoc]
      exact .quoted hquote hwithin ih
  | braces hinner _ _ ih =>
      rw [List.cons_append, List.append_assoc]
      exact .braces hinner ih

/-! ## What a scan passes over -/

/-- The body with more text before it. -/
def Body.behind (cs : List Char) (breaks : Nat) (b : Body) : Body :=
  ⟨cs ++ b.source, breaks + b.breaks, b.rest⟩

theorem Body.behind_behind : (b.behind cs m).behind ds n = b.behind (ds ++ cs) (n + m) := by
  simp only [behind, List.append_assoc, Nat.add_assoc]

/-- The scan passes over the text and goes on behind it in another state. -/
def Passes (s : State) (cs : List Char) (t : State) : Prop :=
  ∃ n, ∀ tail, body? s (cs ++ tail) = (body? t tail).map (Body.behind cs n)

theorem Passes.nil : Passes s [] s := by
  refine ⟨0, fun tail => ?_⟩
  cases hbody : body? s tail with
  | none => simp [hbody]
  | some b => simp [hbody, Body.behind]

theorem Passes.cons {t : State} (hclose : s.closes c = false) (h : Passes (s.next c) cs t) :
    Passes s (c :: cs) t := by
  obtain ⟨n, hn⟩ := h
  refine ⟨(if s.endsLine c then 1 else 0) + n, fun tail => ?_⟩
  rw [List.cons_append, body?, if_neg (by simp [hclose]), hn, Option.map_map]
  congr 1
  funext b
  simp only [Function.comp, Body.behind, List.cons_append]
  split
  · rw [Nat.add_comm _ 1, Nat.add_assoc]
  · rw [Nat.zero_add]

theorem Passes.append {t u : State} (h : Passes s cs t) (h' : Passes t ds u) : Passes s (cs ++ ds) u := by
  obtain ⟨n, hn⟩ := h
  obtain ⟨m, hm⟩ := h'
  refine ⟨n + m, fun tail => ?_⟩
  rw [List.append_assoc, hn, hm, Option.map_map]
  congr 1
  funext b
  exact Body.behind_behind

theorem next_quote (h : IsQuote quote) :
    State.next ⟨depth, some quote, false⟩ quote = ⟨depth, none, false⟩ := by
  rcases h with rfl | rfl <;> rfl

theorem next_inside (hquote : c ≠ quote) (hescape : c ≠ '\\') :
    State.next ⟨depth, some quote, false⟩ c = ⟨depth, some quote, false⟩ := by
  simp [State.next, hquote, hescape]

theorem passes_within (hquote : IsQuote quote) (h : Within quote raw) :
    Passes ⟨depth, some quote, false⟩ (raw ++ [quote]) ⟨depth, none, false⟩ := by
  induction h with
  | nil =>
      refine .cons rfl ?_
      rw [next_quote hquote]
      exact .nil
  | plain hc hescape _ ih =>
      refine .cons rfl ?_
      rw [next_inside hc hescape]
      exact ih
  | escaped _ ih => exact .cons rfl (.cons rfl ih)

theorem next_plain (hquote : ¬IsQuote c) (hopen : c ≠ '{') (hclose : c ≠ '}') :
    State.next ⟨depth, none, false⟩ c = ⟨depth, none, false⟩ := by
  have hquote' : ¬(c = '"' ∨ c = '\'') := hquote
  simp only [State.next, if_neg hquote', if_neg hopen, if_neg hclose]

theorem next_open (h : IsQuote quote) :
    State.next ⟨depth, none, false⟩ quote = ⟨depth, some quote, false⟩ := by
  rcases h with rfl | rfl <;> rfl

theorem passes_enclosed (h : Enclosed cs) : Passes ⟨depth, none, false⟩ cs ⟨depth, none, false⟩ := by
  induction h generalizing depth with
  | nil => exact .nil
  | char hquote hopen hclose _ ih =>
      refine .cons (by simp [State.closes, hclose]) ?_
      rw [next_plain hquote hopen hclose]
      exact ih
  | @quoted quote raw cs hquote hwithin _ ih =>
      have hclose : State.closes ⟨depth, none, false⟩ quote = false := by
        rcases hquote with rfl | rfl <;> simp [State.closes]
      refine .cons hclose ?_
      rw [next_open hquote, List.append_cons]
      exact (passes_within hquote hwithin).append ih
  | braces _ _ ihInner ih =>
      refine .cons (by simp [State.closes]) (Passes.append ihInner ?_)
      exact .cons (by simp [State.closes]) ih

/-- Behind an enclosed text a closing brace ends the marker. -/
theorem body?_of_enclosed (h : Enclosed cs) :
    ∃ n, ∀ rest, body? {} (cs ++ '}' :: rest) = some ⟨cs, n, rest⟩ := by
  obtain ⟨n, hn⟩ : Passes ⟨0, none, false⟩ cs ⟨0, none, false⟩ := passes_enclosed h
  refine ⟨n, fun rest => ?_⟩
  rw [hn]
  exact congrArg some (by simp [Body.behind])

/-! ## What a scan takes -/

/-- The text closes as many braces as were open, and each part between them is enclosed. -/
def Closes : Nat → List Char → Prop
  | 0, cs => Enclosed cs
  | depth + 1, cs => ∃ inner outer, cs = inner ++ '}' :: outer ∧ Enclosed inner ∧ Closes depth outer

theorem Closes.behind (h : Enclosed ds) (h' : Closes depth cs) : Closes depth (ds ++ cs) := by
  cases depth with
  | zero => exact h.append h'
  | succ depth =>
      obtain ⟨inner, outer, rfl, hinner, houter⟩ := h'
      exact ⟨ds ++ inner, outer, (List.append_assoc ..).symm, h.append hinner, houter⟩

/-- What is still to come in a marker where a scan stands. Outside quotes no backslash is open. -/
def Completes : State → List Char → Prop
  | ⟨depth, none, false⟩, cs => Closes depth cs
  | ⟨depth, some quote, false⟩, cs =>
    ∃ raw outer, cs = raw ++ quote :: outer ∧ Within quote raw ∧ Closes depth outer
  | ⟨depth, some quote, true⟩, cs =>
    ∃ raw outer, cs = raw ++ quote :: outer ∧ Within quote ('\\' :: raw) ∧ Closes depth outer
  | ⟨_, none, true⟩, _ => True

theorem Completes.outside (hclose : State.closes ⟨depth, none, false⟩ c = false)
    (h : Completes (State.next ⟨depth, none, false⟩ c) cs) : Closes depth (c :: cs) := by
  by_cases hquote : IsQuote c
  · rw [next_open hquote] at h
    obtain ⟨raw, outer, rfl, hwithin, houter⟩ := h
    rw [List.append_cons, ← List.cons_append, List.cons_append]
    exact houter.behind (.quoted hquote hwithin .nil)
  by_cases hopen : c = '{'
  · subst hopen
    obtain ⟨inner, outer, rfl, hinner, houter⟩ : Closes (depth + 1) cs := h
    rw [List.append_cons, ← List.cons_append, List.cons_append]
    exact houter.behind (.braces hinner .nil)
  by_cases hbrace : c = '}'
  · subst hbrace
    cases depth with
    | zero => cases hclose
    | succ depth => exact ⟨[], cs, rfl, .nil, h⟩
  rw [next_plain hquote hopen hbrace] at h
  exact Closes.behind (.char hquote hopen hbrace .nil) h

theorem Completes.cons (hclose : s.closes c = false) (h : Completes (s.next c) cs) :
    Completes s (c :: cs) := by
  match s with
  | ⟨depth, none, false⟩ => exact Completes.outside hclose h
  | ⟨depth, some quote, false⟩ =>
      by_cases hescape : c = '\\'
      · subst hescape
        obtain ⟨raw, outer, rfl, hwithin, houter⟩ := h
        exact ⟨'\\' :: raw, outer, rfl, hwithin, houter⟩
      by_cases hquote : c = quote
      · subst hquote
        have hnext : State.next ⟨depth, some c, false⟩ c = ⟨depth, none, false⟩ := by
          simp [State.next, hescape]
        rw [hnext] at h
        exact ⟨[], cs, rfl, .nil, h⟩
      rw [next_inside hquote hescape] at h
      obtain ⟨raw, outer, rfl, hwithin, houter⟩ := h
      exact ⟨c :: raw, outer, rfl, .plain hquote hescape hwithin, houter⟩
  | ⟨depth, some quote, true⟩ =>
      obtain ⟨raw, outer, rfl, hwithin, houter⟩ : Completes ⟨depth, some quote, false⟩ cs := h
      exact ⟨c :: raw, outer, rfl, .escaped hwithin, houter⟩
  | ⟨depth, none, true⟩ => trivial

theorem closes_iff : s.closes c = true ↔ s.quote = none ∧ s.depth = 0 ∧ c = '}' := by
  simp [State.closes, and_assoc]

theorem completes_of_body? (h : body? s cs = some b) :
    cs = b.source ++ '}' :: b.rest ∧ Completes s b.source := by
  induction cs generalizing s b with
  | nil => cases h
  | cons c cs ih =>
      rw [body?] at h
      split at h
      · rename_i hclose
        cases h
        obtain ⟨depth, quote, escaped⟩ := s
        obtain ⟨rfl, rfl, rfl⟩ := closes_iff.1 hclose
        cases escaped with
        | false => exact ⟨rfl, Enclosed.nil⟩
        | true => exact ⟨rfl, trivial⟩
      · rename_i hclose
        obtain ⟨b', hb', rfl⟩ := Option.map_eq_some_iff.1 h
        obtain ⟨rfl, hcompletes⟩ := ih hb'
        exact ⟨rfl, hcompletes.cons (by simpa using hclose)⟩

/-- The body of a marker is enclosed and ends at a closing brace. -/
theorem enclosed_of_body? (h : body? {} cs = some b) : cs = b.source ++ '}' :: b.rest ∧ Enclosed b.source :=
  completes_of_body? h

end Variorum.Marker
