import Variorum.Evaluation.Evaluator
import Variorum.Proofs.Template.Composition

/-!
# Escaped texts

A text is written as a template by a further dollar before each of its markers. That gives the text back
where an odd number of dollars stands before a brace. An even number becomes an odd one, which opens a
marker.
-/

namespace Variorum

namespace Marker

variable {k line : Nat} {c : Char} {cs after rest : List Char} {pieces : List Piece}
  {segments : List Segment}

/-- A text with a further dollar before each of its markers. -/
def escape : List Char → List Char
  | '$' :: '{' :: cs => '$' :: '$' :: '{' :: escape cs
  | c :: cs => c :: escape cs
  | [] => []

/-- How many dollars a text ends in. -/
def dollarsAtEnd (cs : List Char) : Nat :=
  (cs.reverse.takeWhile (· = '$')).length

/-- A brace is opened right behind an even number of dollars, and not behind none. -/
def HasEvenRun (cs : List Char) : Prop :=
  ∃ before after, cs = before ++ '{' :: after ∧ 0 < dollarsAtEnd before ∧ dollarsAtEnd before % 2 = 0

/-! ## Runs of dollars in escaped texts -/

theorem escape_cons (h : c = '$' → ∀ d ∈ cs.head?, d ≠ '{') : escape (c :: cs) = c :: escape cs := by
  rw [escape]
  rintro tail rfl rfl
  exact h rfl '{' rfl rfl

theorem escape_run (h : ∀ c ∈ cs.head?, c ≠ '{') :
    escape (List.replicate k '$' ++ cs) = List.replicate k '$' ++ escape cs := by
  induction k with
  | zero => rfl
  | succ k ih =>
      rw [List.replicate_succ, List.cons_append, escape_cons fun _ => head_run h, ih, List.cons_append]

theorem escape_plain (hc : c ≠ '$') (h : c = '{' → k = 0) :
    escape (List.replicate k '$' ++ c :: cs) = List.replicate k '$' ++ c :: escape cs := by
  have hcons : escape (c :: cs) = c :: escape cs := escape_cons fun hdollar => absurd hdollar hc
  rcases Nat.eq_zero_or_pos k with rfl | hk
  · exact hcons
  · rw [escape_run, hcons]
    rintro d ⟨⟩ hbrace
    exact absurd (h hbrace) (Nat.ne_of_gt hk)

theorem escape_brace (hk : 0 < k) : escape (List.replicate k '$' ++ '{' :: cs) =
    List.replicate (k + 1) '$' ++ '{' :: escape cs := by
  obtain ⟨j, rfl⟩ : ∃ j, k = j + 1 := ⟨k - 1, by omega⟩
  rw [List.replicate_succ', List.append_assoc, List.singleton_append, escape_run head_dollar, escape,
    List.replicate_succ' (n := j + 1), List.replicate_succ']
  simp

/-! ## Even runs -/

theorem dollarsAtEnd_replicate : dollarsAtEnd (List.replicate k '$') = k := by
  rw [dollarsAtEnd, List.reverse_replicate, List.takeWhile_replicate_eq_filter,
    List.filter_replicate_of_pos rfl, List.length_replicate]

theorem dollarsAtEnd_append (hc : c ≠ '$') (before : List Char) :
    dollarsAtEnd (before ++ c :: cs) = dollarsAtEnd cs := by
  rw [dollarsAtEnd, List.reverse_append, List.reverse_cons, List.append_assoc, List.takeWhile_append]
  split
  · rename_i hall
    rw [List.singleton_append, List.takeWhile_cons_of_neg (by simpa using hc), List.append_nil, ← hall]
    rfl
  · rfl

/-- A brace stands right behind the first run of dollars or behind what ends that run. -/
theorem brace_behind_run {before after : List Char} :
    List.replicate k '$' ++ c :: cs = before ++ '{' :: after →
      (c = '{' ∧ before = List.replicate k '$') ∨
      ∃ rest, before = List.replicate k '$' ++ c :: rest ∧ cs = rest ++ '{' :: after := by
  induction k generalizing before with
  | zero =>
      intro h
      cases before with
      | nil => exact .inl ⟨(List.cons.inj h).1, rfl⟩
      | cons d rest =>
          obtain ⟨rfl, rfl⟩ := List.cons.inj h
          exact .inr ⟨rest, rfl, rfl⟩
  | succ k ih =>
      intro h
      cases before with
      | nil => exact absurd (List.cons.inj h).1 (by decide)
      | cons d before =>
          obtain ⟨rfl, htail⟩ := List.cons.inj h
          rcases ih htail with ⟨rfl, rfl⟩ | ⟨rest, rfl, rfl⟩
          · exact .inl ⟨rfl, rfl⟩
          · exact .inr ⟨rest, rfl, rfl⟩

/-- The first run of dollars is even before a brace, or a later one is. -/
theorem hasEvenRun_run (hc : c ≠ '$') : HasEvenRun (List.replicate k '$' ++ c :: cs) ↔
    (c = '{' ∧ 0 < k ∧ k % 2 = 0) ∨ HasEvenRun cs := by
  constructor
  · rintro ⟨before, after, h, hpos, heven⟩
    rcases brace_behind_run h with ⟨rfl, rfl⟩ | ⟨rest, rfl, rfl⟩
    · rw [dollarsAtEnd_replicate] at hpos heven
      exact .inl ⟨rfl, hpos, heven⟩
    · rw [dollarsAtEnd_append hc] at hpos heven
      exact .inr ⟨rest, after, rfl, hpos, heven⟩
  · rintro (⟨rfl, hk, heven⟩ | ⟨before, after, rfl, hpos, heven⟩)
    · exact ⟨_, cs, rfl, dollarsAtEnd_replicate.symm ▸ hk, dollarsAtEnd_replicate.symm ▸ heven⟩
    · refine ⟨List.replicate k '$' ++ c :: before, after, by simp, ?_⟩
      rw [dollarsAtEnd_append hc]
      exact ⟨hpos, heven⟩

theorem not_hasEvenRun_replicate : ¬HasEvenRun (List.replicate k '$') := by
  rintro ⟨before, after, h, -⟩
  have hbrace : '{' ∈ List.replicate k '$' := h ▸ List.mem_append_right _ List.mem_cons_self
  exact absurd (List.eq_of_mem_replicate hbrace) (by decide)

/-! ## Layouts of escaped texts -/

/-- Dollars before another character than a brace are copied with it. -/
theorem Lays.plain (hc : c ≠ '$') (hbrace : c = '{' → k = 0) (h : Lays cs segments rest) :
    Lays (List.replicate k '$' ++ c :: cs) (List.replicate k (.copied '$') ++ .copied c :: segments)
      rest := by
  rcases Nat.eq_zero_or_pos k with rfl | hk
  · exact .char hc h
  · refine .dollars hk ?_ (.char hc h)
    rintro d ⟨⟩
    exact ⟨hc, fun he => absurd (hbrace he) (Nat.ne_of_gt hk)⟩

/-- What is laid out behind a run of dollars that is not even before a brace is laid out behind the
escaped run. -/
theorem Lays.escape_run (hc : c ≠ '$') (hrun : ¬(c = '{' ∧ 0 < k ∧ k % 2 = 0))
    (h : Lays (escape cs) segments rest) :
    Lays (escape (List.replicate k '$' ++ c :: cs))
      (List.replicate k (.copied '$') ++ .copied c :: segments) rest := by
  by_cases hplain : c = '{' → k = 0
  · rw [escape_plain hc hplain]
    exact h.plain hc hplain
  · obtain ⟨rfl, hk⟩ := Classical.not_imp.1 hplain
    have hpos : 0 < k := Nat.pos_of_ne_zero hk
    have hodd : k % 2 ≠ 0 := fun heven => hrun ⟨rfl, hpos, heven⟩
    rw [escape_brace hpos]
    exact h.brace (Nat.succ_pos k) (by omega)

/-- An escaped text is laid out as the text itself, up to the first marker that an even run opens. The
induction is on the length of the text: a run of dollars is taken together with what ends it. -/
theorem escape_cases (cs : List Char) :
    (¬HasEvenRun cs ∧ Lays (escape cs) (cs.map .copied) []) ∨
    HasEvenRun cs ∧ ∃ segments k after,
      Lays (escape cs) segments (List.replicate k '$' ++ '{' :: after) ∧ k % 2 = 1 := by
  induction hlength : cs.length using Nat.strongRecOn generalizing cs with
  | ind n ih =>
      subst hlength
      obtain ⟨k, tail, rfl, htail⟩ := exists_run cs
      cases tail with
      | nil =>
          refine .inl ⟨by simpa using not_hasEvenRun_replicate, ?_⟩
          rw [Marker.escape_run (by rintro c ⟨⟩)]
          rcases Nat.eq_zero_or_pos k with rfl | hk
          · exact .stop
          · have hdollars : Lays (List.replicate k '$' ++ []) (List.replicate k (.copied '$') ++ []) [] :=
              .dollars hk (by rintro c ⟨⟩) .stop
            simpa [escape] using hdollars
      | cons c tail =>
          have hc : c ≠ '$' := htail c rfl
          rw [hasEvenRun_run hc, List.map_append, List.map_replicate, List.map_cons]
          by_cases hrun : c = '{' ∧ 0 < k ∧ k % 2 = 0
          · obtain ⟨rfl, hk, heven⟩ := hrun
            rw [escape_brace hk]
            exact .inr ⟨.inl ⟨rfl, hk, heven⟩, [], k + 1, _, .stop, by omega⟩
          · have hlength : tail.length < (List.replicate k '$' ++ c :: tail).length := by
              simp only [List.length_append, List.length_cons]
              omega
            rcases ih tail.length hlength tail rfl with
              ⟨hnone, hlays⟩ | ⟨hsome, segments, j, after, hlays, hj⟩
            · exact .inl ⟨fun h => h.elim hrun hnone, hlays.escape_run hc hrun⟩
            · exact .inr ⟨.inr hsome, _, j, after, hlays.escape_run hc hrun, hj⟩

/-! ## Scans of markers -/

/-- Where a marker is opened, a scan fails or finds an expression. -/
theorem sourcesOf_ne_nil (hodd : k % 2 = 1)
    (h : scan line (List.replicate k '$' ++ '{' :: after) = .ok pieces) :
    Fragment.sourcesOf pieces ≠ [] := by
  obtain ⟨j, rfl⟩ : ∃ j, k = 2 * j + 1 := ⟨k / 2, by omega⟩
  rcases bad_or_enclosed after with ⟨error, hbad⟩ | ⟨source, rest, rfl, hsource, hblank⟩
  · rw [Finds.scan_bad finds_nil hodd hbad] at h
    cases h
  · obtain ⟨n, hmarker⟩ := finds_marker hsource hblank line rest
    have hfinds := finds_odd (k := j) hmarker
    unfold Finds at hfinds
    rw [hfinds] at h
    obtain ⟨behind, -, rfl⟩ := Except.map_eq_ok.1 h
    simp [Fragment.sourcesOf]

theorem eq_map_char {cs : List Char} (h : pieces.map Piece.segment = cs.map .copied) :
    pieces = cs.map .char := by
  induction pieces generalizing cs with
  | nil =>
      cases cs with
      | nil => rfl
      | cons c cs => cases h
  | cons p pieces ih =>
      cases cs with
      | nil => cases h
      | cons c cs =>
          obtain ⟨hp, hpieces⟩ := List.cons.inj h
          cases p with
          | char d =>
              cases hp
              rw [ih hpieces, List.map_cons]
          | expression source line => cases hp

end Marker

namespace Template

open Marker

variable {raw : String} {u : Template} {cs : List Char}

/-- The template has no expressions, and it comes to the text wherever it is rendered. -/
structure IsConstantly (u : Template) (t : String) : Prop where
  isConstant : u.fragment.isConstant = true
  render : ∀ (ev : Evaluator) (ctx : Context), ev.render ctx u = .done t

/-- What is scanned without expressions becomes a constant template. -/
theorem exists_compile_plain (h : scan 1 raw.toList = .ok (cs.map .char)) :
    ∃ u, compile raw = .ok u ∧ u.IsConstantly (String.ofList cs) := by
  have hlength : (Fragment.sourcesOf (cs.map .char)).length ≤ Integer.wordCount := by
    rw [sourcesOf_plain]
    exact Nat.zero_le _
  obtain ⟨f, hf, hparts, hsources⟩ := Fragment.exists_parse_of_sources h hlength
  rw [sourcesOf_plain] at hsources
  have hnone : EmbeddedSource.parseAll f.sources = .ok [] := by
    rw [hsources]
    rfl
  obtain ⟨u, hu, -, rfl⟩ := compile_of_parse hf hnone
  refine ⟨u, hu, ⟨by rw [Fragment.isConstant, hsources]; rfl, fun ev ctx => ?_⟩⟩
  have hrender : u.fragment.render [] = String.ofList cs := by
    rw [Fragment.render_eq_join hparts, List.map_map]
    have hcopied := join_copied cs [] []
    rw [List.append_nil, Segment.join, String.append_empty] at hcopied
    exact hcopied
  rw [Evaluator.render, Evaluator.renderWith, hsources, List.zip_nil_left, Evaluator.displayAll]
  exact congrArg Report.done hrender

theorem sourcesOf_of_compile (h : compile raw = .ok u) :
    ∃ pieces, scan 1 raw.toList = .ok pieces ∧ Fragment.sourcesOf pieces = u.fragment.sources := by
  obtain ⟨f, hf, hu⟩ := Except.bind_eq_ok.1 h
  obtain ⟨pieces, hscan, hsources⟩ := Fragment.scan_of_parse hf
  refine ⟨pieces, hscan, ?_⟩
  rw [fragment_of_ofFragment hu, hsources]

/-- An escaped text is a constant template that gives the text back, if no brace in the text is opened
right behind an even number of dollars, and it is none otherwise. -/
theorem compile_escape_iff (t : String) :
    (∃ u, compile (String.ofList (escape t.toList)) = .ok u ∧ u.IsConstantly t) ↔
      ¬HasEvenRun t.toList := by
  rcases escape_cases t.toList with ⟨hnone, hlays⟩ | ⟨hsome, segments, k, after, hlays, hodd⟩
  · refine iff_of_true ?_ hnone
    obtain ⟨pieces, line, hsegments, hfinds⟩ := hlays.finds 1
    have hscan : scan 1 (String.ofList (escape t.toList)).toList = .ok (t.toList.map .char) := by
      rw [String.toList_ofList, hfinds.scan_nil, eq_map_char hsegments]
    have hcompile := exists_compile_plain hscan
    rwa [String.ofList_toList] at hcompile
  · refine iff_of_false ?_ (not_not_intro hsome)
    rintro ⟨u, hu, hconstant⟩
    obtain ⟨pieces, hscan, hsources⟩ := sourcesOf_of_compile hu
    obtain ⟨front, line, -, hfinds⟩ := hlays.finds 1
    unfold Finds at hfinds
    rw [String.toList_ofList, hfinds] at hscan
    obtain ⟨behind, hbehind, rfl⟩ := Except.map_eq_ok.1 hscan
    have hnil : u.fragment.sources = [] := List.isEmpty_iff.1 hconstant.isConstant
    rw [hnil, Fragment.sourcesOf, List.filterMap_append] at hsources
    exact sourcesOf_ne_nil hodd hbehind (List.append_eq_nil_iff.1 hsources).2

/-- Behind two dollars an escaped marker is a marker all the same. -/
theorem compile_escape_dollars :
    String.ofList (escape "$$\x7b".toList) = "$$$\x7b" ∧
      compile "$$$\x7b" = .error (unterminated 1) ∧
      ¬∃ u, compile (String.ofList (escape "$$\x7b".toList)) = .ok u ∧ u.IsConstantly "$$\x7b" := by
  have hcompile : compile "$$$\x7b" = .error (unterminated 1) :=
    Except.error?_eq_some.1 (by decide +kernel)
  refine ⟨by decide, hcompile, ?_⟩
  rintro ⟨u, hu, -⟩
  cases hcompile.symm.trans hu

end Template

end Variorum
