import Variorum.Proofs.Template.Body

/-!
# The layout of template texts

Which characters of a template are copied and where values go. Only dollars before an opening brace
decide about that: of a run of them all but the last are copied, and then an even run leaves a brace
and an odd one opens a marker.
-/

namespace Variorum.Marker

/-- A character that is copied, or the place where the value of an expression goes. -/
inductive Segment
  | copied (c : Char)
  | value (expression : String)
  deriving DecidableEq, Repr

namespace Segment

/-- The expressions whose values go somewhere, in their order. -/
def expressions (segments : List Segment) : List String :=
  segments.filterMap fun
    | .copied _ => none
    | .value expression => some expression

/-- The text with values in their places. -/
def join : List Segment → List String → String
  | [], _ => ""
  | .copied c :: segments, values => String.singleton c ++ join segments values
  | .value _ :: segments, v :: values => v ++ join segments values
  | .value _ :: segments, [] => join segments []

end Segment

/-- At the front of a text, up to `rest`, stand the given segments. A run of dollars is taken as a
whole. -/
inductive Lays : List Char → List Segment → List Char → Prop
  | stop {cs} : Lays cs [] cs
  | char {c cs segments rest} : c ≠ '$' → Lays cs segments rest →
      Lays (c :: cs) (.copied c :: segments) rest
  | dollars {k cs segments rest} : 0 < k → (∀ c ∈ cs.head?, c ≠ '$' ∧ c ≠ '{') →
      Lays cs segments rest →
      Lays (List.replicate k '$' ++ cs) (List.replicate k (.copied '$') ++ segments) rest
  | brace {k cs segments rest} : 0 < k → k % 2 = 0 → Lays cs segments rest →
      Lays (List.replicate k '$' ++ '{' :: cs)
        (List.replicate (k - 1) (.copied '$') ++ .copied '{' :: segments) rest
  | marker {k source cs segments rest} : k % 2 = 1 → Enclosed source →
      (∃ c ∈ source, Text.isBlank c = false) → Lays cs segments rest →
      Lays (List.replicate k '$' ++ '{' :: (source ++ '}' :: cs))
        (List.replicate (k - 1) (.copied '$') ++
          .value (String.ofList (Text.trimChars source)) :: segments) rest

/-- Behind the brace that opens it a marker is never closed, or there is nothing in it. -/
inductive Bad (after : List Char) : (Nat → CompileError) → Prop
  | unterminated : (∀ source rest, Enclosed source → after ≠ source ++ '}' :: rest) →
      Bad after unterminated
  | blank {source rest} : after = source ++ '}' :: rest → Enclosed source →
      (∀ c ∈ source, Text.isBlank c = true) → Bad after blank

variable {k line : Nat} {c : Char} {cs after source rest : List Char} {segments : List Segment}
  {error : Nat → CompileError}

theorem Lays.length_le (h : Lays cs segments rest) : segments.length + rest.length ≤ cs.length := by
  induction h with
  | stop => simp
  | char _ _ ih =>
      simp only [List.length_cons]
      omega
  | dollars _ _ _ ih =>
      simp only [List.length_append, List.length_replicate]
      omega
  | brace hk _ _ ih =>
      simp only [List.length_append, List.length_replicate, List.length_cons]
      omega
  | marker hk _ _ _ ih =>
      simp only [List.length_append, List.length_replicate, List.length_cons]
      omega

/-! ## Every text has a layout, up to a bad marker -/

theorem exists_run (cs : List Char) :
    ∃ k tail, cs = List.replicate k '$' ++ tail ∧ ∀ c ∈ tail.head?, c ≠ '$' := by
  induction cs with
  | nil => exact ⟨0, [], rfl, by rintro c ⟨⟩⟩
  | cons c cs ih =>
      by_cases hc : c = '$'
      · obtain ⟨k, tail, rfl, htail⟩ := ih
        exact ⟨k + 1, tail, by rw [hc, List.replicate_succ, List.cons_append], htail⟩
      · refine ⟨0, c :: cs, rfl, ?_⟩
        rintro d ⟨⟩
        exact hc

theorem bad_or_enclosed (after : List Char) : (∃ error, Bad after error) ∨
    ∃ source rest, after = source ++ '}' :: rest ∧ Enclosed source ∧
      ∃ c ∈ source, Text.isBlank c = false := by
  cases hbody : body? {} after with
  | none =>
      refine .inl ⟨_, .unterminated ?_⟩
      rintro source rest hsource rfl
      obtain ⟨n, hn⟩ := body?_of_enclosed hsource
      rw [hn] at hbody
      cases hbody
  | some b =>
      obtain ⟨hafter, hsource⟩ := enclosed_of_body? hbody
      by_cases hblank : ∀ c ∈ b.source, Text.isBlank c = true
      · exact .inl ⟨_, .blank hafter hsource hblank⟩
      · refine .inr ⟨b.source, b.rest, hafter, hsource, ?_⟩
        simpa using hblank

/-- A layout comes to its end at the end of the text or before a marker that is bad. -/
def Ends (rest : List Char) : Prop :=
  rest = [] ∨ ∃ k after error, rest = List.replicate k '$' ++ '{' :: after ∧ k % 2 = 1 ∧ Bad after error

/-- The induction is on the length of the text: a run of dollars is taken together with what it
opens. -/
theorem exists_lays (cs : List Char) : ∃ segments rest, Lays cs segments rest ∧ Ends rest := by
  induction hlength : cs.length using Nat.strongRecOn generalizing cs with
  | ind n ih =>
      subst hlength
      obtain ⟨k, tail, rfl, htail⟩ := exists_run cs
      simp only [List.length_append, List.length_replicate] at ih
      cases tail with
      | nil =>
          by_cases hk : 0 < k
          · exact ⟨_, [], .dollars hk (by rintro c ⟨⟩) .stop, .inl rfl⟩
          · obtain rfl : k = 0 := by omega
            exact ⟨[], [], .stop, .inl rfl⟩
      | cons c tail =>
          have hdollar : c ≠ '$' := htail c rfl
          obtain ⟨segments, rest, hlays, hends⟩ := ih tail.length (by simp only [List.length_cons]; omega)
            tail rfl
          rcases Nat.eq_zero_or_pos k with rfl | hk
          · exact ⟨_, rest, .char hdollar hlays, hends⟩
          by_cases hbrace : c = '{'
          · subst hbrace
            rcases Nat.mod_two_eq_zero_or_one k with heven | hodd
            · exact ⟨_, rest, .brace hk heven hlays, hends⟩
            rcases bad_or_enclosed tail with ⟨error, hbad⟩ | ⟨source, after, rfl, hsource, hblank⟩
            · exact ⟨[], _, .stop, .inr ⟨k, tail, error, rfl, hodd, hbad⟩⟩
            · obtain ⟨segments, rest, hlays, hends⟩ := ih after.length
                (by simp only [List.length_cons, List.length_append]; omega) after rfl
              exact ⟨_, rest, .marker hodd hsource hblank hlays, hends⟩
          · have hhead : ∀ d ∈ (c :: tail).head?, d ≠ '$' ∧ d ≠ '{' := by
              rintro d ⟨⟩
              exact ⟨hdollar, hbrace⟩
            exact ⟨_, rest, .dollars hk hhead (.char hdollar hlays), hends⟩

end Variorum.Marker
