import Variorum.Proofs.Template.Breaks
import Variorum.Proofs.Template.Layout
import Variorum.Proofs.Text.Blank

/-!
# Scanning follows the layout

The scanner takes dollars in pairs and finds what the layout of the text says, up to a marker that is
bad.
-/

namespace Variorum.Marker

variable {line line' line'' k : Nat} {c : Char} {cs cs' rest source after : List Char}
  {pieces pieces' : List Piece} {segments : List Segment} {error : Nat → CompileError}

/-! ## Single markers -/

theorem pieceOf_of_blank (h : ∀ c ∈ source, Text.isBlank c = true) :
    pieceOf line source = .error (blank line) := by
  rw [pieceOf, Text.trimChars_eq_nil_iff.2 h]
  rfl

theorem pieceOf_of_not_blank (h : ∃ c ∈ source, Text.isBlank c = false) :
    pieceOf line source = .ok (.expression (String.ofList (Text.trimChars source))
      (line + (source.takeWhile Text.isBlank).count '\n')) := by
  have hne : Text.trimChars source ≠ [] := by
    rw [Ne, Text.trimChars_eq_nil_iff]
    obtain ⟨c, hc, hblank⟩ := h
    intro hall
    rw [hall c hc] at hblank
    cases hblank
  rw [pieceOf, if_neg (by simpa using hne)]

theorem scan_body {n : Nat} (hn : ∀ rest, body? {} (source ++ '}' :: rest) = some ⟨source, n, rest⟩)
    (line : Nat) (rest : List Char) : scan line ('$' :: '{' :: (source ++ '}' :: rest)) =
      (pieceOf line source).bind fun p => (scan (line + n) rest).map (p :: ·) := by
  rw [scan]
  split
  · rename_i heq
    rw [hn] at heq
    cases heq
  · rename_i b heq
    rw [hn] at heq
    cases heq
    rfl

theorem scan_marker (hsource : Enclosed source) : ∃ n, ∀ line rest,
    scan line ('$' :: '{' :: (source ++ '}' :: rest)) =
      (pieceOf line source).bind fun p => (scan (line + n) rest).map (p :: ·) := by
  obtain ⟨n, hn⟩ := body?_of_enclosed hsource
  exact ⟨n, scan_body hn⟩

theorem Bad.scan (h : Bad after error) : scan line ('$' :: '{' :: after) = .error (error line) := by
  cases h with
  | unterminated hnever =>
      rw [Marker.scan]
      split
      · rfl
      · rename_i b heq
        obtain ⟨hafter, hsource⟩ := enclosed_of_body? heq
        exact absurd hafter (hnever _ _ hsource)
  | blank hafter hsource hblank =>
      obtain ⟨n, hn⟩ := scan_marker hsource
      rw [hafter, hn, pieceOf_of_blank hblank]
      rfl

/-! ## What a scan finds at the front of a text -/

/-- A scan finds the pieces and goes on behind them, maybe on a later line. -/
def Finds (line : Nat) (cs : List Char) (pieces : List Piece) (line' : Nat) (rest : List Char) : Prop :=
  scan line cs = (scan line' rest).map (pieces ++ ·)

theorem finds_nil : Finds line cs [] line cs := by
  unfold Finds
  cases scan line cs <;> rfl

theorem Finds.append (h : Finds line cs pieces line' cs') (h' : Finds line' cs' pieces' line'' rest) :
    Finds line cs (pieces ++ pieces') line'' rest := by
  unfold Finds at *
  rw [h, h']
  cases scan line'' rest with
  | error e => rfl
  | ok ps => simp [Except.map]

theorem finds_char (h : c ≠ '$') : Finds line (c :: cs) [.char c] (if c = '\n' then line + 1 else line) cs := by
  unfold Finds
  rw [scan]
  · rfl
  · rintro cs rfl
    exact absurd rfl h
  · rintro cs rfl
    exact absurd rfl h
  · rintro cs rfl
    exact absurd rfl h

theorem finds_dollar (h : ∀ c ∈ cs.head?, c ≠ '$' ∧ c ≠ '{') :
    Finds line ('$' :: cs) [.char '$'] line cs := by
  unfold Finds
  rw [scan]
  · rfl
  · rintro cs - rfl
    exact (h '$' rfl).1 rfl
  · rintro cs - rfl
    exact (h '$' rfl).1 rfl
  · rintro cs - rfl
    exact (h '{' rfl).2 rfl

theorem finds_pair (h : ∀ c ∈ cs.head?, c ≠ '{') :
    Finds line ('$' :: '$' :: cs) [.char '$', .char '$'] line cs := by
  unfold Finds
  rw [scan]
  · rfl
  · rintro cs rfl
    exact h '{' rfl rfl

theorem finds_escaped : Finds line ('$' :: '$' :: '{' :: cs) [.char '$', .char '{'] line cs := by
  unfold Finds
  rw [scan]
  rfl

/-- The scan goes on behind a marker as many lines further down as were counted in it. -/
theorem finds_body {n : Nat} (hn : ∀ rest, body? {} (source ++ '}' :: rest) = some ⟨source, n, rest⟩)
    (hblank : ∃ c ∈ source, Text.isBlank c = false) (line : Nat) (rest : List Char) :
    Finds line ('$' :: '{' :: (source ++ '}' :: rest))
      [.expression (String.ofList (Text.trimChars source))
        (line + (source.takeWhile Text.isBlank).count '\n')] (line + n) rest := by
  unfold Finds
  rw [scan_body hn, pieceOf_of_not_blank hblank]
  rfl

theorem finds_marker (hsource : Enclosed source) (hblank : ∃ c ∈ source, Text.isBlank c = false)
    (line : Nat) (rest : List Char) :
    ∃ n, Finds line ('$' :: '{' :: (source ++ '}' :: rest))
      [.expression (String.ofList (Text.trimChars source))
        (line + (source.takeWhile Text.isBlank).count '\n')] (line + n) rest := by
  obtain ⟨n, hn⟩ := body?_of_enclosed hsource
  exact ⟨n, finds_body hn hblank line rest⟩

/-! ## Runs of dollars -/

theorem head_run (h : ∀ c ∈ cs.head?, c ≠ '{') : ∀ c ∈ (List.replicate k '$' ++ cs).head?, c ≠ '{' := by
  cases k with
  | zero => exact h
  | succ k =>
      rintro c ⟨⟩
      decide

/-- An even run is taken in pairs, whatever but a brace stands behind it. -/
theorem finds_even (h : ∀ c ∈ cs.head?, c ≠ '{') :
    Finds line (List.replicate (2 * k) '$' ++ cs) (List.replicate (2 * k) (.char '$')) line cs := by
  induction k with
  | zero => exact finds_nil
  | succ k ih => exact Finds.append (finds_pair (head_run h)) ih

theorem head_dollar : ∀ c ∈ ('$' :: cs).head?, c ≠ '{' := by
  rintro c ⟨⟩
  decide

/-- Before the last dollar of an odd run the others are taken in pairs. -/
theorem finds_odd (h : Finds line ('$' :: cs) pieces line' rest) :
    Finds line (List.replicate (2 * k + 1) '$' ++ cs) (List.replicate (2 * k) (.char '$') ++ pieces)
      line' rest := by
  rw [List.replicate_succ', List.append_assoc]
  exact (finds_even head_dollar).append h

theorem finds_run (h : ∀ c ∈ cs.head?, c ≠ '$' ∧ c ≠ '{') :
    Finds line (List.replicate k '$' ++ cs) (List.replicate k (.char '$')) line cs := by
  rcases Nat.mod_two_eq_zero_or_one k with heven | hodd
  · obtain ⟨j, rfl⟩ : ∃ j, k = 2 * j := ⟨k / 2, by omega⟩
    exact finds_even fun c hc => (h c hc).2
  · obtain ⟨j, rfl⟩ : ∃ j, k = 2 * j + 1 := ⟨k / 2, by omega⟩
    rw [List.replicate_succ' (a := Piece.char '$')]
    exact finds_odd (finds_dollar h)

theorem finds_brace : Finds line (List.replicate (2 * k + 2) '$' ++ '{' :: cs)
    (List.replicate (2 * k) (.char '$') ++ [.char '$', .char '{']) line cs := by
  rw [List.replicate_succ', List.append_assoc]
  exact finds_odd finds_escaped

/-! ## Layouts -/

/-- What becomes of a piece in the end. -/
def Piece.segment : Piece → Segment
  | .char c => .copied c
  | .expression source _ => .value source

theorem expressions_char :
    Segment.expressions (.copied c :: segments) = Segment.expressions segments :=
  rfl

theorem expressions_copied : Segment.expressions (List.replicate k (.copied c) ++ segments) =
    Segment.expressions segments := by
  simp [Segment.expressions, List.filterMap_append]

theorem expressions_value {expression : String} :
    Segment.expressions (.value expression :: segments) = expression :: Segment.expressions segments :=
  rfl

theorem count_dollars : (List.replicate k '$').count '\n' = 0 := by
  simp [List.count_replicate]

/-- The line ends in the expressions of a text that a scan does not count. -/
def uncounted : (expressions : List String) → Nat
  | [] => 0
  | expression :: expressions => escapedBreaks none expression.toList + uncounted expressions

/-- A scan finds the segments of the layout and counts the line ends among them, but for the escaped
ones. -/
theorem Lays.finds_lines (h : Lays cs segments rest) (line : Nat) :
    ∃ pieces line' front, pieces.map Piece.segment = segments ∧ cs = front ++ rest ∧
      line' + uncounted (Segment.expressions segments) = line + front.count '\n' ∧
      Finds line cs pieces line' rest := by
  induction h generalizing line with
  | stop => exact ⟨[], line, [], rfl, rfl, rfl, finds_nil⟩
  | @char c _ _ _ hc _ ih =>
      obtain ⟨pieces, line', front, rfl, rfl, hline, hfinds⟩ := ih (if c = '\n' then line + 1 else line)
      refine ⟨_, line', c :: front, rfl, rfl, ?_, (finds_char hc).append hfinds⟩
      rw [expressions_char, hline, List.count_cons]
      by_cases hbreak : c = '\n'
      · simp [hbreak]
        omega
      · simp [hbreak]
  | @dollars k _ _ _ _ hhead _ ih =>
      obtain ⟨pieces, line', front, rfl, rfl, hline, hfinds⟩ := ih line
      refine ⟨_, line', List.replicate k '$' ++ front, by simp [Piece.segment], by simp, ?_,
        (finds_run hhead).append hfinds⟩
      rw [expressions_copied, hline, List.count_append, count_dollars, Nat.zero_add]
  | @brace k _ _ _ hk heven _ ih =>
      obtain ⟨pieces, line', front, rfl, rfl, hline, hfinds⟩ := ih line
      obtain ⟨j, rfl⟩ : ∃ j, k = 2 * j + 2 := ⟨k / 2 - 1, by omega⟩
      refine ⟨_, line', List.replicate (2 * j + 2) '$' ++ '{' :: front,
        by simp [Piece.segment, List.replicate_succ'], by simp, ?_, finds_brace.append hfinds⟩
      rw [expressions_copied, expressions_char, hline, List.count_append, count_dollars, Nat.zero_add,
        List.count_cons_of_ne (by decide)]
  | @marker k source _ _ _ hodd hsource hblank _ ih =>
      obtain ⟨n, hn, hbody⟩ := exists_breaks hsource
      have hmarker := finds_body hbody hblank line
      obtain ⟨pieces, line', front, rfl, rfl, hline, hfinds⟩ := ih (line + n)
      obtain ⟨j, rfl⟩ : ∃ j, k = 2 * j + 1 := ⟨k / 2, by omega⟩
      refine ⟨_, line', List.replicate (2 * j + 1) '$' ++ '{' :: (source ++ '}' :: front),
        by simp [Piece.segment], by simp, ?_, (finds_odd (hmarker _)).append hfinds⟩
      have hexpression : (String.ofList (Text.trimChars source)).toList = Text.trimChars source :=
        String.toList_ofList
      rw [expressions_copied, expressions_value, uncounted, hexpression, escapedBreaks_trim hsource]
      simp only [List.count_append, count_dollars, List.count_cons_of_ne (show '{' ≠ '\n' by decide),
        List.count_cons_of_ne (show '}' ≠ '\n' by decide)]
      omega

/-- A scan finds the segments of the layout. -/
theorem Lays.finds (h : Lays cs segments rest) (line : Nat) :
    ∃ pieces line', pieces.map Piece.segment = segments ∧ Finds line cs pieces line' rest := by
  obtain ⟨pieces, line', -, hsegments, -, -, hfinds⟩ := h.finds_lines line
  exact ⟨pieces, line', hsegments, hfinds⟩

theorem Finds.scan_nil (h : Finds line cs pieces line' []) : scan line cs = .ok pieces := by
  unfold Finds at h
  rw [h, scan]
  exact congrArg Except.ok (List.append_nil pieces)

theorem Finds.scan_bad (h : Finds line cs pieces line' (List.replicate k '$' ++ '{' :: after))
    (hodd : k % 2 = 1) (hbad : Bad after error) : scan line cs = .error (error line') := by
  obtain ⟨j, rfl⟩ : ∃ j, k = 2 * j + 1 := ⟨k / 2, by omega⟩
  rw [List.replicate_succ', List.append_assoc] at h
  have hall := h.append (finds_even head_dollar)
  unfold Finds at hall
  rw [hall, List.singleton_append, hbad.scan]
  rfl

/-- A text is scanned to its end as it is laid out, or up to a marker that is bad. -/
theorem scan_cases (line : Nat) (cs : List Char) :
    (∃ pieces, scan line cs = .ok pieces ∧ Lays cs (pieces.map Piece.segment) []) ∨
    ∃ segments k after error line', Lays cs segments (List.replicate k '$' ++ '{' :: after) ∧
      k % 2 = 1 ∧ Bad after error ∧ scan line cs = .error (error line') := by
  obtain ⟨segments, rest, hlays, hends⟩ := exists_lays cs
  obtain ⟨pieces, line', rfl, hfinds⟩ := hlays.finds line
  rcases hends with rfl | ⟨k, after, error, rfl, hodd, hbad⟩
  · exact .inl ⟨pieces, hfinds.scan_nil, hlays⟩
  · exact .inr ⟨_, k, after, error, line', hlays, hodd, hbad, hfinds.scan_bad hodd hbad⟩

theorem lays_of_scan (h : scan line cs = .ok pieces) : Lays cs (pieces.map Piece.segment) [] := by
  rcases scan_cases line cs with ⟨pieces', hscan, hlays⟩ | ⟨_, _, _, _, _, -, -, -, hscan⟩
  · cases h.symm.trans hscan
    exact hlays
  · cases h.symm.trans hscan

/-- A text has only one layout to its end. -/
theorem Lays.unique {segments' : List Segment} (h : Lays cs segments []) (h' : Lays cs segments' []) :
    segments' = segments := by
  obtain ⟨pieces, _, rfl, hfinds⟩ := h.finds 1
  obtain ⟨pieces', _, rfl, hfinds'⟩ := h'.finds 1
  have hscan := hfinds.scan_nil
  rw [hfinds'.scan_nil] at hscan
  cases hscan
  rfl

/-- No text has more pieces than characters. -/
theorem length_pieces_le (h : scan line cs = .ok pieces) : pieces.length ≤ cs.length := by
  simpa using (lays_of_scan h).length_le

end Variorum.Marker
