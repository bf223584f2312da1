import Mathlib.Data.List.Nodup
import Variorum.Proofs.Except
import Variorum.Proofs.Expr.Scanning
import Variorum.Proofs.Text.Blank
import Variorum.Proofs.Text.Search
import Variorum.Symbols.Signature

/-!
# How signatures are written

A signature is a name and, between parentheses, the names of its arguments with commas between them,
each name with any blanks around it. It is read from every text of this form and from no other one, and
its printed form is one of them.
-/

namespace Variorum.Signature

open Text

/-! ## Written forms -/

/-- The text is a name with blanks around it. -/
def Padded (name : String) (cs : List Char) : Prop :=
  ∃ lead trail, (∀ c ∈ lead, isBlank c = true) ∧ (∀ c ∈ trail, isBlank c = true) ∧
    cs = lead ++ (name.toList ++ trail)

/-- The text is one name after the other with commas between them. -/
inductive Lists : List String → List Char → Prop
  | single {name cs} : Padded name cs → Lists [name] cs
  | comma {name names cs ds} : Padded name cs → Lists names ds → Lists (name :: names) (cs ++ ',' :: ds)

/-- What stands between the parentheses: the arguments, or nothing but blanks if there are none. -/
inductive ListsArgs : List String → List Char → Prop
  | none {cs} : (∀ c ∈ cs, isBlank c = true) → ListsArgs [] cs
  | some {names cs} : Lists names cs → ListsArgs names cs

/-- The text is the signature, with blanks around it and around each of its names. -/
def Writes (s : Signature) (cs : List Char) : Prop :=
  ∃ name args trail, Padded s.name name ∧ ListsArgs s.args args ∧ (∀ c ∈ trail, isBlank c = true) ∧
    cs = name ++ '(' :: (args ++ ')' :: trail)

/-- The names can be declared: they are identifiers, and no two arguments have the same one. -/
structure WellNamed (s : Signature) : Prop where
  isIdentifier : ∀ x ∈ s.name :: s.args, isIdentifier x = true
  nodup : s.args.Nodup

variable {s : Signature} {name word : String} {names args seen : List String} {cs ds : List Char}
  {text : String} {c : Char}

/-! ## Names between blanks -/

theorem wordPart_of_isIdentifier (h : isIdentifier word = true) (hc : c ∈ word.toList) :
    Token.isWordPart c = true :=
  (isIdentifier_iff.1 h).1.wordPart c hc

theorem not_blank_of_wordPart (h : Token.isWordPart c = true) : isBlank c = false := by
  obtain ⟨hlow, hhigh⟩ := Token.wordPart_range h
  simp [isBlank]
  omega

/-- Parentheses and commas stand before all characters of names. -/
theorem not_mem_of_padded (hname : isIdentifier name = true) (h : Padded name cs)
    (hblank : isBlank c = false) (hlow : c.toNat < 48) : c ∉ cs := by
  obtain ⟨lead, trail, hlead, htrail, rfl⟩ := h
  rw [List.mem_append, List.mem_append]
  rintro (hc | hc | hc)
  · rw [hlead c hc] at hblank
    cases hblank
  · have := (Token.wordPart_range (wordPart_of_isIdentifier hname hc)).1
    omega
  · rw [htrail c hc] at hblank
    cases hblank

theorem exists_not_blank_of_padded (hname : isIdentifier name = true) (h : Padded name cs) :
    ∃ c ∈ cs, isBlank c = false := by
  obtain ⟨lead, trail, -, -, rfl⟩ := h
  obtain ⟨c, rest, hcons⟩ := List.exists_cons_of_ne_nil (isIdentifier_iff.1 hname).1.ne_nil
  have hc : c ∈ name.toList := hcons ▸ List.mem_cons_self
  exact ⟨c, by simp [hc], not_blank_of_wordPart (wordPart_of_isIdentifier hname hc)⟩

theorem trimChars_padded (hname : isIdentifier name = true) (h : Padded name cs) :
    trimChars cs = name.toList := by
  obtain ⟨lead, trail, hlead, htrail, rfl⟩ := h
  have hchars : ∀ c ∈ name.toList, isBlank c = false := fun c hc =>
    not_blank_of_wordPart (wordPart_of_isIdentifier hname hc)
  exact trimChars_between hlead htrail (isIdentifier_iff.1 hname).1.ne_nil
    (fun c hc => hchars c (List.mem_of_head? hc)) fun c hc => hchars c (List.mem_of_getLast? hc)

theorem padded_trimChars (cs : List Char) : Padded (String.ofList (trimChars cs)) cs := by
  obtain ⟨trail, htrail, hcs⟩ := exists_trimChars cs
  refine ⟨cs.takeWhile isBlank, trail, fun c => List.all_eq_true.1 List.all_takeWhile c, htrail, ?_⟩
  rwa [String.toList_ofList]

theorem padded_self (name : String) : Padded name name.toList :=
  ⟨[], [], List.forall_mem_nil _, List.forall_mem_nil _, (List.append_nil _).symm⟩

theorem Padded.behind {lead : List Char} (hlead : ∀ c ∈ lead, isBlank c = true) (h : Padded name cs) :
    Padded name (lead ++ cs) := by
  obtain ⟨lead', trail, hlead', htrail, rfl⟩ := h
  exact ⟨lead ++ lead', trail, List.forall_mem_append.2 ⟨hlead, hlead'⟩, htrail,
    (List.append_assoc ..).symm⟩

/-! ## Lists of arguments -/

theorem Lists.behind {lead : List Char} (hlead : ∀ c ∈ lead, isBlank c = true) (h : Lists names cs) :
    Lists names (lead ++ cs) := by
  cases h with
  | single hpadded => exact .single (hpadded.behind hlead)
  | comma hpadded hnames =>
      rw [← List.append_assoc]
      exact .comma (hpadded.behind hlead) hnames

/-- Whatever stands between commas is taken for a name. -/
theorem lists_splitAt (cs : List Char) :
    Lists ((splitAt ',' cs).map fun part => String.ofList (trimChars part)) cs := by
  cases hcut : cutAt? ',' cs with
  | none =>
      rw [splitAt_of_not_mem (cutAt?_eq_none.1 hcut)]
      exact .single (padded_trimChars cs)
  | some p =>
      obtain ⟨hcs, hfront⟩ := cutAt?_eq_some.1 hcut
      rw [hcs, splitAt_append hfront]
      exact .comma (padded_trimChars p.1) (lists_splitAt p.2)
termination_by cs.length
decreasing_by
  rw [hcs, List.length_append, List.length_cons]
  omega

theorem Lists.map_splitAt (h : Lists names cs) (hnames : ∀ x ∈ names, isIdentifier x = true) :
    ((splitAt ',' cs).map fun part => String.ofList (trimChars part)) = names := by
  induction h with
  | single hpadded =>
      have hname := hnames _ List.mem_cons_self
      rw [splitAt_of_not_mem (not_mem_of_padded hname hpadded rfl (by decide)), List.map_singleton,
        trimChars_padded hname hpadded, String.ofList_toList]
  | comma hpadded _ ih =>
      obtain ⟨hname, hnames⟩ := List.forall_mem_cons.1 hnames
      rw [splitAt_append (not_mem_of_padded hname hpadded rfl (by decide)), List.map_cons,
        trimChars_padded hname hpadded, String.ofList_toList, ih hnames]

theorem Lists.exists_not_blank (h : Lists names cs) (hnames : ∀ x ∈ names, isIdentifier x = true) :
    ∃ c ∈ cs, isBlank c = false := by
  cases h with
  | single hpadded => exact exists_not_blank_of_padded (hnames _ List.mem_cons_self) hpadded
  | comma hpadded _ =>
      obtain ⟨c, hc, hblank⟩ := exists_not_blank_of_padded (hnames _ List.mem_cons_self) hpadded
      exact ⟨c, List.mem_append_left _ hc, hblank⟩

theorem distinctArgs_eq_ok : distinctArgs seen args = .ok names ↔
    names = args ∧ (∀ x ∈ args, isIdentifier x = true) ∧ args.Nodup ∧ ∀ x ∈ args, x ∉ seen := by
  induction args generalizing seen names with
  | nil => simp only [distinctArgs, Except.ok.injEq, List.nodup_nil, List.not_mem_nil, false_implies,
      implies_true, and_true, eq_comm]
  | cons arg args ih =>
      have hseen {xs : List String} : (∀ x ∈ xs, x ∉ arg :: seen) ↔ arg ∉ xs ∧ ∀ x ∈ xs, x ∉ seen := by
        grind
      rw [List.forall_mem_cons, List.nodup_cons, List.forall_mem_cons]
      unfold distinctArgs
      split
      · rename_i harg
        have harg : isIdentifier arg = false := by simpa using harg
        simp [harg]
      · rename_i harg
        have harg : isIdentifier arg = true := by simpa using harg
        split
        · rename_i hmem
          have hmem : arg ∈ seen := by simpa using hmem
          simp [hmem]
        · rename_i hmem
          have hmem : arg ∉ seen := by simpa using hmem
          simp only [Except.map_eq_ok, ih, hseen]
          constructor
          · rintro ⟨names', ⟨rfl, hnames, hnodup, hnew, hother⟩, rfl⟩
            exact ⟨rfl, ⟨harg, hnames⟩, ⟨hnew, hnodup⟩, hmem, hother⟩
          · rintro ⟨rfl, ⟨-, hnames⟩, ⟨hnew, hnodup⟩, -, hother⟩
            exact ⟨args, ⟨rfl, hnames, hnodup, hnew, hother⟩, rfl⟩

theorem parseArgs_eq_ok : parseArgs cs = .ok args ↔
    ListsArgs args cs ∧ (∀ x ∈ args, isIdentifier x = true) ∧ args.Nodup := by
  unfold parseArgs
  split
  · rename_i hempty
    have hblank := trimChars_eq_nil_iff.1 (List.isEmpty_iff.1 hempty)
    constructor
    · rintro ⟨⟩
      exact ⟨.none hblank, List.forall_mem_nil _, List.nodup_nil⟩
    · rintro ⟨hargs, hnames, -⟩
      cases hargs with
      | none _ => rfl
      | some hlists =>
          obtain ⟨c, hc, hnot⟩ := hlists.exists_not_blank hnames
          rw [hblank c hc] at hnot
          cases hnot
  · rename_i hempty
    rw [distinctArgs_eq_ok]
    constructor
    · rintro ⟨rfl, hnames, hnodup, -⟩
      exact ⟨.some (lists_splitAt cs), hnames, hnodup⟩
    · rintro ⟨hargs, hnames, hnodup⟩
      cases hargs with
      | none hblank => exact absurd (List.isEmpty_iff.2 (trimChars_eq_nil_iff.2 hblank)) hempty
      | some hlists =>
          rw [hlists.map_splitAt hnames]
          exact ⟨rfl, hnames, hnodup, fun _ _ => List.not_mem_nil⟩

/-! ## Whole signatures -/

theorem dropLast?_eq_some : dropLast? c cs = some ds ↔ cs = ds ++ [c] := by
  unfold dropLast?
  split
  · rename_i hlast
    obtain ⟨front, rfl⟩ := List.getLast?_eq_some_iff.1 hlast
    simp [eq_comm]
  · rename_i hlast
    simp only [reduceCtorEq, false_iff]
    rintro rfl
    exact hlast List.getLast?_concat

/-- A text that is read is cut at its first opening and its last closing parenthesis. -/
theorem written_of_parseTrimmed (h : parseTrimmed cs = .ok s) : s.WellNamed ∧
    ∃ name args, Padded s.name name ∧ ListsArgs s.args args ∧ cs = name ++ '(' :: (args ++ [')']) := by
  unfold parseTrimmed at h
  split at h
  · cases h
  · rename_i name rest hcut
    split at h
    · cases h
    · rename_i args hlast
      obtain ⟨rfl, -⟩ := cutAt?_eq_some.1 hcut
      cases dropLast?_eq_some.1 hlast
      dsimp only at h
      split at h
      · cases h
      · rename_i hname
        obtain ⟨names, hnames, hs⟩ := Except.bind_eq_ok.1 h
        cases hs
        obtain ⟨hargs, hidentifiers, hnodup⟩ := parseArgs_eq_ok.1 hnames
        exact ⟨⟨List.forall_mem_cons.2 ⟨by simpa using hname, hidentifiers⟩, hnodup⟩, name, args,
          padded_trimChars name, hargs, rfl⟩

theorem parseTrimmed_eq_ok {lead args : List Char} (hs : s.WellNamed)
    (hcut : cutAt? '(' cs = some (lead, args ++ [')'])) (hname : trimChars lead = s.name.toList)
    (hargs : ListsArgs s.args args) : parseTrimmed cs = .ok s := by
  obtain ⟨hidentifier, hidentifiers⟩ := List.forall_mem_cons.1 hs.isIdentifier
  have hlast : dropLast? ')' (args ++ [')']) = some args := dropLast?_eq_some.2 rfl
  have hparse : parseArgs args = .ok s.args := parseArgs_eq_ok.2 ⟨hargs, hidentifiers, hs.nodup⟩
  simp only [parseTrimmed, hcut, hlast, hname, String.ofList_toList, hidentifier, hparse]
  rfl

/-- Between its blanks a written signature begins with a name and ends with a parenthesis. -/
theorem trimChars_written {lead trail : List Char} (gap args : List Char)
    (hname : isIdentifier word = true) (hlead : ∀ c ∈ lead, isBlank c = true)
    (htrail : ∀ c ∈ trail, isBlank c = true) :
    trimChars (lead ++ (word.toList ++ gap) ++ '(' :: (args ++ ')' :: trail)) =
      (word.toList ++ gap) ++ '(' :: (args ++ [')']) := by
  obtain ⟨c, rest, hcons⟩ := List.exists_cons_of_ne_nil (isIdentifier_iff.1 hname).1.ne_nil
  have hc : isBlank c = false :=
    not_blank_of_wordPart (wordPart_of_isIdentifier hname (hcons ▸ List.mem_cons_self))
  have hsplit : lead ++ (word.toList ++ gap) ++ '(' :: (args ++ ')' :: trail) =
      lead ++ (((word.toList ++ gap) ++ '(' :: (args ++ [')'])) ++ trail) := by
    simp
  rw [hsplit]
  refine trimChars_between hlead htrail (by simp) ?_ ?_
  · rw [hcons]
    rintro d ⟨⟩
    exact hc
  · intro d hd
    have hlast : (word.toList ++ gap ++ '(' :: (args ++ [')'])).getLast? = some ')' := by
      rw [← List.cons_append, ← List.append_assoc, List.getLast?_concat]
    rw [hlast] at hd
    cases hd
    rfl

/-- A text is read as the signature that it is written for, if the names can be declared. -/
theorem parse_eq_ok_iff : parse text = .ok s ↔ s.WellNamed ∧ s.Writes text.toList := by
  constructor
  · intro h
    unfold parse at h
    dsimp only at h
    split at h
    · rename_i hparse
      cases h
      obtain ⟨hs, name, args, hname, hargs, htrim⟩ := written_of_parseTrimmed hparse
      obtain ⟨trail, htrail, htext⟩ := exists_trimChars text.toList
      refine ⟨hs, text.toList.takeWhile isBlank ++ name, args, trail,
        hname.behind fun c => List.all_eq_true.1 List.all_takeWhile c, hargs, htrail, ?_⟩
      rw [htrim] at htext
      simpa using htext
    · cases h
  · rintro ⟨hs, name, args, trail, ⟨lead, gap, hlead, hgap, rfl⟩, hargs, htrail, htext⟩
    have hname : isIdentifier s.name = true := hs.isIdentifier _ List.mem_cons_self
    have hgapped : Padded s.name (s.name.toList ++ gap) := ⟨[], gap, List.forall_mem_nil _, hgap, rfl⟩
    have htrim := trimChars_written gap args hname hlead htrail
    rw [← htext] at htrim
    have hcut : cutAt? '(' (trimChars text.toList) = some (s.name.toList ++ gap, args ++ [')']) :=
      cutAt?_eq_some.2 ⟨htrim, not_mem_of_padded hname hgapped rfl (by decide)⟩
    have hparse := parseTrimmed_eq_ok hs hcut (trimChars_padded hname hgapped) hargs
    simp only [parse, hparse]

/-! ## Printed signatures -/

theorem lists_intercalate (name : String) (names : List String) :
    Lists (name :: names) (", ".intercalate (name :: names)).toList := by
  induction names generalizing name with
  | nil =>
      rw [String.intercalate_singleton]
      exact .single (padded_self name)
  | cons next names ih =>
      have hspace : ∀ c ∈ [' '], isBlank c = true := List.forall_mem_singleton.2 rfl
      have hprint : (", ".intercalate (name :: next :: names)).toList =
          name.toList ++ ',' :: ([' '] ++ (", ".intercalate (next :: names)).toList) := by
        simp [String.intercalate_cons_cons]
      rw [hprint]
      exact .comma (padded_self name) ((ih next).behind hspace)

theorem writes_print (s : Signature) : s.Writes s.print.toList := by
  have hprint : s.print.toList =
      s.name.toList ++ '(' :: ((", ".intercalate s.args).toList ++ [')']) := by
    simp [print, toString]
  refine ⟨_, _, [], padded_self s.name, ?_, List.forall_mem_nil _, hprint⟩
  cases s.args with
  | nil => exact .none (List.forall_mem_nil _)
  | cons name names => exact .some (lists_intercalate name names)

theorem parse_print_iff : parse s.print = .ok s ↔ s.WellNamed :=
  parse_eq_ok_iff.trans (and_iff_left (writes_print s))

/-- The printed form of every signature whose names can be declared is read as that signature. A text is
read exactly if it writes such a signature, with blanks wherever they may stand, and then the printed
form of what was read is read as the same. -/
theorem parse_iff_written :
    (∀ s : Signature, parse s.print = .ok s ↔ s.WellNamed) ∧
    (∀ text s, parse text = .ok s ↔ s.WellNamed ∧ s.Writes text.toList) ∧
    ∀ text s, parse text = .ok s → parse s.print = .ok s :=
  ⟨fun _ => parse_print_iff, fun _ _ => parse_eq_ok_iff,
    fun _ _ h => parse_print_iff.2 (parse_eq_ok_iff.1 h).1⟩

theorem parse_iff_written_blanks :
    parse "\t twice (\n one,two ) " = .ok ⟨"twice", ["one", "two"]⟩ ∧
      parse "twice(one, two)" = .ok ⟨"twice", ["one", "two"]⟩ := by
  have hparse : parse "\t twice (\n one,two ) " = .ok ⟨"twice", ["one", "two"]⟩ := by
    decide +kernel
  exact ⟨hparse, parse_iff_written.2.2 _ _ hparse⟩

end Variorum.Signature
