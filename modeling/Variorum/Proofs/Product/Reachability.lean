import Mathlib.Logic.Relation
import Variorum.Product.References

/-!
# The references of a subject are closed

Every name in the templates of a subject is among its references, and with a macro every name that
is free in one of the macro's bodies. The search goes on in steps, each of which visits the bodies of one
pending macro, and it ends because each macro is pending only once.
-/

namespace Variorum.References

/-- A node of the templates refers to the name, where `args` are arguments. -/
def Mentions (args : List String) (templates : List Template) (name : String) : Prop :=
  ∃ e ∈ templates.flatMap Template.nodes, nameOf? args e = some name

/-- With a macro the names hold whatever the bodies of the macro mention. -/
def Closed (symbols : SymbolTable) (names : List String) : Prop :=
  ∀ name ∈ names, ∀ m, symbols.macro? name = some m →
    ∀ x, Mentions m.signature.args m.bodies x → x ∈ names

/-- The bodies of each macro that was reached have been visited, unless it is pending or exempt. -/
def Followed (symbols : SymbolTable) (exempt : List String) (r : References) : Prop :=
  ∀ name ∈ r.names, ∀ m, symbols.macro? name = some m →
    name ∈ r.pending ∨ name ∈ exempt ∨ ∀ x, Mentions m.signature.args m.bodies x → x ∈ r.names

/-- How many macros are not reached yet or still pending. -/
def workload (symbols : SymbolTable) (r : References) : Nat :=
  (symbols.macros.filter fun m => !r.names.contains m.name).length + r.pending.length

variable {symbols : SymbolTable} {r r' : References} {exempt : List String} {steps : Nat}

/-! ## Adding names -/

theorem mem_names_add {name x : String} :
    x ∈ (add symbols r name).names ↔ x = name ∨ x ∈ r.names := by
  unfold add
  split
  · rename_i h
    have h : name ∈ r.names := by simpa using h
    exact ⟨.inr, fun hx => hx.elim (fun he => he ▸ h) id⟩
  · simp

theorem Followed.add (h : Followed symbols exempt r) (name : String) :
    Followed symbols exempt (References.add symbols r name) := by
  intro n hn m hm
  by_cases hold : n ∈ r.names
  · rcases h n hold m hm with hp | he | hb
    · refine .inl ?_
      unfold References.add
      split
      · exact hp
      · dsimp only
        split <;> simp [hp]
    · exact .inr (.inl he)
    · exact .inr (.inr fun x hx => mem_names_add.2 (.inr (hb x hx)))
  · have hname : n = name := (mem_names_add.1 hn).resolve_right hold
    subst hname
    exact .inl (by simp [References.add, hold, hm])

theorem workload_add (name : String) : workload symbols (add symbols r name) ≤ workload symbols r := by
  unfold add
  split
  · exact Nat.le_refl _
  · rename_i hnew
    have hfilter : (symbols.macros.filter fun m => !(name :: r.names).contains m.name) =
        (symbols.macros.filter fun m => !r.names.contains m.name).filter fun m => m.name ≠ name := by
      rw [List.filter_filter]
      refine List.filter_congr fun m _ => ?_
      by_cases h : m.name = name <;> simp [h]
    simp only [workload, hfilter]
    split
    · rename_i hmacro
      obtain ⟨m, hm⟩ := Option.isSome_iff_exists.1 hmacro
      have hmem := List.mem_of_find?_eq_some hm
      have hname : m.name = name := by simpa using List.find?_some hm
      -- The new macro leaves the unreached ones when it becomes pending.
      have hlt : ((symbols.macros.filter fun m => !r.names.contains m.name).filter
          fun m => m.name ≠ name).length <
          (symbols.macros.filter fun m => !r.names.contains m.name).length := by
        rw [List.length_filter_lt_length_iff_exists]
        refine ⟨m, List.mem_filter.2 ⟨hmem, ?_⟩, by simp [hname]⟩
        rw [hname]
        simpa using hnew
      simp only [List.length_cons]
      omega
    · have := List.length_filter_le (fun m => decide (m.name ≠ name))
        (symbols.macros.filter fun m => !r.names.contains m.name)
      omega

/-! ## Visiting templates -/

/-- What adding the names that are mentioned keeps, visiting the templates keeps. -/
theorem visit_keeps {P : References → Prop} {args : List String} {templates : List Template} (h : P r)
    (hadd : ∀ r name, Mentions args templates name → P r → P (add symbols r name)) :
    P (visit symbols args r templates) :=
  List.foldlRecOn _ _ h fun r hr name hname => hadd r name (List.mem_filterMap.1 hname) hr

theorem mem_visit {args : List String} {templates : List Template} {x : String} :
    x ∈ (visit symbols args r templates).names ↔ Mentions args templates x ∨ x ∈ r.names := by
  have hfold : ∀ (names : List String) (r : References),
      x ∈ (names.foldl (add symbols) r).names ↔ x ∈ names ∨ x ∈ r.names := by
    intro names
    induction names with
    | nil => simp
    | cons name names ih =>
        intro r
        rw [List.foldl_cons, ih, mem_names_add, List.mem_cons]
        rw [or_left_comm, or_assoc]
  rw [visit, hfold, List.mem_filterMap]
  rfl

theorem Followed.visit (h : Followed symbols exempt r) (args : List String)
    (templates : List Template) :
    Followed symbols exempt (References.visit symbols args r templates) :=
  visit_keeps h fun _ name _ hr => hr.add name

theorem workload_visit (args : List String) (templates : List Template) :
    workload symbols (visit symbols args r templates) ≤ workload symbols r :=
  visit_keeps (P := fun r' => workload symbols r' ≤ workload symbols r) (Nat.le_refl _)
    fun _ name _ hr => Nat.le_trans (workload_add name) hr

/-! ## The steps of the worklist -/

/-- What the worklist does next: it takes the latest pending name and visits the bodies of its macro. It
stops when nothing is pending. -/
def next? (symbols : SymbolTable) (r : References) : Option References :=
  match r.pending with
  | [] => none
  | name :: rest =>
    match symbols.macro? name with
    | none => some { r with pending := rest }
    | some m => some (visit symbols m.signature.args { r with pending := rest } m.bodies)

/-- The worklist goes on from one state to the other. -/
def Goes (symbols : SymbolTable) (r r' : References) : Prop :=
  next? symbols r = some r'

theorem close_succ : close symbols (steps + 1) r =
    match next? symbols r with
    | none => r
    | some r' => close symbols steps r' := by
  rw [close, next?]
  cases r.pending with
  | nil => rfl
  | cons name rest =>
      dsimp only
      cases symbols.macro? name <;> rfl

theorem Goes.cases (h : Goes symbols r r') : ∃ name rest, r.pending = name :: rest ∧
    ((symbols.macro? name = none ∧ r' = { r with pending := rest }) ∨
      ∃ m, symbols.macro? name = some m ∧
        r' = visit symbols m.signature.args { r with pending := rest } m.bodies) := by
  unfold Goes next? at h
  split at h
  · cases h
  · rename_i name rest hpending
    refine ⟨name, rest, hpending, ?_⟩
    split at h
    · rename_i hnone
      cases h
      exact .inl ⟨hnone, rfl⟩
    · rename_i m hm
      cases h
      exact .inr ⟨m, hm, rfl⟩

theorem workload_lt (h : Goes symbols r r') : workload symbols r' < workload symbols r := by
  obtain ⟨name, rest, hpending, hstep⟩ := h.cases
  have hrest : workload symbols { r with pending := rest } < workload symbols r := by
    simp only [workload, hpending, List.length_cons]
    omega
  rcases hstep with ⟨-, rfl⟩ | ⟨m, -, rfl⟩
  · exact hrest
  · exact Nat.lt_of_le_of_lt (workload_visit _ _) hrest

/-- On no table does the worklist go on for ever. -/
theorem goes_wellFounded (symbols : SymbolTable) : WellFounded fun r' r => Goes symbols r r' :=
  Subrelation.wf workload_lt (measure (workload symbols)).wf

theorem pending_of_next?_eq_none (h : next? symbols r = none) : r.pending = [] := by
  unfold next? at h
  split at h
  · assumption
  · split at h <;> cases h

/-- With enough steps the worklist comes to its end. -/
theorem close_runs (h : workload symbols r ≤ steps) :
    Relation.ReflTransGen (Goes symbols) r (close symbols steps r) ∧
      next? symbols (close symbols steps r) = none := by
  induction steps generalizing r with
  | zero =>
      have hpending : r.pending = [] := by
        rw [← List.length_eq_zero_iff]
        simp only [workload] at h
        omega
      exact ⟨.refl, by simp [close, next?, hpending]⟩
  | succ steps ih =>
      rw [close_succ]
      cases hnext : next? symbols r with
      | none => exact ⟨.refl, hnext⟩
      | some r' =>
          have hload := workload_lt hnext
          obtain ⟨hruns, hend⟩ := ih (r := r') (by omega)
          exact ⟨.head hnext hruns, hend⟩

/-! ## What each step keeps -/

/-- Visiting the bodies of a macro settles it. -/
theorem Followed.settle {name : String} {rest : List String} {m : Macro}
    (h : Followed symbols [] r) (hpending : r.pending = name :: rest)
    (hm : symbols.macro? name = some m) :
    Followed symbols [] (References.visit symbols m.signature.args { r with pending := rest } m.bodies) := by
  have hexempt : Followed symbols [name] { r with pending := rest } := by
    intro n hn m' hm'
    rcases h n hn m' hm' with hp | he | hb
    · rw [hpending, List.mem_cons] at hp
      exact hp.elim (fun hn => .inr (.inl (by simp [hn]))) .inl
    · cases he
    · exact .inr (.inr hb)
  intro n hn m' hm'
  rcases hexempt.visit m.signature.args m.bodies n hn m' hm' with hp | he | hb
  · exact .inl hp
  · rw [List.mem_singleton] at he
    subst he
    rw [hm] at hm'
    cases hm'
    exact .inr (.inr fun x hx => mem_visit.2 (.inl hx))
  · exact .inr (.inr hb)

/-- A pending name that no macro has is settled as it stands. -/
theorem Followed.skip {name : String} {rest : List String} (h : Followed symbols [] r)
    (hpending : r.pending = name :: rest) (hnone : symbols.macro? name = none) :
    Followed symbols [] { r with pending := rest } := by
  intro n hn m hm
  rcases h n hn m hm with hp | he | hb
  · rw [hpending, List.mem_cons] at hp
    refine hp.elim (fun hn => ?_) .inl
    rw [hn, hnone] at hm
    cases hm
  · cases he
  · exact .inr (.inr hb)

theorem Followed.closed (h : Followed symbols [] r) (hpending : r.pending = []) :
    Closed symbols r.names := by
  intro name hn m hm
  rcases h name hn m hm with hp | he | hb
  · rw [hpending] at hp
    cases hp
  · cases he
  · exact hb

/-- Each step settles the macro that it takes. -/
theorem Followed.goes (h : Followed symbols [] r) (hgoes : Goes symbols r r') :
    Followed symbols [] r' := by
  obtain ⟨name, rest, hpending, ⟨hnone, rfl⟩ | ⟨m, hm, rfl⟩⟩ := hgoes.cases
  · exact h.skip hpending hnone
  · exact h.settle hpending hm

theorem Goes.names_subset (h : Goes symbols r r') : r.names ⊆ r'.names := by
  obtain ⟨name, rest, -, ⟨-, rfl⟩ | ⟨m, -, rfl⟩⟩ := h.cases
  · exact fun _ => id
  · exact fun x hx => mem_visit.2 (.inr hx)

theorem Followed.runs (h : Followed symbols [] r) (hruns : Relation.ReflTransGen (Goes symbols) r r') :
    Followed symbols [] r' ∧ r.names ⊆ r'.names := by
  induction hruns with
  | refl => exact ⟨h, fun _ => id⟩
  | tail _ hgoes ih => exact ⟨ih.1.goes hgoes, fun x hx => hgoes.names_subset (ih.2 hx)⟩

/-! ## The references of a subject -/

/-- The state in which the subject's own templates have been visited. -/
def start (s : Subject) : References :=
  visit s.symbols [] {} s.templates

theorem workload_start (s : Subject) : workload s.symbols (start s) ≤ s.symbols.macros.length := by
  refine Nat.le_trans (workload_visit [] s.templates) ?_
  simp only [workload, List.length_nil, Nat.add_zero]
  exact List.length_filter_le _ _

theorem followed_start (s : Subject) : Followed s.symbols [] (start s) :=
  Followed.visit (fun _ h => by cases h) [] s.templates

/-- The references are the names at the end of the worklist. -/
theorem collect_runs (s : Subject) : ∃ r, Relation.ReflTransGen (Goes s.symbols) (start s) r ∧
    next? s.symbols r = none ∧ collect s = r.names := by
  obtain ⟨hruns, hend⟩ := close_runs (workload_start s)
  exact ⟨_, hruns, hend, rfl⟩

/-- The references hold with a macro all that its bodies mention. -/
theorem collect_closed (s : Subject) : Closed s.symbols (collect s) := by
  obtain ⟨r, hruns, hend, hcollect⟩ := collect_runs s
  rw [hcollect]
  exact ((followed_start s).runs hruns).1.closed (pending_of_next?_eq_none hend)

/-- The references hold all that the subject's own templates mention. -/
theorem mem_collect_of_mentions {s : Subject} {name : String} (h : Mentions [] s.templates name) :
    name ∈ collect s := by
  obtain ⟨r, hruns, -, hcollect⟩ := collect_runs s
  rw [hcollect]
  exact ((followed_start s).runs hruns).2 (mem_visit.2 (.inl h))

end Variorum.References
