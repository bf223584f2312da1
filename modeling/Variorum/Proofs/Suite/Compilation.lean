import Variorum.Proofs.Except
import Variorum.Suite.Compilation

/-!
# Compilation subject by subject

A suite compiles as its subjects do, each of them alone over the shared declarations. It stops at the
first that does not compile, and of that one nothing is recorded.
-/

namespace Variorum

namespace Report

/-! ## Runs over a list -/

variable {ε α β : Type} {f : α → Report ε β} {a : α} {as : List α} {b : β} {e : ε}

theorem bind_pure_map (r : Report ε α) (g : α → β) :
    (r >>= fun a => pure (g a)) = { log := r.log, result := r.result.map g } := by
  obtain ⟨log, e | a⟩ := r
  · rfl
  · exact Report.ext (List.append_nil log) rfl

theorem mapM_cons_of_error (h : (f a).result = .error e) :
    (a :: as).mapM f = { log := (f a).log, result := .error e } := by
  refine Report.ext ?_ ?_
  · rw [List.mapM_cons, log_bind, h]
    exact List.append_nil _
  · rw [List.mapM_cons, result_bind, h]
    rfl

theorem mapM_cons_of_ok (h : (f a).result = .ok b) :
    (a :: as).mapM f =
      { log := (f a).log ++ (as.mapM f).log, result := (as.mapM f).result.map (b :: ·) } := by
  refine Report.ext ?_ ?_
  · rw [List.mapM_cons, log_bind, h]
    dsimp only
    rw [bind_pure_map]
  · rw [List.mapM_cons, result_bind, h, Except.ok_bind, bind_pure_map]

theorem log_mapM_of_ok {bs : List β} (h : (as.mapM f).result = .ok bs) :
    (as.mapM f).log = as.flatMap fun a => (f a).log := by
  induction as generalizing bs with
  | nil => rfl
  | cons a as ih =>
      cases hb : (f a).result with
      | error e =>
          rw [mapM_cons_of_error hb] at h
          cases h
      | ok b =>
          rw [mapM_cons_of_ok hb] at h ⊢
          obtain ⟨bs, hbs, -⟩ := Except.map_eq_ok.1 h
          rw [ih hbs, List.flatMap_cons]

/-- A run that fails stops at the first member that does. -/
theorem exists_stop (h : (as.mapM f).result = .error e) :
    ∃ before a after, as = before ++ a :: after ∧ (∀ a' ∈ before, ∃ b, (f a').result = .ok b) ∧
      (f a).result = .error e ∧ (as.mapM f).log = (before.flatMap fun a => (f a).log) ++ (f a).log := by
  induction as with
  | nil => cases h
  | cons a as ih =>
      cases hb : (f a).result with
      | error e' =>
          rw [mapM_cons_of_error hb] at h ⊢
          cases h
          exact ⟨[], a, as, rfl, List.forall_mem_nil _, hb, rfl⟩
      | ok b =>
          rw [mapM_cons_of_ok hb] at h ⊢
          obtain ⟨before, a', after, rfl, hbefore, he, hlog⟩ := ih (Except.map_eq_error.1 h)
          refine ⟨a :: before, a', after, rfl, List.forall_mem_cons.2 ⟨⟨b, hb⟩, hbefore⟩, he, ?_⟩
          rw [hlog, List.flatMap_cons, List.append_assoc]

end Report

/-! ## Subjects -/

/-- The suite of one subject alone, with the same declarations. -/
def SuiteDefinition.only (d : SuiteDefinition) (s : SubjectDefinition) : SuiteDefinition :=
  { d with subjects := [s] }

namespace Suite

variable {functions : Registry} {shared : SymbolTable} {d : SuiteDefinition} {s : SubjectDefinition}
  {ds : List SubjectDefinition} {t : Subject} {inner : CompileError}

theorem compileSubjects_cons_of_error (h : Subject.compile shared s = .error inner) :
    compileSubjects functions shared (s :: ds) = .fail (.inSubject s.id inner) := by
  rw [compileSubjects, Subject.compileWithWarnings, h]
  rfl

theorem compileSubjects_cons_of_ok (h : Subject.compile shared s = .ok t) :
    compileSubjects functions shared (s :: ds) =
      { log := t.warnings functions ++ (compileSubjects functions shared ds).log
        result := (compileSubjects functions shared ds).result.map (t :: ·) } := by
  rw [compileSubjects, Subject.compileWithWarnings, h]
  simp only [Report.bind_pure_map]
  rfl

theorem compile_unshared {e : CompileError}
    (h : SymbolTable.ofDefinitions d.parameters d.macros = .error e) :
    compile functions d = .fail e := by
  rw [compile, h]
  rfl

section

variable (h : SymbolTable.ofDefinitions d.parameters d.macros = .ok shared)

include h

theorem compile_shared :
    compile functions d =
      { log := (compileSubjects functions shared d.subjects).log
        result := (compileSubjects functions shared d.subjects).result.map
          fun subjects => ⟨d.id, d.configuration, subjects⟩ } := by
  rw [compile, h, ← Report.bind_pure_map]
  rfl

theorem compile_only_of_error (hs : Subject.compile shared s = .error inner) :
    compile functions (d.only s) = .fail (.inSubject s.id inner) := by
  have hshared : SymbolTable.ofDefinitions (d.only s).parameters (d.only s).macros = .ok shared := h
  have hsubjects : compileSubjects functions shared (d.only s).subjects =
      .fail (.inSubject s.id inner) := compileSubjects_cons_of_error hs
  rw [compile_shared hshared, hsubjects]
  rfl

theorem compile_only_of_ok (hs : Subject.compile shared s = .ok t) :
    compile functions (d.only s) =
      { log := t.warnings functions, result := .ok ⟨d.id, d.configuration, [t]⟩ } := by
  have hshared : SymbolTable.ofDefinitions (d.only s).parameters (d.only s).macros = .ok shared := h
  have hsubjects : compileSubjects functions shared (d.only s).subjects =
      { log := t.warnings functions ++ [], result := .ok [t] } := compileSubjects_cons_of_ok hs
  rw [compile_shared hshared, hsubjects, List.append_nil]
  rfl

/-- Subjects compile as the suites of each of them do. -/
theorem compileSubjects_eq (ds : List SubjectDefinition) :
    compileSubjects functions shared ds =
      { log := (ds.mapM fun s => compile functions (d.only s)).log
        result := (ds.mapM fun s => compile functions (d.only s)).result.map
          (·.flatMap (·.subjects)) } := by
  induction ds with
  | nil => rfl
  | cons s ds ih =>
      cases hs : Subject.compile shared s with
      | error inner =>
          have honly : compile functions (d.only s) = _ := compile_only_of_error h hs
          have hrun : (s :: ds).mapM (fun s => compile functions (d.only s)) = _ :=
            Report.mapM_cons_of_error (congrArg Report.result honly)
          rw [compileSubjects_cons_of_error hs, hrun, honly]
          rfl
      | ok t =>
          have honly : compile functions (d.only s) = _ := compile_only_of_ok h hs
          have hrun : (s :: ds).mapM (fun s => compile functions (d.only s)) = _ :=
            Report.mapM_cons_of_ok (congrArg Report.result honly)
          rw [compileSubjects_cons_of_ok hs, hrun, honly, ih]
          refine Report.ext rfl ?_
          cases (ds.mapM fun s => compile functions (d.only s)).result <;> rfl

/-- A suite compiles as the suites of each of its subjects do. -/
theorem compile_eq_mapM_only :
    compile functions d =
      { log := (d.subjects.mapM fun s => compile functions (d.only s)).log
        result := (d.subjects.mapM fun s => compile functions (d.only s)).result.map
          fun parts => ⟨d.id, d.configuration, parts.flatMap (·.subjects)⟩ } := by
  rw [compile_shared h, compileSubjects_eq h]
  refine Report.ext rfl ?_
  cases (d.subjects.mapM fun s => compile functions (d.only s)).result <;> rfl

theorem fail_of_compile_only {e : CompileError} (he : (compile functions (d.only s)).result = .error e) :
    ∃ inner, Subject.compile shared s = .error inner ∧ e = .inSubject s.id inner ∧
      compile functions (d.only s) = .fail e := by
  cases hs : Subject.compile shared s with
  | error inner =>
      have honly : compile functions (d.only s) = _ := compile_only_of_error h hs
      rw [honly] at he
      cases he
      exact ⟨inner, rfl, rfl, honly⟩
  | ok t =>
      rw [compile_only_of_ok h hs] at he
      cases he

end

/-- How a suite compiles by its subjects, each of which is compiled as a suite of its own with the same
declarations. -/
structure CompilesBySubject (functions : Registry) (d : SuiteDefinition) : Prop where
  /-- Without a table of the shared declarations nothing is recorded. -/
  unshared {e : CompileError} : SymbolTable.ofDefinitions d.parameters d.macros = .error e →
    compile functions d = .fail e
  /-- With the table it depends on the subjects, one by one. -/
  succeeds_iff {shared : SymbolTable} :
    SymbolTable.ofDefinitions d.parameters d.macros = .ok shared →
    ((∃ suite, (compile functions d).result = .ok suite) ↔
      ∀ s ∈ d.subjects, ∃ part, (compile functions (d.only s)).result = .ok part)
  /-- What comes of the subjects is joined in their order, and so are their warnings. -/
  joined {suite : Suite} : (compile functions d).result = .ok suite →
    suite.id = d.id ∧ suite.configuration = d.configuration ∧
    (∃ parts : List Suite,
      (d.subjects.map fun s => (compile functions (d.only s)).result) = parts.map .ok ∧
      suite.subjects = parts.flatMap (·.subjects)) ∧
    (compile functions d).log = d.subjects.flatMap fun s => (compile functions (d.only s)).log
  /-- The first subject that does not compile is the one in the error, and the warnings are those of the
  subjects before it. -/
  stopped {shared : SymbolTable} {e : CompileError} :
    SymbolTable.ofDefinitions d.parameters d.macros = .ok shared →
    (compile functions d).result = .error e →
    ∃ before s after inner, d.subjects = before ++ s :: after ∧
      (∀ s' ∈ before, ∃ part, (compile functions (d.only s')).result = .ok part) ∧
      Subject.compile shared s = .error inner ∧ e = .inSubject s.id inner ∧
      compile functions (d.only s) = .fail e ∧
      (compile functions d).log = before.flatMap fun s' => (compile functions (d.only s')).log

/-- A suite compiles by its subjects, whatever declarations they share. -/
theorem compilesBySubject (functions : Registry) (d : SuiteDefinition) :
    CompilesBySubject functions d where
  unshared := compile_unshared
  succeeds_iff {shared} h := by
    rw [compile_eq_mapM_only h, ← Except.exists_mapM_eq_ok, ← Report.result_mapM]
    constructor
    · rintro ⟨suite, hsuite⟩
      obtain ⟨parts, hparts, -⟩ := Except.map_eq_ok.1 hsuite
      exact ⟨parts, hparts⟩
    · rintro ⟨parts, hparts⟩
      exact ⟨_, Except.map_eq_ok.2 ⟨parts, hparts, rfl⟩⟩
  joined {suite} hsuite := by
    cases h : SymbolTable.ofDefinitions d.parameters d.macros with
    | error e =>
        rw [compile_unshared h] at hsuite
        cases hsuite
    | ok shared =>
        rw [compile_eq_mapM_only h] at hsuite ⊢
        obtain ⟨parts, hparts, rfl⟩ := Except.map_eq_ok.1 hsuite
        refine ⟨rfl, rfl, ⟨parts, ?_, rfl⟩, Report.log_mapM_of_ok hparts⟩
        rw [← Except.mapM_eq_ok, ← Report.result_mapM]
        exact hparts
  stopped {shared e} h he := by
    rw [compile_eq_mapM_only h] at he ⊢
    obtain ⟨before, s, after, hsubjects, hbefore, hs, hlog⟩ := Report.exists_stop (Except.map_eq_error.1 he)
    obtain ⟨inner, hinner, rfl, hfail⟩ := fail_of_compile_only h hs
    refine ⟨before, s, after, inner, hsubjects, hbefore, hinner, rfl, hfail, ?_⟩
    dsimp only
    rw [hlog, hfail]
    exact List.append_nil _

/-- A suite with a name that is not declared in each of its subjects, of which the second cannot be
read to its end. -/
def brokenSuite : SuiteDefinition where
  id := "suite"
  subjects :=
    [{ id := "first", name := "n", code := "$\x7bx\x7d" },
      { id := "second", name := "$\x7by\x7d", code := "$\x7b" },
      { id := "third", name := "n", code := "$\x7bz\x7d" }]

theorem compilesBySubject_brokenSuite :
    SymbolTable.ofDefinitions brokenSuite.parameters brokenSuite.macros = .ok .empty ∧
      (compile .empty brokenSuite).result =
        .error (.inSubject "second" (.malformedTemplate 1 "unterminated \x60$\x7b\x60")) ∧
      (compile .empty brokenSuite).log =
        (brokenSuite.subjects.take 1).flatMap (fun s => (compile .empty (brokenSuite.only s)).log) ∧
      (compile .empty brokenSuite).log.map (·.origin.source) = [some "x"] := by
  have hshared : SymbolTable.ofDefinitions brokenSuite.parameters brokenSuite.macros = .ok .empty := rfl
  have hrun : ((compile .empty brokenSuite).result.error?,
      (compile .empty brokenSuite).log.map (·.origin.source)) =
      (some (.inSubject "second" (.malformedTemplate 1 "unterminated \x60$\x7b\x60")), [some "x"]) := by
    decide +kernel
  obtain ⟨herror, hsources⟩ := Prod.mk.inj hrun
  have hresult := Except.error?_eq_some.1 herror
  obtain ⟨before, s, after, inner, hsubjects, -, -, he, -, hlog⟩ :=
    (compilesBySubject .empty brokenSuite).stopped hshared hresult
  have hid : "second" = s.id := (CompileError.inSubject.inj he).1
  -- The subjects have different names, so that the one in the error is the second.
  have hbefore : before = brokenSuite.subjects.take 1 := by
    match before, hsubjects with
    | [], hsubjects =>
        cases hsubjects
        exact absurd hid (by decide)
    | [_], hsubjects =>
        cases hsubjects
        rfl
    | [_, _], hsubjects =>
        cases hsubjects
        exact absurd hid (by decide)
    | _ :: _ :: _ :: rest, hsubjects =>
        cases rest <;> cases hsubjects
  rw [hbefore] at hlog
  exact ⟨hshared, hresult, hlog, hsources⟩

end Suite

end Variorum
