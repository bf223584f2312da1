import Variorum.Proofs.Evaluation.Parts

/-!
# What an evaluation records

On its way to a result an evaluation records nothing but warnings, each for a value that was chosen
without a selection, in the name of the subject that it is about.
-/

namespace Variorum

/-- Every diagnostic of a report has a property. -/
def Report.Records {ε α : Type} (P : Diagnostic → Prop) (r : Report ε α) : Prop :=
  ∀ d ∈ r.log, P d

namespace Report

variable {ε ε' α β : Type} {P : Diagnostic → Prop}

theorem records_done {a : α} : (done a : Report ε α).Records P :=
  List.forall_mem_nil _

theorem records_pure {a : α} : (pure a : Report ε α).Records P :=
  List.forall_mem_nil _

theorem records_fail {e : ε} : (fail e : Report ε α).Records P :=
  List.forall_mem_nil _

theorem records_ofExcept {r : Except ε α} : (ofExcept r).Records P :=
  List.forall_mem_nil _

theorem records_record {d : Diagnostic} (h : P d) : (record d : Report ε Unit).Records P :=
  List.forall_mem_singleton.2 h

theorem compositional_records : Compositional fun r : Report ε _ => r.Records P where
  done _ := records_done
  bind hr hf := by
    intro d hd
    rcases mem_log_bind.1 hd with hd | ⟨a, ha, hd⟩
    · exact hr d hd
    · exact hf a ha d hd

theorem Records.bind {r : Report ε α} {f : α → Report ε β} (hr : r.Records P)
    (hf : ∀ a, (f a).Records P) : (r >>= f).Records P :=
  compositional_records.bind hr fun a _ => hf a

theorem Records.mapError {r : Report ε α} {f : ε → ε'} (h : r.Records P) :
    (r.mapError f).Records P :=
  h

end Report

namespace Evaluator

/-- A warning of an evaluator about a value that nothing selects. -/
def Fallback (ev : Evaluator) (d : Diagnostic) : Prop :=
  d.severity = .warning ∧ d.code = Diagnostic.multipleValues ∧ d.origin.subject = ev.subject

variable {ev : Evaluator} {expand : Expansion} {ctx : Context}

theorem warnUnselected_records {message : String} {source : Option Expr} :
    (ev.warnUnselected message source).Records ev.Fallback :=
  Report.records_record ⟨rfl, rfl, rfl⟩

theorem evaluateName_records (hexpand : ∀ m args, (expand m args ctx).Records ev.Fallback)
    {name : String} {source : Expr} :
    (ev.evaluateName expand ctx name source).Records ev.Fallback := by
  unfold evaluateName
  split
  · exact Report.records_done
  · split
    · split
      · exact Report.records_fail
      · exact Report.records_done
      · exact warnUnselected_records.bind fun _ => Report.records_pure
    · split
      · exact hexpand _ _
      · exact Report.records_fail

theorem evaluateSlice_records {s : SliceRef} {source : Expr} :
    (ev.evaluateSlice ctx s source).Records ev.Fallback := by
  unfold evaluateSlice
  split
  · exact Report.records_done
  · refine Report.records_ofExcept.bind fun values => ?_
    split
    · exact Report.records_fail
    · exact Report.records_pure
    · exact warnUnselected_records.bind fun _ => Report.records_pure

theorem evaluateCall_records (hexpand : ∀ m args, (expand m args ctx).Records ev.Fallback)
    {callee : String} {args : List Value} :
    (ev.evaluateCall expand ctx callee args).Records ev.Fallback := by
  unfold evaluateCall
  split
  · exact hexpand _ _
  · exact Report.records_ofExcept

theorem partsHave_records (hexpand : ∀ m args, (expand m args ctx).Records ev.Fallback)
    (nodes : List Expr) : PartsHave (fun r => r.Records ev.Fallback) ev expand ctx nodes where
  operation _ _ := Report.records_ofExcept
  name _ _ _ := evaluateName_records hexpand
  call _ _ _ _ _ _ := evaluateCall_records hexpand
  qualifiedCall _ _ _ _ _ _ := Report.records_ofExcept
  slice _ _ _ := evaluateSlice_records
  invalid _ _ := by
    rw [evaluateWith]
    exact Report.records_fail

theorem renderWith_records (hexpand : ∀ m args, (expand m args ctx).Records ev.Fallback)
    {t : Template} : (ev.renderWith expand ctx t).Records ev.Fallback :=
  (partsHave_records hexpand t.nodes).renderWith Report.compositional_records

theorem chooseBody_records {m : Macro} : (ev.chooseBody m ctx).Records ev.Fallback := by
  have hindex : (ev.chooseIndex m ctx).Records ev.Fallback := by
    unfold chooseIndex
    split
    · exact Report.records_done
    · split
      · exact Report.records_fail
      · exact Report.records_done
      · exact warnUnselected_records.bind fun _ => Report.records_pure
  refine hindex.bind fun index => ?_
  split
  · exact Report.records_pure
  · exact Report.records_fail

theorem expandWithin_records (budget : Nat) (m : Macro) (args : List Value) (ctx : Context) :
    (ev.expandWithin budget m args ctx).Records ev.Fallback := by
  induction budget generalizing m args ctx with
  | zero => exact Report.records_ofExcept.bind fun _ => Report.records_fail
  | succ budget ih =>
      refine Report.records_ofExcept.bind fun _ => chooseBody_records.bind fun chosen => ?_
      exact (renderWith_records fun m args => ih m args _).mapError.bind fun _ => Report.records_pure

theorem render_records {t : Template} : (ev.render ctx t).Records ev.Fallback :=
  renderWith_records fun m args => expandWithin_records _ m args ctx

end Evaluator

/-- A rendering of a subject records warnings only; its errors are recorded by who asked for it. -/
theorem Subject.render_records {s : Subject} {config : Config} {ev : Evaluator} {ctx : Context} :
    (s.render config ev ctx).Records ev.Fallback :=
  render_of_templates Report.compositional_records fun _ _ => Evaluator.render_records

end Variorum
