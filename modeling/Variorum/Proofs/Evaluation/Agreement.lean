import Variorum.Proofs.Product.Selection
import Variorum.Suite.Resolution

/-!
# What a rendering depends on

A rendering reads a context only through the names, macros and slices that the nodes of its templates
refer to. Two contexts that agree on these give the same result, also where their symbol tables and
their selections differ elsewhere.
-/

namespace Variorum

/-! ## Readings of a context -/

/-- What a name stands for in a context. -/
inductive Meaning
  | value (v : Value)
  | valueless
  | expansion (m : Macro)
  | unknown

namespace Context

def meaning (ctx : Context) (name : String) : Meaning :=
  match ctx.lookup? name with
  | some v => .value v
  | none =>
    match ctx.symbols.parameter? name with
    | some p =>
      match p.values with
      | [] => .valueless
      | v :: _ => .value v
    | none =>
      match ctx.symbols.macro? name with
      | some m => .expansion m
      | none => .unknown

/-- The value of a slice: the one that is selected, else its first candidate. -/
def sliceValue (ctx : Context) (s : SliceRef) : Except Failure Value :=
  match ctx.slice? s.key with
  | some v => .ok v
  | none =>
    match s.candidates ctx.symbols with
    | .ok (v :: _) => .ok v
    | .ok [] => .error (.invalidArgument s!"{s.key} selects no values")
    | .error f => .error f

/-- The body of a macro: the one that is selected, else the first. -/
def chosenBody (ctx : Context) (m : Macro) : Except Failure (Nat × Template) :=
  match ctx.body? m.name with
  | some index =>
    match m.bodies[index]? with
    | some body => .ok (index, body)
    | none =>
      .error (.internal
        s!"body {index} selected for macro '{m.name}' with {m.bodies.length} bodies")
  | none =>
    match m.bodies with
    | body :: _ => .ok (0, body)
    | [] => .error (.invalidArgument s!"macro '{m.name}' has no bodies")

variable {ctx : Context} {m : Macro} {name : String}

theorem macro?_of_meaning (h : ctx.meaning name = .expansion m) :
    ctx.symbols.macro? name = some m := by
  unfold meaning at h
  split at h
  · cases h
  · split at h
    · split at h <;> cases h
    · split at h
      · rename_i hm
        cases h
        exact hm
      · cases h

theorem mem_bodies_of_chosenBody {index : Nat} {body : Template}
    (h : ctx.chosenBody m = .ok (index, body)) : body ∈ m.bodies := by
  unfold chosenBody at h
  split at h
  · split at h
    · rename_i hbody
      cases h
      exact List.mem_of_getElem? hbody
    · cases h
  · split at h
    · rename_i hbodies
      cases h
      simp [hbodies]
    · cases h

theorem chosenBody_failsOnly {P : Failure → Prop} (hinvalid : ∀ details, P (.invalidArgument details))
    (hinternal : ∀ details, P (.internal details)) : (ctx.chosenBody m).FailsOnly P := by
  unfold chosenBody
  split
  · split
    · exact Except.failsOnly_ok
    · exact Except.failsOnly_error (hinternal _)
  · split
    · exact Except.failsOnly_ok
    · exact Except.failsOnly_error (hinvalid _)

theorem depth_eq_length_path (ctx : Context) : ctx.depth = ctx.path.length := by
  simp [depth, path]

/-! ## Arguments -/

theorem isSome_assoc?_ofArgs {args : List (String × Value)} (h : name ∈ args.map (·.1)) :
    (assoc? name (Frame.ofArgs args).bindings).isSome = true := by
  suffices hfold : ∀ f : Frame, name ∈ args.map (·.1) ∨ (assoc? name f.bindings).isSome = true →
      (assoc? name (args.foldl (fun f a => f.bind a.1 a.2) f).bindings).isSome = true from
    hfold {} (.inl h)
  clear h
  induction args with
  | nil =>
      rintro f (h | h)
      · cases h
      · exact h
  | cons a args ih =>
      intro f h
      rw [List.foldl_cons]
      refine ih _ ?_
      rw [Frame.bind, assoc?_rebind]
      by_cases ha : a.1 = name
      · exact .inr (by simp [ha])
      · rw [if_neg ha]
        refine h.imp_left fun h => ?_
        rw [List.map_cons] at h
        exact (List.mem_cons.1 h).resolve_left fun he => ha he.symm

variable {callee : String} {args : List (String × Value)}

theorem lookup?_child : (ctx.child callee args).lookup? name =
    (assoc? name (Frame.ofArgs args).bindings).or (ctx.lookup? name) := by
  simp only [lookup?, frames, child, List.map_cons, List.findSome?_cons]
  cases assoc? name (Frame.ofArgs args).bindings <;> rfl

/-- Inside an expansion a name stands for the argument of that name, else for what it stands for
outside. -/
theorem meaning_child : (ctx.child callee args).meaning name =
    match assoc? name (Frame.ofArgs args).bindings with
    | some v => .value v
    | none => ctx.meaning name := by
  unfold meaning
  rw [lookup?_child]
  cases assoc? name (Frame.ofArgs args).bindings <;> rfl

private theorem ofArgs_selects_nothing (args : List (String × Value)) :
    (Frame.ofArgs args).bodies = [] ∧ (Frame.ofArgs args).slices = [] := by
  suffices hfold : ∀ f : Frame,
      (args.foldl (fun f a => f.bind a.1 a.2) f).bodies = f.bodies ∧
        (args.foldl (fun f a => f.bind a.1 a.2) f).slices = f.slices from hfold {}
  induction args with
  | nil => exact fun _ => ⟨rfl, rfl⟩
  | cons a args ih => exact fun f => ih (f.bind a.1 a.2)

theorem body?_child : (ctx.child callee args).body? name = ctx.body? name := by
  simp only [body?, frames, child, List.map_cons, List.findSome?_cons]
  rw [(ofArgs_selects_nothing args).1]
  rfl

theorem slice?_child {key : String} : (ctx.child callee args).slice? key = ctx.slice? key := by
  simp only [slice?, frames, child, List.map_cons, List.findSome?_cons]
  rw [(ofArgs_selects_nothing args).2]
  rfl

theorem chosenBody_child : (ctx.child callee args).chosenBody m = ctx.chosenBody m := by
  rw [chosenBody, body?_child]
  rfl

theorem sliceValue_child {s : SliceRef} :
    (ctx.child callee args).sliceValue s = ctx.sliceValue s := by
  rw [sliceValue, slice?_child]
  rfl

theorem path_child : (ctx.child callee args).path = ctx.path ++ [callee] := by
  simp [path, child]

end Context

/-! ## Results through readings -/

namespace Evaluator

variable {ev : Evaluator} {expand : Expansion} {ctx : Context}

theorem result_evaluateName {name : String} {source : Expr} :
    (ev.evaluateName expand ctx name source).result =
      match ctx.meaning name with
      | .value v => .ok v
      | .valueless => .error (.invalidArgument s!"parameter '{name}' has no values")
      | .expansion m => (expand m [] ctx).result
      | .unknown => .error (.unknown name) := by
  unfold evaluateName Context.meaning
  cases ctx.lookup? name with
  | some v => rfl
  | none =>
      cases ctx.symbols.parameter? name with
      | none => cases ctx.symbols.macro? name <;> rfl
      | some p =>
          obtain ⟨x, values⟩ := p
          rcases values with _ | ⟨v, _ | ⟨w, values⟩⟩ <;> rfl

theorem result_evaluateSlice {s : SliceRef} {source : Expr} :
    (ev.evaluateSlice ctx s source).result = ctx.sliceValue s := by
  unfold evaluateSlice Context.sliceValue
  cases ctx.slice? s.key with
  | some v => rfl
  | none =>
      rw [Report.result_bind, Report.result_ofExcept]
      rcases s.candidates ctx.symbols with f | (_ | ⟨v, _ | ⟨w, values⟩⟩) <;> rfl

theorem result_chooseBody {m : Macro} : (ev.chooseBody m ctx).result = ctx.chosenBody m := by
  unfold chooseBody chooseIndex Context.chosenBody
  rw [Report.result_bind]
  cases ctx.body? m.name with
  | some index =>
      simp only [Report.result_done, Except.ok_bind]
      cases m.bodies[index]? <;> rfl
  | none =>
      obtain ⟨signature, bodies⟩ := m
      rcases bodies with _ | ⟨body, _ | ⟨other, bodies⟩⟩ <;> rfl

end Evaluator

/-! ## Agreement -/

/-- The nodes refer to names and slices within the given ones only, where `args` are arguments. -/
def RefersWithin (names : String → Prop) (slices : SliceRef → Prop) (args : List String)
    (nodes : List Expr) : Prop :=
  ∀ e ∈ nodes, (∀ name, References.nameOf? args e = some name → names name) ∧
    ∀ s, e.slice? = some s → slices s

/-- The bodies of the macros among the names refer to no other names and slices. -/
def SymbolTable.ClosedUnder (names : String → Prop) (slices : SliceRef → Prop)
    (symbols : SymbolTable) : Prop :=
  ∀ name, names name → ∀ m, symbols.macro? name = some m →
    ∀ body ∈ m.bodies, RefersWithin names slices m.signature.args body.nodes

/-- Two contexts that cannot be told apart through the names, the slices and the arguments. -/
structure Context.Agrees (names : String → Prop) (slices : SliceRef → Prop) (args : List String)
    (c c' : Context) : Prop where
  path : c.path = c'.path
  meaning : ∀ name, names name ∨ name ∈ args → c.meaning name = c'.meaning name
  bound : ∀ name ∈ args, ∃ v, c.meaning name = .value v
  callee : ∀ name, names name → c.symbols.macro? name = c'.symbols.macro? name
  body : ∀ name, names name → ∀ m, c.symbols.macro? name = some m → c.chosenBody m = c'.chosenBody m
  slice : ∀ s, slices s → c.sliceValue s = c'.sliceValue s

section

variable {names : String → Prop} {slices : SliceRef → Prop} {args : List String}

theorem RefersWithin.append {xs ys : List Expr} :
    RefersWithin names slices args (xs ++ ys) ↔
      RefersWithin names slices args xs ∧ RefersWithin names slices args ys :=
  List.forall_mem_append

theorem RefersWithin.cons {e : Expr} {es : List Expr} :
    RefersWithin names slices args (e :: es) ↔
      ((∀ name, References.nameOf? args e = some name → names name) ∧
        ∀ s, e.slice? = some s → slices s) ∧ RefersWithin names slices args es :=
  List.forall_mem_cons

theorem RefersWithin.name {line : Nat} {name : String} {es : List Expr}
    (h : RefersWithin names slices args (.name line name :: es)) : names name ∨ name ∈ args := by
  by_cases hargs : name ∈ args
  · exact .inr hargs
  · exact .inl ((RefersWithin.cons.1 h).1.1 name (by simp [References.nameOf?, hargs]))

theorem RefersWithin.mono {xs ys : List Expr} (h : RefersWithin names slices args ys)
    (hsub : xs ⊆ ys) : RefersWithin names slices args xs :=
  fun e he => h e (hsub he)

variable {c c' : Context}

/-- Inside an expansion the contexts agree on the arguments of the macro, whatever they agreed on
outside. -/
theorem Context.Agrees.child (h : c.Agrees names slices args c') {m : Macro} {values : List Value}
    (hlen : values.length = m.signature.args.length) :
    (c.child m.name (m.signature.args.zip values)).Agrees names slices m.signature.args
      (c'.child m.name (m.signature.args.zip values)) := by
  have hmap : (m.signature.args.zip values).map (·.1) = m.signature.args :=
    List.map_fst_zip (Nat.le_of_eq hlen.symm)
  have hargs : ∀ name ∈ m.signature.args, ∃ v,
      assoc? name (Frame.ofArgs (m.signature.args.zip values)).bindings = some v := fun name hname =>
    Option.isSome_iff_exists.1 (Context.isSome_assoc?_ofArgs (hmap.symm ▸ hname))
  constructor
  · rw [Context.path_child, Context.path_child, h.path]
  · intro name hname
    rw [Context.meaning_child, Context.meaning_child]
    cases hv : assoc? name (Frame.ofArgs (m.signature.args.zip values)).bindings with
    | some v => rfl
    | none =>
        rcases hname with hname | hname
        · exact h.meaning name (.inl hname)
        · obtain ⟨v, hv'⟩ := hargs name hname
          rw [hv] at hv'
          cases hv'
  · intro name hname
    obtain ⟨v, hv⟩ := hargs name hname
    exact ⟨v, by rw [Context.meaning_child, hv]⟩
  · exact h.callee
  · intro name hname k hk
    rw [Context.chosenBody_child, Context.chosenBody_child]
    exact h.body name hname k hk
  · intro s hs
    rw [Context.sliceValue_child, Context.sliceValue_child]
    exact h.slice s hs

end

/-! ## Evaluation respects agreement -/

namespace Evaluator

variable {ev : Evaluator} {names : String → Prop} {slices : SliceRef → Prop} {args : List String}
  {c c' : Context}

/-- Macros among the names expand alike in the two contexts. -/
def ExpandsAlike (names : String → Prop) (expand : Expansion) (c c' : Context) : Prop :=
  ∀ name, names name → ∀ m, c.symbols.macro? name = some m →
    ∀ values, (expand m values c).result = (expand m values c').result

variable {expand : Expansion}

theorem evaluateName_agrees (h : c.Agrees names slices args c')
    (hexpand : ExpandsAlike names expand c c') {name : String} {source : Expr}
    (hname : names name ∨ name ∈ args) :
    (ev.evaluateName expand c name source).result =
      (ev.evaluateName expand c' name source).result := by
  rw [result_evaluateName, result_evaluateName, ← h.meaning name hname]
  cases hm : c.meaning name with
  | value v => rfl
  | valueless => rfl
  | unknown => rfl
  | expansion m =>
      rcases hname with hname | hname
      · exact hexpand name hname m (Context.macro?_of_meaning hm) []
      · obtain ⟨v, hv⟩ := h.bound name hname
        rw [hm] at hv
        cases hv

theorem evaluateCall_agrees (h : c.Agrees names slices args c')
    (hexpand : ExpandsAlike names expand c c') {callee : String} (hcallee : names callee)
    (values : List Value) :
    (ev.evaluateCall expand c callee values).result =
      (ev.evaluateCall expand c' callee values).result := by
  unfold evaluateCall
  rw [← h.callee callee hcallee]
  cases hm : c.symbols.macro? callee with
  | none => rfl
  | some m => exact hexpand callee hcallee m hm values

mutual

theorem evaluateWith_agrees (h : c.Agrees names slices args c')
    (hexpand : ExpandsAlike names expand c c') :
    (e : Expr) → RefersWithin names slices args e.nodes →
      (ev.evaluateWith expand c e).result = (ev.evaluateWith expand c' e).result
  | .literal _ _, _ => rfl
  | .name _ name, hrefs => by
      simp only [evaluateWith]
      exact evaluateName_agrees h hexpand (RefersWithin.name hrefs)
  | .binary _ op left right, hrefs => by
      obtain ⟨hleft, hright⟩ := RefersWithin.append.1 (RefersWithin.cons.1 hrefs).2
      simp only [evaluateWith, Report.result_bind]
      rw [evaluateWith_agrees h hexpand left hleft, evaluateWith_agrees h hexpand right hright]
  | .negation _ operand, hrefs => by
      simp only [evaluateWith, Report.result_bind]
      rw [evaluateWith_agrees h hexpand operand (RefersWithin.cons.1 hrefs).2]
  | .cast _ type operand, hrefs => by
      simp only [evaluateWith, Report.result_bind]
      rw [evaluateWith_agrees h hexpand operand (RefersWithin.cons.1 hrefs).2]
  | .call _ callee es, hrefs => by
      obtain ⟨⟨hcallee, -⟩, hes⟩ := RefersWithin.cons.1 hrefs
      simp only [evaluateWith, Report.result_bind]
      rw [evaluateAll_agrees h hexpand es hes]
      exact congrArg _ (funext (evaluateCall_agrees h hexpand (hcallee callee rfl)))
  | .qualifiedCall _ _ _ es, hrefs => by
      simp only [evaluateWith, Report.result_bind]
      rw [evaluateAll_agrees h hexpand es (RefersWithin.cons.1 hrefs).2]
  | .slice _ s, hrefs => by
      simp only [evaluateWith, result_evaluateSlice]
      exact h.slice s ((RefersWithin.cons.1 hrefs).1.2 s rfl)
  | .invalid _, _ => rfl

theorem evaluateAll_agrees (h : c.Agrees names slices args c')
    (hexpand : ExpandsAlike names expand c c') :
    (es : List Expr) → RefersWithin names slices args (Expr.nodesOfAll es) →
      (ev.evaluateAll expand c es).result = (ev.evaluateAll expand c' es).result
  | [], _ => rfl
  | e :: es, hrefs => by
      obtain ⟨he, hes⟩ := RefersWithin.append.1 hrefs
      simp only [evaluateAll, Report.result_bind]
      rw [evaluateWith_agrees h hexpand e he, evaluateAll_agrees h hexpand es hes]

end

theorem displayAll_agrees (h : c.Agrees names slices args c')
    (hexpand : ExpandsAlike names expand c c') {pairs : List (EmbeddedSource × Expr)}
    (hrefs : ∀ p ∈ pairs, RefersWithin names slices args p.2.nodes) :
    (ev.displayAll expand c pairs).result = (ev.displayAll expand c' pairs).result := by
  induction pairs with
  | nil => rfl
  | cons p pairs ih =>
      obtain ⟨hp, hpairs⟩ := List.forall_mem_cons.1 hrefs
      simp only [displayAll, Report.result_bind, Report.result_mapError]
      rw [evaluateWith_agrees h hexpand p.2 hp, ih hpairs]

theorem renderWith_agrees (h : c.Agrees names slices args c')
    (hexpand : ExpandsAlike names expand c c') {t : Template}
    (hrefs : RefersWithin names slices args t.nodes) :
    (ev.renderWith expand c t).result = (ev.renderWith expand c' t).result := by
  simp only [renderWith, Report.result_bind]
  rw [displayAll_agrees h hexpand]
  intro p hp
  have he := (List.of_mem_zip hp).2
  exact hrefs.mono fun x hx => List.mem_flatMap.2 ⟨p.2, he, hx⟩

/-- The induction is on how deep calls may still nest. A body refers to nothing but the names and the
arguments of its macro, and on these the contexts inside agree again. -/
theorem expandWithin_agrees (budget : Nat) (h : c.Agrees names slices args c')
    (hclosed : c.symbols.ClosedUnder names slices) :
    ExpandsAlike names (ev.expandWithin budget) c c' := by
  induction budget generalizing args c c' with
  | zero =>
      intro name _ m _ values
      simp only [expandWithin, Report.result_bind, tooDeep, h.path]
  | succ budget ih =>
      intro name hname m hm values
      simp only [expandWithin, Report.result_bind, Report.result_ofExcept, Report.result_mapError,
        result_chooseBody, ← h.body name hname m hm]
      unfold checkArity
      split
      · rename_i hlen
        cases hbody : c.chosenBody m with
        | error f => rfl
        | ok chosen =>
            have hinner := h.child hlen
            have hrefs := hclosed name hname m hm _ (Context.mem_bodies_of_chosenBody hbody)
            simp only [Except.ok_bind]
            rw [renderWith_agrees hinner (ih hinner hclosed) hrefs]
      · rfl

theorem render_agrees (h : c.Agrees names slices args c')
    (hclosed : c.symbols.ClosedUnder names slices) {t : Template}
    (hrefs : RefersWithin names slices args t.nodes) :
    (ev.render c t).result = (ev.render c' t).result := by
  have hbudget : ev.budget c = ev.budget c' := by
    rw [budget, budget, Context.depth_eq_length_path, Context.depth_eq_length_path, h.path]
  rw [render, render, ← hbudget]
  exact renderWith_agrees h (expandWithin_agrees _ h hclosed) hrefs

end Evaluator

/-! ## Renderings of subjects -/

namespace Subject

variable {s : Subject} {config : Config} {ev : Evaluator} {names : String → Prop}
  {slices : SliceRef → Prop} {args : List String} {c c' : Context}

theorem nodes_subset {t : Template} (h : t ∈ s.templates) : t.nodes ⊆ s.nodes :=
  fun _ he => List.mem_flatMap.2 ⟨t, h, he⟩

/-- Contexts that agree on what the templates of a subject and the macros reached from them refer to
render the subject alike, to the same texts or the same failure. -/
theorem render_agrees (h : c.Agrees names slices args c')
    (hclosed : c.symbols.ClosedUnder names slices) (hrefs : RefersWithin names slices args s.nodes) :
    (s.render config ev c).result = (s.render config ev c').result := by
  have htemplate : ∀ t ∈ s.templates, (ev.render c t).result = (ev.render c' t).result :=
    fun t ht => Evaluator.render_agrees h hclosed (hrefs.mono (nodes_subset ht))
  have houtcome : ∀ o ∈ s.outcomes, (o.render ev c).result = (o.render ev c').result := by
    intro o ho
    have hmem : ∀ t ∈ o.templates, t ∈ s.templates := fun t ht => by
      simp only [templates, List.mem_cons, List.mem_flatMap]
      exact .inr (.inr ⟨o, ho, ht⟩)
    have hoption : ∀ t? : Option Template, (∀ t ∈ t?, t ∈ o.templates) →
        (t?.mapM (ev.render c)).result = (t?.mapM (ev.render c')).result := by
      intro t? ht
      cases t? with
      | none => rfl
      | some t =>
          rw [Report.result_mapM_option, Report.result_mapM_option]
          exact congrArg (Option.some <$> ·) (htemplate t (hmem t (ht t rfl)))
    simp only [Outcome.render, Report.result_bind]
    rw [hoption o.warning fun t ht => by simp [Outcome.templates, Option.mem_def.1 ht],
      hoption o.error fun t ht => by simp [Outcome.templates, Option.mem_def.1 ht]]
  simp only [render, Report.result_bind, Report.result_mapM]
  rw [htemplate s.name (by simp [templates]), htemplate s.code (by simp [templates])]
  rw [Except.mapM_congr houtcome]

end Subject

end Variorum
