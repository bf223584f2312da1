import Mathlib.Data.List.Flatten
import Variorum.Proofs.Suite.Coverage

/-!
# Further values

Values that are added to a parameter add contexts and take none away. The contexts that were there before
keep their indices, and as everything is selected in them, a subject comes to the same there as before. A
slice of the parameter would select from other values, which is why no slice may name it.
-/

namespace Variorum

/-! ## The odometer -/

/-- With larger sizes the index lists below the smaller ones are still there, in the same order. -/
theorem Odometer.tuples_sublist {sizes sizes' : List Nat} (h : List.Forall₂ (· ≤ ·) sizes sizes') :
    (tuples sizes).Sublist (tuples sizes') := by
  induction h with
  | nil => exact .refl _
  | @cons size size' sizes sizes' hle _ ih =>
      have hfirst : (List.range size).Sublist (List.range size') := List.range_sublist.2 hle
      have hrest : ∀ index ∈ List.range size,
          ((tuples sizes).map (index :: ·)).Sublist ((tuples sizes').map (index :: ·)) :=
        fun index _ => ih.map (index :: ·)
      exact (List.Sublist.flatMap_right _ hrest).trans (hfirst.flatMap _)

/-! ## Extended tables -/

/-- The parameter with further values behind its own, if it has the name. -/
def Parameter.extend (name : String) (more : List Value) (p : Parameter) : Parameter :=
  if p.name = name then { p with values := p.values ++ more } else p

/-- The table in which the parameter of the name has further values. -/
def SymbolTable.extend (name : String) (more : List Value) (t : SymbolTable) : SymbolTable :=
  { t with parameters := t.parameters.map (·.extend name more) }

variable {name x : String} {more : List Value}

@[simp] theorem Parameter.name_extend (p : Parameter) : (p.extend name more).name = p.name := by
  unfold extend
  split <;> rfl

theorem Parameter.extend_of_ne {p : Parameter} (h : p.name ≠ name) : p.extend name more = p :=
  if_neg h

namespace SymbolTable

variable {t : SymbolTable}

theorem parameter?_extend : (t.extend name more).parameter? x =
    (t.parameter? x).map (·.extend name more) := by
  simp only [parameter?, extend, List.find?_map, Function.comp_def, Parameter.name_extend]

theorem parameter?_extend_of_ne (h : x ≠ name) :
    (t.extend name more).parameter? x = t.parameter? x := by
  rw [parameter?_extend]
  cases hp : t.parameter? x with
  | none => rfl
  | some p =>
      have hname : p.name ≠ name := (mem_of_parameter? hp).2 ▸ h
      rw [Option.map_some, Parameter.extend_of_ne hname]

end SymbolTable

theorem SliceRef.candidates_extend {t : SymbolTable} {r : SliceRef} (h : r.parameter ≠ name) :
    r.candidates (t.extend name more) = r.candidates t := by
  rw [candidates, candidates, SymbolTable.parameter?_extend_of_ne h]

/-! ## Extended contexts -/

namespace Context

variable {ctx : Context} {names : String → Prop} {slices : SliceRef → Prop} {args : List String}

/-- The context with the extended table and the same selections. -/
def extend (name : String) (more : List Value) (ctx : Context) : Context :=
  { ctx with symbols := ctx.symbols.extend name more }

@[simp] theorem lookup?_extend : (ctx.extend name more).lookup? x = ctx.lookup? x := rfl

@[simp] theorem slice?_extend {key : String} : (ctx.extend name more).slice? key = ctx.slice? key := rfl

/-- What is selected for a name that is read does not come from the table. -/
theorem Selects.meaning_extend (h : ctx.Selects names slices args) (hx : names x ∨ x ∈ args) :
    ctx.meaning x = (ctx.extend name more).meaning x := by
  cases hlookup : ctx.lookup? x with
  | some v => simp only [meaning, lookup?_extend, hlookup]
  | none =>
      have hname : names x := hx.resolve_right fun hargs => by
        have hbound := h.bound x hargs
        rw [hlookup] at hbound
        cases hbound
      have hparameter : ctx.symbols.parameter? x = none := by
        by_contra hsome
        have hselected := h.parameter x hname (Option.isSome_iff_ne_none.2 hsome)
        rw [hlookup] at hselected
        cases hselected
      have hparameter' : (ctx.extend name more).symbols.parameter? x = none := by
        rw [extend, SymbolTable.parameter?_extend, hparameter, Option.map_none]
      simp only [meaning, lookup?_extend, hlookup, hparameter, hparameter']
      rfl

/-- A context that selects for all that is read does not tell the tables apart. -/
theorem Selects.agrees_extend (h : ctx.Selects names slices args) :
    ctx.Agrees names slices args (ctx.extend name more) where
  path := rfl
  meaning _ hx := h.meaning_extend hx
  bound x hx := by
    obtain ⟨v, hv⟩ := Option.isSome_iff_exists.1 (h.bound x hx)
    exact ⟨v, by simp only [Context.meaning, hv]⟩
  callee _ _ := rfl
  body _ _ _ _ := rfl
  slice r hr := by
    obtain ⟨v, hv⟩ := Option.isSome_iff_exists.1 (h.slice r hr)
    simp only [sliceValue, slice?_extend, hv]

end Context

/-! ## Extended spaces -/

/-- The axis of the parameter of the name gets further values. -/
def Axis.extend (name : String) (more : List Value) : Axis → Axis
  | .parameter x values => if x = name then .parameter x (values ++ more) else .parameter x values
  | .bodies x count => .bodies x count
  | .slice key values => .slice key values

namespace Axis

variable {a : Axis} {ctx : Context} {index : Nat}

theorem extend_parameter (p : Parameter) :
    Axis.parameter p.name (p.extend name more).values = (Axis.parameter p.name p.values).extend name more := by
  unfold Parameter.extend Axis.extend
  dsimp only
  split <;> rfl

theorem extend_bodies (count : Nat) :
    (Axis.bodies x count).extend name more = .bodies x count := rfl

theorem size_le_extend : a.size ≤ (a.extend name more).size := by
  cases a with
  | parameter x values =>
      simp only [extend]
      split
      · simp [size]
      · exact Nat.le_refl _
  | bodies x count => exact Nat.le_refl _
  | slice key values => exact Nat.le_refl _

/-- An index of the old values selects what it has selected before. -/
theorem select_extend (h : index < a.size) :
    (a.extend name more).select (ctx.extend name more) index = (a.select ctx index).extend name more := by
  cases a with
  | parameter x values =>
      simp only [extend]
      split
      · simp only [select, List.getElem?_append_left (show index < values.length from h)]
        cases values[index]? <;> rfl
      · simp only [select]
        cases values[index]? <;> rfl
  | bodies x count => rfl
  | slice key values =>
      simp only [extend, select]
      cases values[index]? <;> rfl

end Axis

namespace ContextSpace

def extend (name : String) (more : List Value) (space : ContextSpace) : ContextSpace where
  symbols := space.symbols.extend name more
  axes := space.axes.map (·.extend name more)

variable {space : ContextSpace} {indices : List Nat}

theorem sizes_le_extend : List.Forall₂ (· ≤ ·) space.sizes (space.extend name more).sizes := by
  rw [sizes, sizes, extend, List.map_map, List.forall₂_map_left_iff, List.forall₂_map_right_iff,
    List.forall₂_same]
  exact fun a _ => a.size_le_extend

theorem foldl_select_extend {axes : List Axis} (ctx : Context)
    (h : List.Forall₂ (· < ·) indices (axes.map Axis.size)) :
    ((axes.map (·.extend name more)).zip indices).foldl (fun ctx a => a.1.select ctx a.2)
        (ctx.extend name more) =
      ((axes.zip indices).foldl (fun ctx a => a.1.select ctx a.2) ctx).extend name more := by
  induction axes generalizing indices ctx with
  | nil => rfl
  | cons a axes ih =>
      cases h with
      | cons hindex h =>
          rw [List.map_cons, List.zip_cons_cons, List.foldl_cons, List.zip_cons_cons, List.foldl_cons,
            Axis.select_extend hindex, ih _ h]

/-- In the context of the same indices all selections are the same. -/
theorem contextAt_extend (h : List.Forall₂ (· < ·) indices space.sizes) :
    (space.extend name more).contextAt indices = (space.contextAt indices).extend name more :=
  foldl_select_extend (.root space.symbols) h

end ContextSpace

/-! ## Extended subjects -/

namespace References

variable {t : SymbolTable}

/-- Reaching a name does not depend on values. -/
theorem close_extend (steps : Nat) (r : References) :
    close (t.extend name more) steps r = close t steps r := by
  induction steps generalizing r with
  | zero => rfl
  | succ steps ih =>
      unfold close
      simp only [ih]
      rfl

end References

namespace Subject

/-- The subject in which the parameter of the name has further values. -/
def extend (name : String) (more : List Value) (s : Subject) : Subject :=
  { s with symbols := s.symbols.extend name more }

/-- A slice of the parameter stands in the templates of the subject or in the body of a macro. -/
def Slices (s : Subject) (name : String) : Prop :=
  ∃ e ∈ s.nodes ++ (s.symbols.macros.flatMap (·.bodies)).flatMap Template.nodes,
    e.slice?.map (·.parameter) = some name

instance (s : Subject) (name : String) : Decidable (s.Slices name) :=
  inferInstanceAs (Decidable (∃ e ∈ _, _))

variable {s : Subject} {prune : Bool} {space : ContextSpace}

theorem keptNames_extend : (s.extend name more).keptNames prune = s.keptNames prune := by
  unfold keptNames
  split
  · exact congrArg (fun r => some r.names) (References.close_extend _ _)
  · rfl

theorem keptNodes_extend : (s.extend name more).keptNodes prune = s.keptNodes prune := by
  rw [keptNodes, keptNames_extend]
  rfl

theorem parameter_ne_of_keptNodes (h : ¬s.Slices name) {e : Expr} (he : e ∈ s.keptNodes prune)
    {r : SliceRef} (hr : e.slice? = some r) : r.parameter ≠ name := by
  rintro rfl
  refine h ⟨e, ?_, by rw [hr, Option.map_some]⟩
  simp only [keptNodes, List.mem_append, List.mem_flatMap, List.mem_filter] at he ⊢
  refine he.imp_right ?_
  rintro ⟨body, ⟨m, ⟨hm, -⟩, hbody⟩, he⟩
  exact ⟨body, ⟨m, hm, hbody⟩, he⟩

/-- The axes of slices are not extended themselves. -/
theorem map_extend_sliceAxes {t : SymbolTable} {rs : List SliceRef} {slices : List Axis}
    (h : rs.mapM (sliceAxis t) = .ok slices) : slices.map (fun a => a.extend name more) = slices := by
  refine (List.map_congr_left fun a ha => ?_).trans (List.map_id slices)
  have hmem : .ok a ∈ rs.map (sliceAxis t) := by
    rw [Except.mapM_eq_ok.1 h]
    exact List.mem_map_of_mem ha
  obtain ⟨r, -, hr⟩ := List.mem_map.1 hmem
  obtain ⟨values, -, rfl⟩ := sliceAxis_eq_ok.1 hr
  rfl

theorem space_extend (h : ¬s.Slices name) (hspace : s.space prune = .ok space) :
    (s.extend name more).space prune = .ok (space.extend name more) := by
  obtain ⟨slices, hslices, rfl⟩ := space_eq_ok.1 hspace
  have hcandidates : ∀ r ∈ distinctSlices (s.keptNodes prune),
      sliceAxis (s.symbols.extend name more) r = sliceAxis s.symbols r := by
    intro r hr
    obtain ⟨e, he, hr⟩ := mem_distinctSlices.1 hr
    rw [sliceAxis, sliceAxis, SliceRef.candidates_extend (parameter_ne_of_keptNodes h he hr)]
  refine space_eq_ok.2 ⟨slices, ?_, ?_⟩
  · rw [keptNodes_extend, ← hslices]
    exact Except.mapM_congr hcandidates
  · rw [keptNames_extend]
    simp only [ContextSpace.extend, extend, SymbolTable.extend, List.map_append, List.map_map,
      List.filter_map, Function.comp_def, Axis.extend_parameter, Parameter.name_extend,
      Axis.extend_bodies]
    rw [map_extend_sliceAxes hslices]

variable {functions : Registry} {config : Config}

/-- In the contexts that were there before a subject comes to the same. -/
theorem rendering?_extend (hwf : s.symbols.WellFormed) (hspace : s.space config.prune = .ok space)
    {indices : List Nat} (hindices : List.Forall₂ (· < ·) indices space.sizes) :
    (s.extend name more).rendering? functions config ((space.extend name more).contextAt indices) =
      s.rendering? functions config (space.contextAt indices) := by
  have hselects := contextAt_selects hwf hspace hindices
  have hclosed : (space.contextAt indices).symbols.ClosedUnder (s.KeepsName config.prune)
      (s.KeepsSlice config.prune) := contextAt_symbols hspace indices ▸ s.closedUnder_kept config.prune
  rw [ContextSpace.contextAt_extend hindices]
  exact congrArg Except.toOption
    (render_agrees hselects.agrees_extend hclosed (s.refersWithin_kept config.prune)).symm

/-- No rendering is lost, and those that are kept stay in their order. -/
theorem rendered_sublist_extend (hwf : s.symbols.WellFormed) (h : ¬s.Slices name) :
    (s.resolve functions config).rendered.Sublist
      ((s.extend name more).resolve functions config).rendered := by
  rw [rendered_resolve, rendered_resolve, successes]
  split
  · exact List.nil_sublist _
  · rename_i space hspace
    rw [successes, space_extend h hspace]
    have hsame : ∀ indices ∈ Odometer.tuples space.sizes,
        s.rendering? functions config (space.contextAt indices) =
          (s.extend name more).rendering? functions config
            ((space.extend name more).contextAt indices) := fun indices hindices =>
      (rendering?_extend hwf hspace (Odometer.mem_tuples.1 hindices)).symm
    rw [List.filterMap_congr hsame]
    exact (Odometer.tuples_sublist ContextSpace.sizes_le_extend).filterMap _

end Subject

namespace Suite

/-- A subject whose parameter gets further values keeps every rendering that it had, in the same order,
and so does the suite, as long as no slice that the subject can see selects from the parameter. -/
theorem extension_keeps {functions functions' : Registry} {d : SuiteDefinition} {suite : Suite}
    (hsuite : (Suite.compile functions d).result = .ok suite) {before after : List Subject}
    {s : Subject} (hs : suite.subjects = before ++ s :: after) {name : String}
    (hslices : ¬s.Slices name) (more : List Value) (config : Config) :
    (s.resolve functions' config).rendered.Sublist
        ((s.extend name more).resolve functions' config).rendered ∧
      (suite.resolve functions' config).1.subjects ⊆
        (resolve { suite with subjects := before ++ s.extend name more :: after }
          functions' config).1.subjects := by
  have hmem : s ∈ suite.subjects := by simp [hs]
  have hkept : (s.resolve functions' config).rendered.Sublist
      ((s.extend name more).resolve functions' config).rendered :=
    Subject.rendered_sublist_extend (Suite.compile_wellFormed hsuite s hmem) hslices
  refine ⟨hkept, fun r hr => ?_⟩
  obtain ⟨s', hs', hr⟩ := mem_resolve.1 hr
  rw [hs, List.mem_append, List.mem_cons] at hs'
  simp only [mem_resolve, List.mem_append, List.mem_cons]
  rcases hs' with hs' | rfl | hs'
  · exact ⟨s', .inl hs', hr⟩
  · exact ⟨_, .inr (.inl rfl), hkept.subset hr⟩
  · exact ⟨s', .inr (.inr hs'), hr⟩

/-- A subject with a slice of `y`, but none of `x`. -/
def slicedSuite : SuiteDefinition where
  id := "suite"
  subjects := [{
    id := "subject"
    name := "name"
    code := "$\x7bm(x)\x7d"
    parameters := [⟨"x", [.integer 1]⟩, ⟨"y", [.text "a"]⟩]
    macros := [⟨"m(a)", ["$\x7ba\x7d$\x7by[:]\x7d"]⟩] }]

theorem extension_keeps_slicedSuite : ∃ suite s,
    (Suite.compile {} slicedSuite).result = .ok suite ∧ suite.subjects = [s] ∧ ¬s.Slices "x" ∧
      (s.resolve {} {}).rendered = [⟨"name", "1a", []⟩] ∧
      ((s.extend "x" [.integer 2]).resolve {} {}).rendered =
        [⟨"name", "1a", []⟩, ⟨"name", "2a", []⟩] ∧
      (s.resolve {} {}).rendered.Sublist ((s.extend "x" [.integer 2]).resolve {} {}).rendered := by
  have hrun : (Suite.compile {} slicedSuite).result.toOption.bind (fun suite =>
      suite.subjects.head?.map fun s => (suite.subjects.length, decide (s.Slices "x"),
        (s.resolve {} {}).rendered, ((s.extend "x" [.integer 2]).resolve {} {}).rendered)) =
      some (1, false, [⟨"name", "1a", []⟩], [⟨"name", "1a", []⟩, ⟨"name", "2a", []⟩]) := by
    decide +kernel
  simp only [Option.bind_eq_some_iff, Option.map_eq_some_iff, Except.toOption_eq_some,
    Prod.mk.injEq, decide_eq_false_iff_not] at hrun
  obtain ⟨suite, hsuite, s, hhead, hlength, hslices, hbefore, hafter⟩ := hrun
  obtain ⟨s', hsubjects⟩ := List.length_eq_one_iff.1 hlength
  obtain rfl : s' = s := by
    rw [hsubjects, List.head?_cons] at hhead
    exact Option.some.inj hhead
  have hsplit : suite.subjects = [] ++ s' :: [] := hsubjects
  exact ⟨suite, s', hsuite, hsubjects, hslices, hbefore, hafter,
    (@extension_keeps {} {} _ _ hsuite _ _ _ hsplit _ hslices [.integer 2] {}).1⟩

end Suite

end Variorum
