import PromptDoc.Partial.Loader

/-!
# What following references registers

Following the references of texts registers the partials that a loader supplies, and those that
their sources refer to in turn. The names found are the least set that holds every unknown name with
a source among the roots and among the references of a source in the set. Main statement: a run that
succeeds registers just these names and leaves no reference of theirs open (`exists_followed`,
`Followed.hasPartial_iff`).
-/

namespace PromptDoc

variable {σ : Type}

namespace PartialLoader

/-- The loader has a source for a name. -/
def Supplies (l : PartialLoader) (name source : String) : Prop :=
  l.load name = .ok (some source) ∧ source ≠ ""

/-- The loader has nothing for a name. -/
def Silent (l : PartialLoader) (name : String) : Prop :=
  l.load name = .ok none ∨ l.load name = .ok (some "")

/-- A name has one source. -/
theorem Supplies.unique {l : PartialLoader} {name s t : String} (hs : l.Supplies name s)
    (ht : l.Supplies name t) : s = t := by
  have h := hs.1.symm.trans ht.1
  exact Option.some.inj (Except.ok.inj h)

/-- A name with a source is not one that the loader has nothing for. -/
theorem Supplies.not_silent {l : PartialLoader} {name source : String}
    (h : l.Supplies name source) : ¬ l.Silent name := by
  rintro (hnone | hempty)
  · rw [h.1] at hnone
    cases hnone
  · rw [h.1] at hempty
    exact h.2 (Option.some.inj (Except.ok.inj hempty))

end PartialLoader

/-! ### Many partials -/

/-- Steps that register some partials. -/
def Setup.loads (ps : List (String × String)) : List Registration :=
  ps.map fun p ↦ .partialText p.1 p.2

/-- The partials that such steps register. -/
theorem Setup.filterMap_partialName?_loads (ps : List (String × String)) :
    (loads ps).filterMap Registration.partialName? = ps.map Prod.fst := by
  rw [loads, List.filterMap_map]
  exact congrFun (List.filterMap_eq_map (f := Prod.fst)) ps

namespace Engine

/-- Register some partials on an engine, in order. -/
def addPartials (e : Engine σ) (state : σ) (ps : List (String × String)) :
    Except TemplateError σ :=
  ps.foldlM (fun st p ↦ e.addPartial st p.1 p.2) state

variable {e : Engine σ} {state mid : σ} {name source : String} {ps qs : List (String × String)}

/-- After the first partial is registered come the others. -/
theorem addPartials_cons (h : e.addPartial state name source = .ok mid) :
    e.addPartials state ((name, source) :: ps) = e.addPartials mid ps := by
  rw [addPartials, List.foldlM_cons, h]
  rfl

/-- After some partials are registered come the others. -/
theorem addPartials_append (h : e.addPartials state ps = .ok mid) :
    e.addPartials state (ps ++ qs) = e.addPartials mid qs := by
  rw [addPartials] at h
  rw [addPartials, List.foldlM_append, h]
  rfl

/-- An engine that keeps the steps taken on it, takes every text as it is and renders the body. -/
def recorder (references : String → List String) : Engine (List Registration) where
  fresh := []
  addHelper steps name helper := steps ++ [.helper name helper]
  addBuiltin steps b := steps ++ [.builtin b]
  addPartial steps name source := .ok (steps ++ [.partialText name source])
  references := references
  setBody steps source := .ok (steps ++ [.body source])
  render steps _ _ :=
    match steps.getLast? with
    | some (.body source) => .ok source
    | _ => .error .render

/-- Such an engine keeps all partials. -/
theorem addPartials_recorder (references : String → List String) (steps : List Registration)
    (ps : List (String × String)) :
    (recorder references).addPartials steps ps = .ok (steps ++ Setup.loads ps) := by
  induction ps generalizing steps with
  | nil => exact congrArg Except.ok (List.append_nil steps).symm
  | cons p ps ih =>
    have hadd : (recorder references).addPartial steps p.1 p.2 =
        .ok (steps ++ [.partialText p.1 p.2]) := rfl
    rw [addPartials_cons hadd, ih, List.append_assoc]
    rfl

end Engine

/-! ### What following leads to -/

/-- The names that following references from some roots leads to: each has a source, is not known
from before, and stands among the roots or among the references of such a name's source. -/
inductive Supplied (e : Engine σ) (l : PartialLoader) (known : String → Prop)
    (roots : List String) : String → Prop
  | root {name source : String} : name ∈ roots → ¬ known name → l.Supplies name source →
      Supplied e l known roots name
  | reference {parent text name source : String} : Supplied e l known roots parent →
      l.Supplies parent text → name ∈ e.references text → ¬ known name →
      l.Supplies name source → Supplied e l known roots name

namespace Supplied

variable {e : Engine σ} {l : PartialLoader} {known : String → Prop} {roots : List String}

/-- A name that following leads to was not known. -/
theorem not_known {name : String} (h : Supplied e l known roots name) : ¬ known name := by
  cases h with
  | root _ hnew _ => exact hnew
  | reference _ _ _ hnew _ => exact hnew

/-- More roots and fewer known names lead to more. -/
theorem mono {known' : String → Prop} {roots' : List String} (hroots : ∀ x ∈ roots, x ∈ roots')
    (hknown : ∀ x, known' x → known x) {name : String} (h : Supplied e l known roots name) :
    Supplied e l known' roots' name := by
  induction h with
  | root hmem hnew hsource => exact .root (hroots _ hmem) (mt (hknown _) hnew) hsource
  | reference _ htext hmem hnew hsource ih =>
    exact .reference ih htext hmem (mt (hknown _) hnew) hsource

/-- What the references of a source lead to, the name of the source leads to. -/
theorem of_references {name source : String} (hnew : ¬ known name)
    (hsource : l.Supplies name source) {x : String}
    (h : Supplied e l known (e.references source ++ roots) x) :
    Supplied e l known (name :: roots) x := by
  have hname : Supplied e l known (name :: roots) name := .root List.mem_cons_self hnew hsource
  induction h with
  | root hmem hx hxsource =>
    rcases List.mem_append.mp hmem with href | hroot
    · exact .reference hname hsource href hx hxsource
    · exact .root (List.mem_cons_of_mem name hroot) hx hxsource
  | reference _ htext hmem hx hxsource ih => exact .reference ih htext hmem hx hxsource

end Supplied

namespace Setup

/-- A name is taken care of: it is registered, or the loader has nothing for it. -/
def Settles (t : Setup σ) (l : PartialLoader) (name : String) : Prop :=
  t.hasPartial name = true ∨ l.Silent name

/-- What is registered stays registered when steps follow. -/
theorem hasPartial_of_append {s t : Setup σ} {more : List Registration}
    (h : t.steps = s.steps ++ more) {name : String} (hname : s.hasPartial name = true) :
    t.hasPartial name = true := by
  rw [hasPartial, h, List.any_append]
  exact Bool.or_eq_true_iff.mpr (.inl hname)

/-- The partials after some are registered are those before and these. -/
theorem hasPartial_iff_of_loads {s t : Setup σ} {ps : List (String × String)}
    (h : t.steps = s.steps ++ loads ps) (name : String) :
    t.hasPartial name = true ↔ s.hasPartial name = true ∨ name ∈ ps.map Prod.fst := by
  rw [hasPartial, h, List.any_append, Bool.or_eq_true, ← hasPartial, loads, List.any_map]
  simp [List.any_eq_true, Registration.partialName?]

/-- A partial that is not registered is refused by the engine alone. -/
theorem add_partialText_eq_error_iff {e : Engine σ} {s : Setup σ} {name source : String}
    {error : SetupError} (hnew : ¬ s.hasPartial name = true) :
    s.add e (.partialText name source) = .error error ↔
      ∃ refusal, error = .template refusal ∧ e.addPartial s.state name source = .error refusal := by
  have hfree : s.taken? (.partialText name source) = none := if_neg hnew
  rw [add_of_free hfree, Engine.register]
  cases e.addPartial s.state name source with
  | error refusal =>
    show Except.error (SetupError.template refusal) = Except.error _ ↔ _
    simp [eq_comm]
  | ok state =>
    show Except.ok _ = Except.error _ ↔ _
    simp

/-- What a run does that takes up a new name: it asks the loader, which fails, has nothing, or has a
source; a source is registered, unless the engine refuses it, and its references come next. -/
theorem follow_cons_cases (e : Engine σ) (l : PartialLoader) {name : String} (rest : List String)
    {s : Setup σ} (hnew : ¬ s.hasPartial name = true) :
    (∃ reason, l.load name = .error reason ∧
        follow e l (name :: rest) s =
          .afterCall (.partialText name) (throw (.load name reason))) ∨
      (l.Silent name ∧
        follow e l (name :: rest) s = .afterCall (.partialText name) (follow e l rest s)) ∨
      (∃ source error, l.Supplies name source ∧
        e.addPartial s.state name source = .error error ∧
        follow e l (name :: rest) s =
          .afterCall (.partialText name) (throw (.setup (.template error)))) ∨
      ∃ source next, l.Supplies name source ∧ s.add e (.partialText name source) = .ok next ∧
        follow e l (name :: rest) s =
          .afterCall (.partialText name) (follow e l (e.references source ++ rest) next) := by
  rw [follow, dif_neg hnew]
  split
  · next reason hload => exact .inl ⟨reason, hload, rfl⟩
  · next hload => exact .inr (.inl ⟨.inl hload, rfl⟩)
  · next source hload =>
    split
    · next hempty =>
      subst hempty
      exact .inr (.inl ⟨.inr hload, rfl⟩)
    · next hsource =>
      split
      · next error hadd =>
        obtain ⟨refusal, rfl, hrefused⟩ := (add_partialText_eq_error_iff hnew).mp hadd
        exact .inr (.inr (.inl ⟨source, refusal, ⟨hload, hsource⟩, hrefused, rfl⟩))
      · next next hadd => exact .inr (.inr (.inr ⟨source, next, ⟨hload, hsource⟩, hadd, rfl⟩))

/-- A run that takes up a new name and succeeds: the loader has nothing for the name, or its source
is registered and its references come next. -/
theorem follow_cons_eq_ok {e : Engine σ} {l : PartialLoader} {name : String} {rest : List String}
    {s t : Setup σ} (hnew : ¬ s.hasPartial name = true)
    (h : (follow e l (name :: rest) s).result = .ok t) :
    (l.Silent name ∧ (follow e l rest s).result = .ok t) ∨
      ∃ source next, l.Supplies name source ∧ s.add e (.partialText name source) = .ok next ∧
        (follow e l (e.references source ++ rest) next).result = .ok t := by
  rcases follow_cons_cases e l rest hnew with
    ⟨_, _, heq⟩ | ⟨hsilent, heq⟩ | ⟨_, _, _, _, heq⟩ | ⟨source, next, hsource, hadd, heq⟩
  · rw [heq] at h
    cases h
  · rw [heq] at h
    exact .inl ⟨hsilent, h⟩
  · rw [heq] at h
    cases h
  · rw [heq] at h
    exact .inr ⟨source, next, hsource, hadd, h⟩

/-- A run from `s` to `t` that registers the partials `loaded`, in order. -/
structure Followed (e : Engine σ) (l : PartialLoader) (pending : List String) (s t : Setup σ)
    (loaded : List (String × String)) : Prop where
  /-- Nothing else is registered. -/
  steps : t.steps = s.steps ++ loads loaded
  /-- Each partial has the loader's source. -/
  supplies : ∀ p ∈ loaded, l.Supplies p.1 p.2
  /-- Each partial is one that following leads to. -/
  sound : ∀ p ∈ loaded, Supplied e l (fun x ↦ s.hasPartial x = true) pending p.1
  /-- The names to look at are taken care of. -/
  settles_pending : ∀ name ∈ pending, t.Settles l name
  /-- So are the references of each partial. -/
  settles_references : ∀ p ∈ loaded, ∀ name ∈ e.references p.2, t.Settles l name

namespace Followed

variable {e : Engine σ} {l : PartialLoader} {pending rest : List String} {name : String}
  {s t next : Setup σ} {loaded : List (String × String)}

/-- A name that is taken care of can be passed over. -/
theorem pass (h : Followed e l rest s t loaded) (hname : t.Settles l name) :
    Followed e l (name :: rest) s t loaded := by
  refine ⟨h.steps, h.supplies, ?_, ?_, h.settles_references⟩
  · intro p hp
    exact (h.sound p hp).mono (fun _ hx ↦ List.mem_cons_of_mem name hx) fun _ hx ↦ hx
  · intro x hx
    rcases List.mem_cons.mp hx with rfl | hx
    · exact hname
    · exact h.settles_pending x hx

/-- A source that is registered comes before what its references and the other names load. -/
theorem load {source : String} (hnew : ¬ s.hasPartial name = true)
    (hsource : l.Supplies name source) (hadd : s.add e (.partialText name source) = .ok next)
    (h : Followed e l (e.references source ++ rest) next t loaded) :
    Followed e l (name :: rest) s t ((name, source) :: loaded) := by
  have hnext := hasPartial_add_partialText hadd
  have hkept : ∀ x, s.hasPartial x = true → next.hasPartial x = true := by
    intro x hx
    rw [hnext, hx, Bool.true_or]
  refine ⟨?_, ?_, ?_, ?_, ?_⟩
  · rw [h.steps, steps_add hadd]
    simp [loads]
  · intro p hp
    rcases List.mem_cons.mp hp with rfl | hp
    · exact hsource
    · exact h.supplies p hp
  · intro p hp
    rcases List.mem_cons.mp hp with rfl | hp
    · exact .root List.mem_cons_self hnew hsource
    · exact ((h.sound p hp).mono (fun _ hx ↦ hx) hkept).of_references hnew hsource
  · intro x hx
    rcases List.mem_cons.mp hx with rfl | hx
    · left
      apply hasPartial_of_append h.steps
      rw [hnext]
      simp
    · exact h.settles_pending x (List.mem_append_right _ hx)
  · intro p hp x hx
    rcases List.mem_cons.mp hp with rfl | hp
    · exact h.settles_pending x (List.mem_append_left rest hx)
    · exact h.settles_references p hp x hx

end Followed

/-- A run that succeeds registers partials that following leads to, and leaves no reference open.
The induction is that of the run: either a name is passed over, or it is registered and its
references come in front of the names still to look at. -/
theorem exists_followed {e : Engine σ} {l : PartialLoader} {pending : List String} {s t : Setup σ}
    (h : (follow e l pending s).result = .ok t) : ∃ loaded, Followed e l pending s t loaded := by
  induction pending, s using follow.induct e l with
  | case1 s =>
    rw [follow] at h
    cases h
    exact ⟨[], ⟨by simp [loads], by simp, by simp, by simp, by simp⟩⟩
  | case2 s name rest hknown ih =>
    rw [follow, dif_pos hknown] at h
    obtain ⟨loaded, hrun⟩ := ih h
    exact ⟨loaded, hrun.pass (.inl (hasPartial_of_append hrun.steps hknown))⟩
  | case3 s name rest hnew ihrest ihnext =>
    rcases follow_cons_eq_ok hnew h with ⟨hsilent, h⟩ | ⟨source, next, hsource, hadd, h⟩
    · obtain ⟨loaded, hrun⟩ := ihrest h
      exact ⟨loaded, hrun.pass (.inr hsilent)⟩
    · obtain ⟨loaded, hrun⟩ := ihnext source hsource.1 hsource.2 next hadd h
      exact ⟨_, hrun.load hnew hsource hadd⟩

namespace Followed

variable {e : Engine σ} {l : PartialLoader} {pending : List String} {s t : Setup σ}
  {loaded : List (String × String)}

/-- The partials after a run are those before it and those that following leads to. -/
theorem hasPartial_iff (h : Followed e l pending s t loaded) (name : String) :
    t.hasPartial name = true ↔
      s.hasPartial name = true ∨ Supplied e l (fun x ↦ s.hasPartial x = true) pending name := by
  constructor
  · intro hname
    rcases (hasPartial_iff_of_loads h.steps name).mp hname with hold | hnew
    · exact .inl hold
    · obtain ⟨p, hp, rfl⟩ := List.mem_map.mp hnew
      exact .inr (h.sound p hp)
  · rintro (hold | hsupplied)
    · exact (hasPartial_iff_of_loads h.steps name).mpr (.inl hold)
    · induction hsupplied with
      | root hmem _ hsource =>
        exact (h.settles_pending _ hmem).resolve_right hsource.not_silent
      | reference hparent htext hmem _ hsource ih =>
        rcases (hasPartial_iff_of_loads h.steps _).mp ih with hold | hnew
        · exact False.elim (hparent.not_known hold)
        · obtain ⟨p, hp, rfl⟩ := List.mem_map.mp hnew
          obtain rfl := htext.unique (h.supplies p hp)
          exact (h.settles_references p hp _ hmem).resolve_right hsource.not_silent

end Followed

end Setup

end PromptDoc
