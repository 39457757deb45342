import PromptDoc.Proofs.Compiler.Definitions
import PromptDoc.Proofs.Compiler.Includes
import PromptDoc.Proofs.Partial.Walk

/-!
# What a compile registers, and in which order

To compile is to work off an agenda on a fresh engine: the caller's helpers in ascending order, the
built-in helpers that none of them replaces, and the local partials in ascending order. Then come
the partials that the walk along the references of the template finds, and last the body. No name
comes up twice, so no step is refused because its name is taken. Main statement: this, for every
compiler and every document, with the questions to the loader and the engine that comes out, beside
the fact that a compiler does not show the order of its definitions
(`definitions_and_registrations`).
-/

namespace PromptDoc

variable {σ : Type}

/-! ### Steps with different names -/

/-- Steps that register no helper twice and no partial twice. -/
structure Distinct (rs : List Registration) : Prop where
  helpers : (rs.filterMap Registration.helperName?).Nodup
  partials : (rs.filterMap Registration.partialName?).Nodup

namespace Setup

variable {e : Engine σ} {s t : Setup σ} {r : Registration} {rs : List Registration}

private theorem any_eq_false_of_nodup {f : Registration → Option String}
    {before : List Registration} {name : String} (hname : f r = some name)
    (h : ((before ++ r :: rs).filterMap f).Nodup) :
    (before.any fun x ↦ f x = some name) = false := by
  rw [List.filterMap_append, List.nodup_append] at h
  rw [List.any_eq_false]
  intro x hx hsame
  have hbefore : name ∈ before.filterMap f :=
    List.mem_filterMap.mpr ⟨x, hx, of_decide_eq_true hsame⟩
  have hstep : name ∈ (r :: rs).filterMap f :=
    List.mem_filterMap.mpr ⟨r, List.mem_cons_self, hname⟩
  exact h.2.2 name hbefore name hstep rfl

/-- The name of a step that repeats no name is free. -/
theorem taken?_of_distinct (h : Distinct (s.steps ++ r :: rs)) : s.taken? r = none := by
  cases r with
  | helper name f =>
    have hfree : s.hasHelper name = false := any_eq_false_of_nodup rfl h.helpers
    simp [taken?, hfree]
  | builtin b =>
    have hfree : s.hasHelper b.name = false := any_eq_false_of_nodup rfl h.helpers
    simp [taken?, hfree]
  | partialText name source =>
    have hfree : s.hasPartial name = false := any_eq_false_of_nodup rfl h.partials
    simp [taken?, hfree]
  | body source => rfl

/-- Steps that repeat no name are up to the engine. -/
theorem addAll_of_distinct (h : Distinct (s.steps ++ rs)) :
    s.addAll e rs =
      ((rs.foldlM e.register s.state).map fun state ↦ ⟨state, s.steps ++ rs⟩).mapError
        .template := by
  induction rs generalizing s with
  | nil =>
    rw [List.append_nil]
    rfl
  | cons r rs ih =>
    rw [addAll, List.foldlM_cons, List.foldlM_cons, add_of_free (taken?_of_distinct h)]
    cases e.register s.state r with
    | error error => rfl
    | ok state =>
      have hsteps : s.steps ++ r :: rs = (s.steps ++ [r]) ++ rs := by simp
      rw [hsteps] at h ⊢
      exact ih (s := ⟨state, s.steps ++ [r]⟩) h

end Setup

/-! ### Agendas -/

/-- What there is to register for a prompt before its references are followed, in order. -/
structure Agenda (c : Compiler σ) where
  helpers : List (String × Helper)
  builtins : List Builtin
  partials : List (String × String)
  /-- The helpers are those of the caller, in ascending order. -/
  mem_helpers_iff : ∀ name f, (name, f) ∈ helpers ↔ c.helpers.get? name = some f
  helpers_ascending : helpers.Pairwise fun a b ↦ a.1 < b.1
  /-- The built-in helpers are those whose names no helper of the caller has. -/
  builtins_eq : builtins = Builtin.all.filter fun b ↦ c.helpers.get? b.name = none
  /-- The partials are the local ones, in ascending order. -/
  mem_partials_iff : ∀ name source, (name, source) ∈ partials ↔ c.partials.get? name = some source
  partials_ascending : partials.Pairwise fun a b ↦ a.1 < b.1

namespace Agenda

variable {c : Compiler σ}

/-- The engine with all helpers on it. -/
def withHelpers (a : Agenda c) : σ :=
  a.builtins.foldl c.engine.addBuiltin
    (a.helpers.foldl (fun state h ↦ c.engine.addHelper state h.1 h.2) c.engine.fresh)

/-- The engine with all helpers and the local partials on it. -/
def withPartials (a : Agenda c) : Except TemplateError σ :=
  c.engine.addPartials a.withHelpers a.partials

/-- The steps before references are followed. -/
def localSteps (a : Agenda c) : List Registration :=
  a.helpers.map (fun h ↦ .helper h.1 h.2) ++ a.builtins.map .builtin ++ Setup.loads a.partials

/-- Compile the body on an engine that some more partials were registered on. -/
def finish (a : Agenda c) (state : σ) (loaded : List (String × String)) (template : String) :
    Except PromptError (Setup σ) :=
  ((c.engine.setBody state template).map fun out ↦
    ⟨out, a.localSteps ++ Setup.loads loaded ++ [.body template]⟩).mapError .template

/-- What working an agenda off comes to, with the questions to the loader. The engine refuses a
local partial, or there is no loader, or the references of the template are walked: after a walk
that succeeds the body is compiled on the engine that came out, and one that fails is the end. -/
inductive Ends (a : Agenda c) (template : String) :
    List Call → Except PromptError (Setup σ) → Prop
  | refused {error : TemplateError} :
      a.withPartials = .error error → Ends a template [] (.error (.template error))
  | alone {state : σ} :
      a.withPartials = .ok state → c.loader = none → Ends a template [] (a.finish state [] template)
  | walked {l : PartialLoader} {state mid : σ} {journal : List Setup.Event} :
      a.withPartials = .ok state → c.loader = some l →
      Setup.Walk c.engine l (c.engine.references template) (fun x ↦ c.partials.contains x = true)
        state journal (.ok mid) →
      Ends a template (journal.filterMap Setup.Event.call?)
        (a.finish mid (Setup.loadedIn journal) template)
  | stopped {l : PartialLoader} {state : σ} {journal : List Setup.Event} {error : PartialError} :
      a.withPartials = .ok state → c.loader = some l →
      Setup.Walk c.engine l (c.engine.references template) (fun x ↦ c.partials.contains x = true)
        state journal (.error error) →
      Ends a template (journal.filterMap Setup.Event.call?) (.error error.toPromptError)

/-- Working an agenda off comes to one end. -/
theorem Ends.unique {a : Agenda c} {template : String} {calls calls' : List Call}
    {result result' : Except PromptError (Setup σ)} (h : a.Ends template calls result)
    (h' : a.Ends template calls' result') : calls = calls' ∧ result = result' := by
  cases h with
  | refused herror =>
    cases h' with
    | refused herror' =>
      cases herror.symm.trans herror'
      exact ⟨rfl, rfl⟩
    | alone hstate _ => cases herror.symm.trans hstate
    | walked hstate _ _ => cases herror.symm.trans hstate
    | stopped hstate _ _ => cases herror.symm.trans hstate
  | alone hstate hnone =>
    cases h' with
    | refused herror => cases hstate.symm.trans herror
    | alone hstate' _ =>
      cases hstate.symm.trans hstate'
      exact ⟨rfl, rfl⟩
    | walked _ hl _ => cases hnone.symm.trans hl
    | stopped _ hl _ => cases hnone.symm.trans hl
  | walked hstate hl hwalk =>
    cases h' with
    | refused herror => cases hstate.symm.trans herror
    | alone _ hnone => cases hl.symm.trans hnone
    | walked hstate' hl' hwalk' =>
      cases hstate.symm.trans hstate'
      cases hl.symm.trans hl'
      obtain ⟨rfl, hmid⟩ := hwalk.unique hwalk'
      cases hmid
      exact ⟨rfl, rfl⟩
    | stopped hstate' hl' hwalk' =>
      cases hstate.symm.trans hstate'
      cases hl.symm.trans hl'
      cases (hwalk.unique hwalk').2
  | stopped hstate hl hwalk =>
    cases h' with
    | refused herror => cases hstate.symm.trans herror
    | alone _ hnone => cases hl.symm.trans hnone
    | walked hstate' hl' hwalk' =>
      cases hstate.symm.trans hstate'
      cases hl.symm.trans hl'
      cases (hwalk.unique hwalk').2
    | stopped hstate' hl' hwalk' =>
      cases hstate.symm.trans hstate'
      cases hl.symm.trans hl'
      obtain ⟨rfl, herror⟩ := hwalk.unique hwalk'
      cases herror
      exact ⟨rfl, rfl⟩

/-- The body is compiled, or the engine refuses it. -/
theorem finish_eq_error {a : Agenda c} {state : σ} {loaded : List (String × String)}
    {template : String} {error : PromptError} (h : a.finish state loaded template = .error error) :
    ∃ refusal, error = .template refusal := by
  rw [finish] at h
  cases hbody : c.engine.setBody state template with
  | ok out =>
    rw [hbody] at h
    cases h
  | error refusal =>
    rw [hbody] at h
    exact ⟨refusal, (Except.error.inj h).symm⟩

/-- Working an agenda off fails because the engine refuses a text or the loader fails on a name. -/
theorem Ends.error_cases {a : Agenda c} {template : String} {calls : List Call}
    {error : PromptError} (h : a.Ends template calls (.error error)) :
    (∃ refusal, error = .template refusal) ∨ ∃ name reason, error = .partialLoad name reason := by
  generalize hr : Except.error error = r at h
  cases h with
  | refused _ =>
    cases hr
    exact .inl ⟨_, rfl⟩
  | alone _ _ => exact .inl (finish_eq_error hr.symm)
  | walked _ _ _ => exact .inl (finish_eq_error hr.symm)
  | stopped _ _ hwalk =>
    cases hr
    rcases hwalk.error_cases with ⟨name, reason, rfl⟩ | ⟨refusal, rfl⟩
    · exact .inr ⟨name, reason, rfl⟩
    · exact .inl ⟨refusal, rfl⟩

private theorem eq_of_ascending {α : Type} {es fs : List (String × α)}
    (hes : es.Pairwise fun a b ↦ a.1 < b.1) (hfs : fs.Pairwise fun a b ↦ a.1 < b.1)
    (h : ∀ e, e ∈ es ↔ e ∈ fs) : es = fs := by
  have hirrefl : Std.Irrefl fun a b : String × α ↦ a.1 < b.1 := ⟨fun a ↦ String.lt_irrefl a.1⟩
  have hantisymm : Std.Antisymm fun a b : String × α ↦ a.1 < b.1 :=
    ⟨fun _ _ hab hba ↦ absurd hba (String.lt_asymm hab)⟩
  exact List.Pairwise.eq_of_mem_iff hes hfs h

/-- A compiler has one agenda. -/
theorem eq_of_compiler (a b : Agenda c) : a = b := by
  have hhelpers : a.helpers = b.helpers :=
    eq_of_ascending a.helpers_ascending b.helpers_ascending fun e ↦
      (a.mem_helpers_iff e.1 e.2).trans (b.mem_helpers_iff e.1 e.2).symm
  have hpartials : a.partials = b.partials :=
    eq_of_ascending a.partials_ascending b.partials_ascending fun e ↦
      (a.mem_partials_iff e.1 e.2).trans (b.mem_partials_iff e.1 e.2).symm
  have hbuiltins : a.builtins = b.builtins := a.builtins_eq.trans b.builtins_eq.symm
  cases a
  cases b
  cases hhelpers
  cases hpartials
  cases hbuiltins
  rfl

private theorem nodup_of_ascending {α : Type} {es : List (String × α)}
    (h : es.Pairwise fun a b ↦ a.1 < b.1) : (es.map Prod.fst).Nodup := by
  rw [List.Nodup, List.pairwise_map]
  exact h.imp String.ne_of_lt

/-- The helpers of an agenda are those of the caller and then the built-in ones. -/
theorem filterMap_helperName? (a : Agenda c) :
    a.localSteps.filterMap Registration.helperName? =
      a.helpers.map Prod.fst ++ a.builtins.map Builtin.name := by
  simp [localSteps, Setup.loads, List.filterMap_append, List.filterMap_map, Function.comp_def,
    Registration.helperName?]

/-- The partials of an agenda are the local ones. -/
theorem filterMap_partialName? (a : Agenda c) :
    a.localSteps.filterMap Registration.partialName? = a.partials.map Prod.fst := by
  simp [localSteps, Setup.loads, List.filterMap_append, List.filterMap_map, Function.comp_def,
    Registration.partialName?]

/-- An agenda has no name twice. -/
theorem distinct_localSteps (a : Agenda c) : Distinct a.localSteps := by
  constructor
  · rw [filterMap_helperName?, List.nodup_append]
    refine ⟨nodup_of_ascending a.helpers_ascending, ?_, ?_⟩
    · have hall : (Builtin.all.map Builtin.name).Nodup := by decide
      rw [a.builtins_eq]
      exact hall.sublist (List.filter_sublist.map _)
    · rintro name hhelper _ hbuiltin rfl
      obtain ⟨⟨_, f⟩, hmem, rfl⟩ := List.mem_map.mp hhelper
      obtain ⟨b, hb, hname⟩ := List.mem_map.mp hbuiltin
      rw [a.builtins_eq, List.mem_filter, decide_eq_true_eq, hname,
        (a.mem_helpers_iff _ f).mp hmem] at hb
      cases hb.2
  · rw [filterMap_partialName?]
    exact nodup_of_ascending a.partials_ascending

/-- The steps of an agenda are calls of the engine, one for each. -/
theorem foldlM_register_localSteps (a : Agenda c) :
    a.localSteps.foldlM c.engine.register c.engine.fresh = a.withPartials := by
  have hhelpers : (a.helpers.map fun h ↦ .helper h.1 h.2).foldlM c.engine.register c.engine.fresh =
      .ok (a.helpers.foldl (fun state h ↦ c.engine.addHelper state h.1 h.2) c.engine.fresh) := by
    rw [List.foldlM_map]
    exact List.foldlM_pure
  have hbuiltins : ∀ state, (a.builtins.map .builtin).foldlM c.engine.register state =
      .ok (a.builtins.foldl c.engine.addBuiltin state) := by
    intro state
    rw [List.foldlM_map]
    exact List.foldlM_pure
  have hpartials : ∀ state, (Setup.loads a.partials).foldlM c.engine.register state =
      c.engine.addPartials state a.partials := by
    intro state
    rw [Setup.loads, List.foldlM_map]
    rfl
  rw [localSteps, List.foldlM_append, List.foldlM_append, hhelpers]
  dsimp only [bind, Except.bind]
  rw [hbuiltins]
  exact hpartials a.withHelpers

end Agenda

namespace Compiler

variable {c : Compiler σ}

/-- The agenda of a compiler. -/
def agenda (c : Compiler σ) : Agenda c where
  helpers := c.helpers.entries
  builtins := Builtin.all.filter fun b ↦ !c.helpers.contains b.name
  partials := c.partials.entries
  mem_helpers_iff _ _ := SortedMap.get?_eq_some_iff.symm
  helpers_ascending := c.helpers.ascending.imp compare_string_eq_lt.mp
  builtins_eq := by
    refine List.filter_congr fun b _ ↦ ?_
    rw [SortedMap.contains]
    cases c.helpers.get? b.name <;> rfl
  mem_partials_iff _ _ := SortedMap.get?_eq_some_iff.symm
  partials_ascending := c.partials.ascending.imp compare_string_eq_lt.mp

/-- The local steps are those of the agenda, and none is refused because its name is taken. -/
theorem addAll_localSteps (c : Compiler σ) :
    Setup.addAll c.engine ⟨c.engine.fresh, []⟩ c.localSteps =
      (c.agenda.withPartials.map fun state ↦ ⟨state, c.localSteps⟩).mapError .template := by
  rw [← c.agenda.foldlM_register_localSteps]
  exact Setup.addAll_of_distinct (s := ⟨c.engine.fresh, []⟩) c.agenda.distinct_localSteps

/-- To compile the body is the last step. -/
theorem add_body_eq_finish {s : Setup σ} {loaded : List (String × String)}
    (h : s.steps = c.localSteps ++ Setup.loads loaded) (template : String) :
    (s.add c.engine (.body template)).mapError (·.toPromptError) =
      c.agenda.finish s.state loaded template := by
  rw [Setup.add_of_free rfl, Agenda.finish, h, Engine.register]
  cases c.engine.setBody s.state template <;> rfl

/-- To prepare an engine is to work the agenda off. -/
theorem ends_prepare (c : Compiler σ) (template : String) :
    c.agenda.Ends template (c.prepare template).calls (c.prepare template).result := by
  cases hlocal : c.agenda.withPartials with
  | error error =>
    have hadd := c.addAll_localSteps
    rw [hlocal] at hadd
    rw [prepare, hadd]
    exact .refused hlocal
  | ok state =>
    let s : Setup σ := ⟨state, c.localSteps⟩
    have hadd : Setup.addAll c.engine ⟨c.engine.fresh, []⟩ c.localSteps = .ok s := by
      rw [c.addAll_localSteps, hlocal]
      rfl
    have hprepare : c.prepare template = c.follow template s >>= fun t ↦
        .ofExcept ((t.add c.engine (.body template)).mapError (·.toPromptError)) := by
      rw [prepare, hadd]
      rfl
    rw [hprepare, follow]
    cases hl : c.loader with
    | none =>
      have hsteps : s.steps = c.localSteps ++ Setup.loads [] := (List.append_nil _).symm
      show c.agenda.Ends template [] ((s.add c.engine (.body template)).mapError _)
      rw [add_body_eq_finish hsteps]
      exact .alone hlocal hl
    | some l =>
      obtain ⟨journal, hwalk, hcalls, hsteps⟩ :=
        Setup.exists_walk_follow c.engine l (c.engine.references template) s
      have hknown : s.Registered = fun x ↦ c.partials.contains x = true :=
        funext fun x ↦ propext (hasPartial_of_steps_eq_localSteps rfl x)
      rw [hknown] at hwalk
      rw [Traced.calls_bind_of_silent fun _ ↦ rfl, Traced.result_bind]
      show c.agenda.Ends template (s.follow c.engine l _).calls _
      rw [hcalls]
      dsimp only [Traced.mapError]
      cases hrun : (s.follow c.engine l (c.engine.references template)).result with
      | error error =>
        rw [hrun] at hwalk
        exact .stopped hlocal hl hwalk
      | ok t =>
        rw [hrun] at hwalk
        show c.agenda.Ends template _ ((t.add c.engine (.body template)).mapError _)
        rw [add_body_eq_finish (hsteps t hrun)]
        exact .walked hlocal hl hwalk

-- The caller's helpers come first, in ascending order, and one of them replaces a built-in one.
example (f g : Helper) :
    (((({ engine := verbatim } : Compiler (List Registration)).defineHelper "shout" f).defineHelper
      "json" g).prepare "").result.map (fun s ↦ s.state.filterMap Registration.helperName?) =
        .ok ["json", "shout", "role", "history", "section", "media"] := by cbv

/-- To compile is to work the agenda off. -/
theorem ends_compile (c : Compiler σ) (source : String) (metadata : Option PromptMetadata) :
    c.agenda.Ends (c.parse source).template (c.compile source metadata).calls
      ((c.compile source metadata).result.map (·.setup)) := by
  have htemplate : (withCompileTime (c.parse source) metadata).template =
      (c.parse source).template := by
    cases metadata <;> rfl
  have hends := c.ends_prepare (c.parse source).template
  rw [compile, htemplate, Traced.calls_bind_of_silent fun _ ↦ rfl, Traced.result_bind]
  cases hprepare : (c.prepare (c.parse source).template).result with
  | error error =>
    rw [hprepare] at hends
    exact hends
  | ok s =>
    rw [hprepare] at hends
    exact hends

/-- The order of definitions does not matter: two sequences make the same compiler, of which
everything later is asked, exactly if the last definitions under each name agree. And whatever is
defined, there is one agenda, to compile comes to just what working it off on a fresh engine comes
to, and it never fails because a name is taken. -/
theorem definitions_and_registrations (c : Compiler σ) :
    (∀ ds ds', c.defineAll ds = c.defineAll ds' ↔ ∀ r name,
      (last? ds r name).or (c.lookup r name) = (last? ds' r name).or (c.lookup r name)) ∧
    ∀ source metadata,
      let run := c.compile source metadata
      (∃! a : Agenda c, ∀ calls result, a.Ends (c.parse source).template calls result ↔
        calls = run.calls ∧ result = run.result.map (·.setup)) ∧
      ∀ name, run.result ≠ .error (.duplicateHelper name) ∧
        run.result ≠ .error (.duplicatePartial name) := by
  refine ⟨c.defineAll_eq_iff_lookup, ?_⟩
  intro source metadata run
  have hends : c.agenda.Ends (c.parse source).template run.calls (run.result.map (·.setup)) :=
    c.ends_compile source metadata
  have hfailure (error : PromptError) (hfails : run.result = .error error) :
      (∃ refusal, error = .template refusal) ∨ ∃ name reason, error = .partialLoad name reason := by
    rw [hfails] at hends
    exact hends.error_cases
  refine ⟨⟨c.agenda, ?_, fun a _ ↦ a.eq_of_compiler c.agenda⟩, fun name ↦ ⟨?_, ?_⟩⟩
  · intro calls result
    constructor
    · exact fun hends' ↦ hends'.unique hends
    · rintro ⟨rfl, rfl⟩
      exact hends
  · intro hfails
    rcases hfailure _ hfails with ⟨_, h⟩ | ⟨_, _, h⟩ <;> cases h
  · intro hfails
    rcases hfailure _ hfails with ⟨_, h⟩ | ⟨_, _, h⟩ <;> cases h

end Compiler

end PromptDoc
