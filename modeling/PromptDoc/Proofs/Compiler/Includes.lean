import Mathlib
import PromptDoc.Compiler
import PromptDoc.Proofs.Outcome
import PromptDoc.Proofs.Partial.Following
import PromptDoc.Template.Reference

/-!
# References of a compiled prompt

A prompt that compiles has on its engine the local partials and those that following the references
of its template leads to. No reference of the template or of a supplied partial is left open. The
references of local partials are not followed: one of them is left open when the loader has a source
for it that nothing else leads to. Main statement: which partials are registered, and when no
reference of any of them is open (`covers_compile_iff`).
-/

namespace PromptDoc

variable {σ : Type}

/-- Every reference of a text is taken care of. -/
def Setup.Covers (t : Setup σ) (e : Engine σ) (l : PartialLoader) (text : String) : Prop :=
  ∀ name ∈ e.references text, t.Settles l name

/-- Steps that are taken follow those taken before. -/
theorem Setup.steps_addAll {e : Engine σ} {rs : List Registration} {s t : Setup σ}
    (h : s.addAll e rs = .ok t) : t.steps = s.steps ++ rs := by
  rw [addAll] at h
  induction rs generalizing s with
  | nil =>
    cases h
    exact (List.append_nil _).symm
  | cons r rs ih =>
    obtain ⟨next, hadd, h⟩ := Outcome.foldlM_cons_eq_ok_iff.mp h
    rw [ih h, steps_add hadd, List.append_assoc]
    rfl

namespace Compiler

variable {c : Compiler σ} {l : PartialLoader}

/-- The partials among the local steps are the local partials. -/
theorem partialText_mem_localSteps {name text : String} :
    .partialText name text ∈ c.localSteps ↔ c.partials.get? name = some text := by
  rw [SortedMap.get?_eq_some_iff, localSteps]
  simp

/-- A partial is registered by the local steps when it is a local one. -/
theorem hasPartial_of_steps_eq_localSteps {s : Setup σ} (h : s.steps = c.localSteps)
    (name : String) : s.hasPartial name = true ↔ c.partials.contains name = true := by
  have hmem : s.hasPartial name = true ↔ ∃ text, .partialText name text ∈ c.localSteps := by
    rw [Setup.hasPartial, h, List.any_eq_true]
    constructor
    · rintro ⟨r, hr, hname⟩
      cases r with
      | partialText x text =>
        have hx : x = name := by simpa [Registration.partialName?] using hname
        subst hx
        exact ⟨text, hr⟩
      | helper x f => simp [Registration.partialName?] at hname
      | builtin b => simp [Registration.partialName?] at hname
      | body x => simp [Registration.partialName?] at hname
    · rintro ⟨text, hr⟩
      exact ⟨_, hr, by simp [Registration.partialName?]⟩
  rw [hmem, SortedMap.contains, Option.isSome_iff_exists]
  simp only [partialText_mem_localSteps]

/-- What preparing an engine does: the local steps, then a run of the loader, then the body. -/
theorem exists_followed_of_prepare (hl : c.loader = some l) {template : String} {t : Setup σ}
    (h : (c.prepare template).result = .ok t) :
    ∃ s₀ s₁ loaded, s₀.steps = c.localSteps ∧
      Setup.Followed c.engine l (c.engine.references template) s₀ s₁ loaded ∧
      t.steps = s₁.steps ++ [.body template] := by
  rw [prepare] at h
  obtain ⟨s₀, hs₀, h⟩ := Traced.result_bind_eq_ok_iff.mp h
  obtain ⟨s₁, hs₁, h⟩ := Traced.result_bind_eq_ok_iff.mp h
  have hlocal := Traced.result_ofExcept_mapError_eq_ok_iff.mp hs₀
  have hbody := Traced.result_ofExcept_mapError_eq_ok_iff.mp h
  rw [follow, hl] at hs₁
  obtain ⟨loaded, hrun⟩ := Setup.exists_followed (Traced.result_mapError_eq_ok_iff.mp hs₁)
  exact ⟨s₀, s₁, loaded, Setup.steps_addAll hlocal, hrun, Setup.steps_add hbody⟩

/-- A compiled prompt has the engine that was prepared for its template. -/
theorem prepare_of_compile {source : String} {metadata : Option PromptMetadata}
    {p : CompiledPrompt σ} (h : (c.compile source metadata).result = .ok p) :
    (c.prepare p.parsed.template).result = .ok p.setup := by
  rw [compile] at h
  obtain ⟨setup, hsetup, h⟩ := Traced.result_bind_eq_ok_iff.mp h
  cases h
  exact hsetup

/-- The partials that the loader supplies for a template, beside the local ones. -/
def Reached (c : Compiler σ) (l : PartialLoader) (template : String) : String → Prop :=
  Supplied c.engine l (fun x ↦ c.partials.contains x = true) (c.engine.references template)

section Prepared

variable {template : String} {t : Setup σ} (hl : c.loader = some l)
  (h : (c.prepare template).result = .ok t)

include hl h

/-- The partials of a prepared engine are the local ones and those the loader supplies for the
template. -/
theorem hasPartial_prepare_iff (name : String) :
    t.hasPartial name = true ↔
      c.partials.contains name = true ∨ c.Reached l template name := by
  obtain ⟨s₀, s₁, loaded, hlocal, hrun, hsteps⟩ := exists_followed_of_prepare hl h
  have hsame : t.hasPartial name = s₁.hasPartial name := by
    rw [Setup.hasPartial, hsteps, List.any_append]
    simp [Setup.hasPartial, Registration.partialName?]
  have hknown : (fun x ↦ s₀.hasPartial x = true) = fun x ↦ c.partials.contains x = true :=
    funext fun x ↦ propext (hasPartial_of_steps_eq_localSteps hlocal x)
  rw [hsame, hrun.hasPartial_iff, hknown, hasPartial_of_steps_eq_localSteps hlocal]
  rfl

/-- A run leaves no reference of the template open, and none of a supplied partial. -/
theorem covers_prepare :
    t.Covers c.engine l template ∧
      ∀ name text, .partialText name text ∈ t.steps → c.partials.get? name ≠ some text →
        t.Covers c.engine l text := by
  obtain ⟨s₀, s₁, loaded, hlocal, hrun, hsteps⟩ := exists_followed_of_prepare hl h
  have hsettles : ∀ {name : String}, s₁.Settles l name → t.Settles l name := by
    rintro name (hregistered | hsilent)
    · exact .inl (Setup.hasPartial_of_append hsteps hregistered)
    · exact .inr hsilent
  constructor
  · intro name hname
    exact hsettles (hrun.settles_pending name hname)
  · intro name text hmem hforeign reference hreference
    rw [hsteps, hrun.steps, hlocal, List.mem_append, List.mem_append] at hmem
    rcases hmem with (hmem | hmem) | hmem
    · exact False.elim (hforeign (partialText_mem_localSteps.mp hmem))
    · obtain ⟨p, hp, heq⟩ := List.mem_map.mp hmem
      cases heq
      exact hsettles (hrun.settles_references p hp reference hreference)
    · simp at hmem

/-- Local partials are registered. -/
theorem partialText_mem_of_get? {name text : String} (hlocal : c.partials.get? name = some text) :
    .partialText name text ∈ t.steps := by
  obtain ⟨s₀, s₁, loaded, hsteps₀, hrun, hsteps⟩ := exists_followed_of_prepare hl h
  rw [hsteps, hrun.steps, hsteps₀]
  exact List.mem_append_left _ (List.mem_append_left _ (partialText_mem_localSteps.mpr hlocal))

end Prepared

/-- A compiled prompt leaves no reference of its template open and none of a supplied partial. It
leaves none of any registered partial open exactly when each reference of a local partial is to a
local partial, to one that the loader supplies for the template, or to a name that the loader has
nothing for. -/
theorem covers_compile_iff (hl : c.loader = some l) {source : String}
    {metadata : Option PromptMetadata} {p : CompiledPrompt σ}
    (h : (c.compile source metadata).result = .ok p) :
    p.setup.Covers c.engine l p.parsed.template ∧
      (∀ name text, .partialText name text ∈ p.setup.steps → c.partials.get? name ≠ some text →
        p.setup.Covers c.engine l text) ∧
      ((∀ name text, .partialText name text ∈ p.setup.steps → p.setup.Covers c.engine l text) ↔
        ∀ name text, c.partials.get? name = some text → ∀ reference ∈ c.engine.references text,
          c.partials.contains reference = true ∨ c.Reached l p.parsed.template reference ∨
            l.Silent reference) := by
  have hprepare := prepare_of_compile h
  obtain ⟨htemplate, hsupplied⟩ := covers_prepare hl hprepare
  refine ⟨htemplate, hsupplied, ?_, ?_⟩
  · intro hall name text hlocal reference hreference
    have hmem := partialText_mem_of_get? hl hprepare hlocal
    rcases hall name text hmem reference hreference with hregistered | hsilent
    · rcases (hasPartial_prepare_iff hl hprepare reference).mp hregistered with hown | hreached
      · exact .inl hown
      · exact .inr (.inl hreached)
    · exact .inr (.inr hsilent)
  · intro hlocal name text hmem
    by_cases hown : c.partials.get? name = some text
    · intro reference hreference
      rcases hlocal name text hown reference hreference with hknown | hreached | hsilent
      · exact .inl ((hasPartial_prepare_iff hl hprepare reference).mpr (.inl hknown))
      · exact .inl ((hasPartial_prepare_iff hl hprepare reference).mpr (.inr hreached))
      · exact .inr hsilent
    · exact hsupplied name text hmem hown

/-- An engine that keeps the steps taken on it and renders the body verbatim. -/
def verbatim : Engine (List Registration) := .recorder Template.references

/-- A compiler with one local partial, which refers to a partial that only the loader has. -/
def letterhead : Compiler (List Registration) where
  engine := verbatim
  partials := (∅ : SortedMap String String).insert "letter" "\x7b% include \"signature\" %\x7d"
  loader := some (.ofNames ["signature"] fun _ ↦ .ok (some "Yours"))

private theorem supplies_signature :
    (PartialLoader.ofNames ["signature"] fun _ ↦ .ok (some "Yours")).Supplies "signature" "Yours" :=
  ⟨rfl, by decide⟩

private theorem references_letter :
    letterhead.engine.references "\x7b% include \"signature\" %\x7d" = ["signature"] := by cbv

private theorem get?_letterhead {name text : String}
    (h : letterhead.partials.get? name = some text) :
    name = "letter" ∧ text = "\x7b% include \"signature\" %\x7d" := by
  rw [letterhead, SortedMap.get?_insert] at h
  split at h
  · next heq => exact ⟨Std.LawfulEqCmp.eq_of_compare heq, (Option.some.inj h).symm⟩
  · cases h

/-- A template that refers to both partials: both are on the engine, and the reference of the local
one is taken care of. -/
theorem covers_letterhead_both :
    let source := "\x7b% include \"letter\" %\x7d \x7b% include \"signature\" %\x7d"
    let loader := PartialLoader.ofNames ["signature"] fun _ ↦ .ok (some "Yours")
    letterhead.loader = some loader ∧
      ∃ p, (letterhead.compile source none).result = .ok p ∧
        p.setup.state.filterMap Registration.partialName? = ["letter", "signature"] ∧
        ∀ name text, .partialText name text ∈ p.setup.steps →
          p.setup.Covers letterhead.engine loader text := by
  intro source loader
  have hrun : ((letterhead.compile source none).result.toOption.map fun p ↦
      (p.setup.state.filterMap Registration.partialName?,
        letterhead.engine.references p.parsed.template)) =
      some (["letter", "signature"], ["letter", "signature"]) := by cbv
  obtain ⟨p, hp, heq⟩ := Option.map_eq_some_iff.mp hrun
  obtain ⟨hstate, htemplate⟩ := Prod.mk.inj heq
  have hok := Traced.result_eq_ok_of_toOption hp
  refine ⟨rfl, p, hok, hstate, (covers_compile_iff rfl hok).2.2.mpr ?_⟩
  intro name text hlocal reference hreference
  obtain ⟨rfl, rfl⟩ := get?_letterhead hlocal
  rw [references_letter, List.mem_singleton] at hreference
  subst hreference
  refine .inr (.inl (.root ?_ (by decide) supplies_signature))
  rw [htemplate]
  decide

/-- A template that refers to the local partial alone: the prompt compiles without the other one,
and the reference of the local partial is left open. -/
theorem not_covers_letterhead :
    let source := "\x7b% include \"letter\" %\x7d"
    let loader := PartialLoader.ofNames ["signature"] fun _ ↦ .ok (some "Yours")
    letterhead.loader = some loader ∧
      ∃ p, (letterhead.compile source none).result = .ok p ∧
        p.setup.state.filterMap Registration.partialName? = ["letter"] ∧
        ¬ ∀ name text, .partialText name text ∈ p.setup.steps →
          p.setup.Covers letterhead.engine loader text := by
  intro source loader
  have hrun : ((letterhead.compile source none).result.toOption.map fun p ↦
      (p.setup.state.filterMap Registration.partialName?, p.setup.hasPartial "signature")) =
      some (["letter"], false) := by cbv
  obtain ⟨p, hp, heq⟩ := Option.map_eq_some_iff.mp hrun
  obtain ⟨hstate, habsent⟩ := Prod.mk.inj heq
  have hok := Traced.result_eq_ok_of_toOption hp
  refine ⟨rfl, p, hok, hstate, ?_⟩
  intro hall
  have hlocal : letterhead.partials.get? "letter" = some "\x7b% include \"signature\" %\x7d" := rfl
  have hmem := partialText_mem_of_get? (c := letterhead) rfl (prepare_of_compile hok) hlocal
  rcases hall _ _ hmem "signature" (by rw [references_letter]; decide) with hregistered | hsilent
  · rw [habsent] at hregistered
    cases hregistered
  · exact supplies_signature.not_silent hsilent

end Compiler

end PromptDoc
