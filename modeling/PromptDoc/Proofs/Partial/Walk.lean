import Mathlib
import PromptDoc.Proofs.Outcome
import PromptDoc.Proofs.Partial.Following

/-!
# The walk along references

Following references is a walk: the names that a text refers to are taken up one after another, and
a partial is registered and its own references are walked before the next name is taken up. Here the
walk is a relation with a journal of what happens, apart from the list of pending names that the
program keeps. Main statement: there is exactly one walk, also where references run in circles; it
asks for no registered name, registers each name once and before its references are walked, and if
it succeeds the engine that comes out has accepted just what the journal registers, and the names
are the least set closed under references (`follow_registers_least`).
-/

namespace PromptDoc

variable {σ : Type}

namespace Setup

/-- A partial of a name is registered. -/
def Registered (s : Setup σ) (name : String) : Prop := s.hasPartial name = true

/-! ### Journals -/

/-- What happens on a walk. -/
inductive Event where
  /-- The loader is asked for a name. -/
  | ask (name : String)
  /-- A partial is registered. -/
  | register (name source : String)
  /-- The references of a partial begin to be walked. -/
  | enter (name : String)

namespace Event

/-- The question that an event is. -/
def call? : Event → Option Call
  | ask name => some (.partialText name)
  | _ => none

/-- The partial that an event registers. -/
def loaded? : Event → Option (String × String)
  | register name source => some (name, source)
  | _ => none

/-- Whether an event may happen while some names are registered: only names that are not are asked
for and registered, and only the references of one that is are walked. -/
def Admissible (known : String → Prop) : Event → Prop
  | ask name => ¬ known name
  | register name _ => ¬ known name
  | enter name => known name

end Event

/-- The names that are registered after some events, if `known` were before. -/
def KnownAfter (known : String → Prop) (journal : List Event) (name : String) : Prop :=
  known name ∨ ∃ source, .register name source ∈ journal

/-- Every event of a journal may happen when it does. -/
def Orderly (known : String → Prop) (journal : List Event) : Prop :=
  ∀ before event, before ++ [event] <+: journal → event.Admissible (KnownAfter known before)

/-- No events make no name known. -/
@[simp] theorem knownAfter_nil (known : String → Prop) : KnownAfter known [] = known := by
  funext name
  simp [KnownAfter]

/-- A question makes no name known. -/
@[simp] theorem knownAfter_ask (known : String → Prop) (name : String) (journal : List Event) :
    KnownAfter known (.ask name :: journal) = KnownAfter known journal := by
  funext x
  simp [KnownAfter]

/-- A partial that is registered is known. -/
@[simp] theorem knownAfter_register (known : String → Prop) (name source : String)
    (journal : List Event) :
    KnownAfter known (.register name source :: journal) =
      KnownAfter (fun x ↦ known x ∨ x = name) journal := by
  funext x
  simp [KnownAfter, exists_or, or_assoc]

/-- To enter a partial makes no name known. -/
@[simp] theorem knownAfter_enter (known : String → Prop) (name : String) (journal : List Event) :
    KnownAfter known (.enter name :: journal) = KnownAfter known journal := by
  funext x
  simp [KnownAfter]

/-- The names after two journals in a row. -/
theorem knownAfter_append (known : String → Prop) (as bs : List Event) :
    KnownAfter known (as ++ bs) = KnownAfter (KnownAfter known as) bs := by
  funext name
  simp only [KnownAfter, List.mem_append, exists_or, or_assoc]

/-- Nothing can be out of order in an empty journal. -/
theorem orderly_nil (known : String → Prop) : Orderly known [] := by
  intro before event hpre
  simp at hpre

/-- A journal is in order when its first event may happen and the others are in order after it. -/
theorem orderly_cons {known : String → Prop} {event : Event} {journal : List Event} :
    Orderly known (event :: journal) ↔
      event.Admissible known ∧ Orderly (KnownAfter known [event]) journal := by
  constructor
  · intro h
    constructor
    · have hfirst := h [] event (List.prefix_append [event] journal)
      rwa [knownAfter_nil] at hfirst
    · intro before other hpre
      have hother := h (event :: before) other (List.cons_prefix_cons.mpr ⟨rfl, hpre⟩)
      rwa [← List.singleton_append, knownAfter_append] at hother
  · rintro ⟨hfirst, hrest⟩ before other hpre
    cases before with
    | nil =>
      obtain rfl : other = event := (List.cons_prefix_cons.mp hpre).1
      rwa [knownAfter_nil]
    | cons x before =>
      obtain ⟨rfl, hlater⟩ := List.cons_prefix_cons.mp hpre
      rw [← List.singleton_append, knownAfter_append]
      exact hrest before other hlater

/-- Two journals in a row are in order when the second is after the first. -/
theorem orderly_append {known : String → Prop} {as bs : List Event} :
    Orderly known (as ++ bs) ↔ Orderly known as ∧ Orderly (KnownAfter known as) bs := by
  induction as generalizing known with
  | nil => simp [orderly_nil]
  | cons event as ih =>
    rw [List.cons_append, orderly_cons, ih, orderly_cons, and_assoc, ← knownAfter_append]
    rfl

/-- The partials that a journal registers, in order. -/
def loadedIn (journal : List Event) : List (String × String) := journal.filterMap Event.loaded?

/-- Nothing happens, nothing is registered. -/
@[simp] theorem loadedIn_nil : loadedIn [] = [] := rfl

/-- A question registers nothing. -/
@[simp] theorem loadedIn_ask (name : String) (journal : List Event) :
    loadedIn (.ask name :: journal) = loadedIn journal := rfl

/-- A registration comes first. -/
@[simp] theorem loadedIn_register (name source : String) (journal : List Event) :
    loadedIn (.register name source :: journal) = (name, source) :: loadedIn journal := rfl

/-- To enter a partial registers nothing. -/
@[simp] theorem loadedIn_enter (name : String) (journal : List Event) :
    loadedIn (.enter name :: journal) = loadedIn journal := rfl

/-- Two journals in a row register one after the other. -/
@[simp] theorem loadedIn_append (as bs : List Event) :
    loadedIn (as ++ bs) = loadedIn as ++ loadedIn bs := List.filterMap_append

/-- A journal registers a partial by an event. -/
theorem mem_loadedIn {p : String × String} {journal : List Event} :
    p ∈ loadedIn journal ↔ .register p.1 p.2 ∈ journal := by
  induction journal with
  | nil => simp
  | cons event journal ih =>
    cases event with
    | ask name => simp [ih]
    | register name source => simp [ih, Prod.ext_iff]
    | enter name => simp [ih]

/-- What is registered in order was not known. -/
theorem Orderly.not_known {known : String → Prop} {journal : List Event} {p : String × String}
    (h : Orderly known journal) (hp : p ∈ loadedIn journal) : ¬ known p.1 := by
  obtain ⟨before, after, rfl⟩ := List.append_of_mem (mem_loadedIn.mp hp)
  have hevent := (orderly_cons.mp (orderly_append.mp h).2).1
  exact fun hknown ↦ hevent (.inl hknown)

/-- What is registered in order is registered once. -/
theorem Orderly.nodup_loadedIn {known : String → Prop} {journal : List Event}
    (h : Orderly known journal) : ((loadedIn journal).map Prod.fst).Nodup := by
  induction journal generalizing known with
  | nil => exact List.nodup_nil
  | cons event journal ih =>
    have hrest := (orderly_cons.mp h).2
    cases event with
    | ask name => exact ih hrest
    | enter name => exact ih hrest
    | register name source =>
      rw [loadedIn_register, List.map_cons, List.nodup_cons]
      refine ⟨?_, ih hrest⟩
      intro hmem
      obtain ⟨p, hp, hname⟩ := List.mem_map.mp hmem
      refine hrest.not_known hp ?_
      rw [knownAfter_register, knownAfter_nil]
      exact .inr hname

/-! ### Walks -/

/-- Taking up some names one after another on an engine, while the names in `known` are registered:
what happens, and the engine that comes out or why it comes to an end. -/
inductive Walk (e : Engine σ) (l : PartialLoader) :
    List String → (String → Prop) → σ → List Event → Except PartialError σ → Prop
  | done {known : String → Prop} {state : σ} : Walk e l [] known state [] (.ok state)
  | pass {name : String} {rest : List String} {known : String → Prop} {state : σ}
      {journal : List Event} {r : Except PartialError σ} :
      known name → Walk e l rest known state journal r →
      Walk e l (name :: rest) known state journal r
  | silent {name : String} {rest : List String} {known : String → Prop} {state : σ}
      {journal : List Event} {r : Except PartialError σ} :
      ¬ known name → l.Silent name → Walk e l rest known state journal r →
      Walk e l (name :: rest) known state (.ask name :: journal) r
  | failed {name reason : String} {rest : List String} {known : String → Prop} {state : σ} :
      ¬ known name → l.load name = .error reason →
      Walk e l (name :: rest) known state [.ask name] (.error (.load name reason))
  | refused {name source : String} {rest : List String} {known : String → Prop} {state : σ}
      {error : TemplateError} :
      ¬ known name → l.Supplies name source → e.addPartial state name source = .error error →
      Walk e l (name :: rest) known state [.ask name] (.error (.setup (.template error)))
  | stopped {name source : String} {rest : List String} {known : String → Prop} {state next : σ}
      {inner : List Event} {error : PartialError} :
      ¬ known name → l.Supplies name source → e.addPartial state name source = .ok next →
      Walk e l (e.references source) (fun x ↦ known x ∨ x = name) next inner (.error error) →
      Walk e l (name :: rest) known state
        (.ask name :: .register name source :: .enter name :: inner) (.error error)
  | loaded {name source : String} {rest : List String} {known : String → Prop}
      {state next mid : σ} {inner journal : List Event} {r : Except PartialError σ} :
      ¬ known name → l.Supplies name source → e.addPartial state name source = .ok next →
      Walk e l (e.references source) (fun x ↦ known x ∨ x = name) next inner (.ok mid) →
      Walk e l rest (KnownAfter (fun x ↦ known x ∨ x = name) inner) mid journal r →
      Walk e l (name :: rest) known state
        (.ask name :: .register name source :: .enter name :: (inner ++ journal)) r

namespace Walk

variable {e : Engine σ} {l : PartialLoader} {names : List String} {known : String → Prop}
  {state : σ} {journal journal' : List Event} {r r' : Except PartialError σ}

/-- There is at most one walk. The loader's answers exclude one another, so two walks that take up
the same name take the same turn. -/
theorem unique (h : Walk e l names known state journal r)
    (h' : Walk e l names known state journal' r') : journal = journal' ∧ r = r' := by
  induction h generalizing journal' r' with
  | done =>
    cases h'
    exact ⟨rfl, rfl⟩
  | pass hknown _ ih =>
    cases h' with
    | pass _ hrest => exact ih hrest
    | _ => contradiction
  | silent hnew hsilent _ ih =>
    cases h' with
    | silent _ _ hrest =>
      obtain ⟨rfl, rfl⟩ := ih hrest
      exact ⟨rfl, rfl⟩
    | _ => grind [PartialLoader.Silent, PartialLoader.Supplies]
  | failed hnew hload =>
    cases h' with
    | failed _ hload' =>
      rw [hload] at hload'
      cases hload'
      exact ⟨rfl, rfl⟩
    | _ => grind [PartialLoader.Silent, PartialLoader.Supplies]
  | refused hnew hsource hadd =>
    cases h' with
    | refused _ hsource' hadd' =>
      obtain rfl := hsource.unique hsource'
      rw [hadd] at hadd'
      cases hadd'
      exact ⟨rfl, rfl⟩
    | _ => grind [PartialLoader.Silent, PartialLoader.Supplies]
  | stopped hnew hsource hadd _ ih =>
    cases h' with
    | stopped _ hsource' hadd' hinner =>
      obtain rfl := hsource.unique hsource'
      rw [hadd] at hadd'
      cases hadd'
      obtain ⟨rfl, herror⟩ := ih hinner
      cases herror
      exact ⟨rfl, rfl⟩
    | _ => grind [PartialLoader.Silent, PartialLoader.Supplies]
  | loaded hnew hsource hadd _ _ ihinner ihrest =>
    cases h' with
    | loaded _ hsource' hadd' hinner hrest =>
      obtain rfl := hsource.unique hsource'
      rw [hadd] at hadd'
      cases hadd'
      obtain ⟨rfl, hmid⟩ := ihinner hinner
      cases hmid
      obtain ⟨rfl, rfl⟩ := ihrest hrest
      exact ⟨rfl, rfl⟩
    | _ => grind [PartialLoader.Silent, PartialLoader.Supplies]

/-- A walk over two lists of names is one over the first and then one over the second, unless the
first fails. -/
theorem of_append {as bs : List String} (h : Walk e l (as ++ bs) known state journal r) :
    (∃ mid first second, journal = first ++ second ∧ Walk e l as known state first (.ok mid) ∧
        Walk e l bs (KnownAfter known first) mid second r) ∨
      ∃ error, r = .error error ∧ Walk e l as known state journal (.error error) := by
  induction as generalizing known state journal with
  | nil => exact .inl ⟨state, [], journal, rfl, .done, by rwa [knownAfter_nil]⟩
  | cons name as ih =>
    cases h with
    | pass hknown hrest =>
      rcases ih hrest with ⟨mid, first, second, rfl, hfirst, hsecond⟩ | ⟨error, rfl, hfirst⟩
      · exact .inl ⟨mid, first, second, rfl, .pass hknown hfirst, hsecond⟩
      · exact .inr ⟨error, rfl, .pass hknown hfirst⟩
    | silent hnew hsilent hrest =>
      rcases ih hrest with ⟨mid, first, second, rfl, hfirst, hsecond⟩ | ⟨error, rfl, hfirst⟩
      · refine .inl ⟨mid, _, second, rfl, .silent hnew hsilent hfirst, ?_⟩
        rwa [knownAfter_ask]
      · exact .inr ⟨error, rfl, .silent hnew hsilent hfirst⟩
    | failed hnew hload => exact .inr ⟨_, rfl, .failed hnew hload⟩
    | refused hnew hsource hadd => exact .inr ⟨_, rfl, .refused hnew hsource hadd⟩
    | stopped hnew hsource hadd hinner => exact .inr ⟨_, rfl, .stopped hnew hsource hadd hinner⟩
    | loaded hnew hsource hadd hinner hrest =>
      rcases ih hrest with ⟨mid, first, second, rfl, hfirst, hsecond⟩ | ⟨error, rfl, hfirst⟩
      · refine .inl ⟨mid, _, second, ?_, .loaded hnew hsource hadd hinner hfirst, ?_⟩
        · simp
        · rwa [knownAfter_ask, knownAfter_register, knownAfter_enter, knownAfter_append]
      · exact .inr ⟨error, rfl, .loaded hnew hsource hadd hinner hfirst⟩

/-- The partials that a walk registers have the loader's sources. -/
theorem supplies (h : Walk e l names known state journal r) :
    ∀ p ∈ loadedIn journal, l.Supplies p.1 p.2 := by
  induction h with
  | done => simp
  | pass _ _ ih => exact ih
  | silent _ _ _ ih => exact ih
  | failed _ _ => simp
  | refused _ _ _ => simp
  | stopped _ hsource _ _ ih =>
    intro p hp
    rcases List.mem_cons.mp hp with rfl | hp
    · exact hsource
    · exact ih p hp
  | loaded _ hsource _ _ _ ihinner ihrest =>
    intro p hp
    simp only [loadedIn_ask, loadedIn_register, loadedIn_enter, loadedIn_append, List.mem_cons,
      List.mem_append] at hp
    rcases hp with rfl | hp | hp
    · exact hsource
    · exact ihinner p hp
    · exact ihrest p hp

/-- A walk registers the partials of its journal: the engine accepts them in order, and if the walk
succeeds, the engine that has accepted them all comes out. -/
theorem addPartials_loadedIn (h : Walk e l names known state journal r) :
    ∃ out, e.addPartials state (loadedIn journal) = .ok out ∧
      ∀ last, r = .ok last → last = out := by
  induction h with
  | done => exact ⟨_, rfl, fun _ h ↦ (Except.ok.inj h).symm⟩
  | pass _ _ ih => exact ih
  | silent _ _ _ ih => exact ih
  | failed _ _ => exact ⟨_, rfl, fun _ h ↦ by cases h⟩
  | refused _ _ _ => exact ⟨_, rfl, fun _ h ↦ by cases h⟩
  | stopped _ _ hadd _ ih =>
    obtain ⟨out, hout, -⟩ := ih
    refine ⟨out, ?_, fun _ h ↦ by cases h⟩
    rw [loadedIn_ask, loadedIn_register, Engine.addPartials_cons hadd]
    exact hout
  | loaded _ _ hadd _ _ ihinner ihrest =>
    obtain ⟨mid, hmid, hsame⟩ := ihinner
    obtain rfl := hsame _ rfl
    obtain ⟨out, hout, hlast⟩ := ihrest
    refine ⟨out, ?_, hlast⟩
    rw [loadedIn_ask, loadedIn_register, Engine.addPartials_cons hadd, loadedIn_enter,
      loadedIn_append, Engine.addPartials_append hmid]
    exact hout

/-- A walk fails as the loader does or because the engine refuses a partial. No name is registered
twice, so this is never the reason. -/
theorem error_cases {error : PartialError} (h : Walk e l names known state journal (.error error)) :
    (∃ name reason, error = .load name reason) ∨
      ∃ refusal, error = .setup (.template refusal) := by
  generalize hr : Except.error error = r at h
  induction h with
  | done => cases hr
  | pass _ _ ih => exact ih hr
  | silent _ _ _ ih => exact ih hr
  | failed _ _ =>
    cases hr
    exact .inl ⟨_, _, rfl⟩
  | refused _ _ _ =>
    cases hr
    exact .inr ⟨_, rfl⟩
  | stopped _ _ _ _ ih => exact ih hr
  | loaded _ _ _ _ _ _ ihrest => exact ihrest hr

-- a partial that is registered may be asked for before and entered after
private theorem orderly_load {name source : String} {inner : List Event} (hnew : ¬ known name)
    (h : Orderly (fun x ↦ known x ∨ x = name) inner) :
    Orderly known (.ask name :: .register name source :: .enter name :: inner) := by
  rw [orderly_cons, knownAfter_ask, knownAfter_nil, orderly_cons, knownAfter_register,
    knownAfter_nil, orderly_cons, knownAfter_enter, knownAfter_nil]
  exact ⟨hnew, hnew, .inr rfl, h⟩

/-- On a walk names are asked for, registered and entered in order. -/
theorem orderly (h : Walk e l names known state journal r) : Orderly known journal := by
  induction h with
  | done => exact orderly_nil _
  | pass _ _ ih => exact ih
  | silent hnew _ _ ih =>
    rw [orderly_cons, knownAfter_ask, knownAfter_nil]
    exact ⟨hnew, ih⟩
  | failed hnew _ =>
    rw [orderly_cons]
    exact ⟨hnew, orderly_nil _⟩
  | refused hnew _ _ =>
    rw [orderly_cons]
    exact ⟨hnew, orderly_nil _⟩
  | stopped hnew _ _ _ ih => exact orderly_load hnew ih
  | loaded hnew _ _ _ _ ihinner ihrest =>
    exact orderly_load hnew (orderly_append.mpr ⟨ihinner, ihrest⟩)

end Walk

/-- The names that are known after a partial is registered. -/
theorem registered_add_partialText {e : Engine σ} {s t : Setup σ} {name source : String}
    (h : s.add e (.partialText name source) = .ok t) :
    t.Registered = fun x ↦ s.Registered x ∨ x = name := by
  funext x
  rw [Registered, hasPartial_add_partialText h, Bool.or_eq_true, decide_eq_true_eq,
    eq_comm (a := name), Registered]

/-- Following is a walk on the engine, the loader is asked what the walk asks, and the steps taken
are those of the walk. The pending names of the program are the names left to take up in all the
lists that the walk is in. -/
theorem exists_walk_follow (e : Engine σ) (l : PartialLoader) (pending : List String)
    (s : Setup σ) :
    ∃ journal,
      Walk e l pending s.Registered s.state journal
        ((follow e l pending s).result.map Setup.state) ∧
      (follow e l pending s).calls = journal.filterMap Event.call? ∧
      ∀ t, (follow e l pending s).result = .ok t →
        t.steps = s.steps ++ loads (loadedIn journal) := by
  induction pending, s using follow.induct e l with
  | case1 s =>
    rw [follow]
    refine ⟨[], .done, rfl, ?_⟩
    intro t ht
    cases ht
    exact (List.append_nil _).symm
  | case2 s name rest hknown ih =>
    obtain ⟨journal, hwalk, hrun⟩ := ih
    rw [follow, dif_pos hknown]
    exact ⟨journal, .pass hknown hwalk, hrun⟩
  | case3 s name rest hnew ihrest ihnext =>
    rcases follow_cons_cases e l rest hnew with
      ⟨reason, hload, heq⟩ | ⟨hsilent, heq⟩ | ⟨source, error, hsource, hadd, heq⟩ |
        ⟨source, next, hsource, hadd, heq⟩
    · rw [heq]
      exact ⟨_, .failed hnew hload, rfl, fun t ht ↦ by cases ht⟩
    · obtain ⟨journal, hwalk, hcalls, hsteps⟩ := ihrest
      rw [heq]
      exact ⟨_, .silent hnew hsilent hwalk, congrArg _ hcalls, hsteps⟩
    · rw [heq]
      exact ⟨_, .refused hnew hsource hadd, rfl, fun t ht ↦ by cases ht⟩
    · obtain ⟨journal, hwalk, hcalls, hsteps⟩ := ihnext source hsource.1 hsource.2 next hadd
      have hstate : e.addPartial s.state name source = .ok next.state := (add_eq_ok_iff.mp hadd).2.1
      rw [heq]
      rw [registered_add_partialText hadd] at hwalk
      rcases hwalk.of_append with
        ⟨mid, first, second, rfl, hfirst, hsecond⟩ | ⟨error, herror, hfirst⟩
      · refine ⟨_, .loaded hnew hsource hstate hfirst hsecond, congrArg _ hcalls, ?_⟩
        intro t ht
        rw [hsteps t ht, steps_add hadd]
        simp [loads]
      · refine ⟨.ask name :: .register name source :: .enter name :: journal, ?_,
          congrArg _ hcalls, ?_⟩
        · show Walk e l (name :: rest) s.Registered s.state _
            ((follow e l (e.references source ++ rest) next).result.map Setup.state)
          rw [herror]
          exact .stopped hnew hsource hstate hfirst
        · intro t ht
          rw [hsteps t ht, steps_add hadd]
          simp [loads]

/-! ### The least set closed under references -/

/-- A set of names is closed under references when it holds each name that was not known, that the
loader has a source for, and that stands among the roots or in the source of a name of the set. -/
def ClosedUnderReferences (e : Engine σ) (l : PartialLoader) (known : String → Prop)
    (roots : List String) (names : Set String) : Prop :=
  ∀ name source, ¬ known name → l.Supplies name source →
    (name ∈ roots ∨
      ∃ parent ∈ names, ∃ text, l.Supplies parent text ∧ name ∈ e.references text) →
    name ∈ names

/-- What following leads to is the least such set. -/
theorem isLeast_supplied (e : Engine σ) (l : PartialLoader) (known : String → Prop)
    (roots : List String) :
    IsLeast {names | ClosedUnderReferences e l known roots names}
      {name | Supplied e l known roots name} := by
  constructor
  · rintro name source hnew hsource (hroot | ⟨parent, hparent, text, htext, href⟩)
    · exact .root hroot hnew hsource
    · exact .reference hparent htext href hnew hsource
  · intro names hclosed name hname
    induction hname with
    | root hroot hnew hsource => exact hclosed _ _ hnew hsource (.inl hroot)
    | reference _ htext href hnew hsource ih =>
      exact hclosed _ _ hnew hsource (.inr ⟨_, ih, _, htext, href⟩)

/-- The names that a run registers are the least set closed under references. -/
theorem isLeast_registered {e : Engine σ} {l : PartialLoader} {roots : List String}
    {s t : Setup σ} (h : (follow e l roots s).result = .ok t) :
    IsLeast {names | ClosedUnderReferences e l s.Registered roots names}
      {name | t.Registered name ∧ ¬ s.Registered name} := by
  obtain ⟨loaded, hrun⟩ := exists_followed h
  have hnew : {name | t.Registered name ∧ ¬ s.Registered name} =
      {name | Supplied e l s.Registered roots name} := by
    ext name
    constructor
    · rintro ⟨hname, hfresh⟩
      exact ((hrun.hasPartial_iff name).mp hname).resolve_left hfresh
    · intro hname
      exact ⟨(hrun.hasPartial_iff name).mpr (.inr hname), hname.not_known⟩
  rw [hnew]
  exact isLeast_supplied e l s.Registered roots

/-- There is exactly one walk along the references of a template, also where they run in circles,
and following them is this walk. Nothing registered is asked for, and a name is registered at most
once, with the loader's source, before its own references are walked. If the walk succeeds, the
engine that comes out is the one on which these partials were registered in order, nothing else is
registered, and the names are the least set that holds each name that was not known, has a source,
and is referred to by the template or by the source of a name of the set. -/
theorem follow_registers_least (e : Engine σ) (l : PartialLoader) (s : Setup σ)
    (template : String) :
    let run := follow e l (e.references template) s
    ∃ journal,
      (∀ journal' r, Walk e l (e.references template) s.Registered s.state journal' r ↔
        journal' = journal ∧ r = run.result.map Setup.state) ∧
      run.calls = journal.filterMap Event.call? ∧
      Orderly s.Registered journal ∧
      ((loadedIn journal).map Prod.fst).Nodup ∧
      (∀ p ∈ loadedIn journal, l.Supplies p.1 p.2) ∧
      ∀ t, run.result = .ok t →
        e.addPartials s.state (loadedIn journal) = .ok t.state ∧
        t.steps = s.steps ++ loads (loadedIn journal) ∧
        (∀ name, t.Registered name ↔
          s.Registered name ∨ name ∈ (loadedIn journal).map Prod.fst) ∧
        IsLeast {names | ClosedUnderReferences e l s.Registered (e.references template) names}
          {name | name ∈ (loadedIn journal).map Prod.fst} := by
  intro run
  obtain ⟨journal, hwalk, hcalls, hsteps⟩ := exists_walk_follow e l (e.references template) s
  refine ⟨journal, ?_, hcalls, hwalk.orderly, hwalk.orderly.nodup_loadedIn, hwalk.supplies, ?_⟩
  · intro journal' r
    constructor
    · intro hwalk'
      exact hwalk'.unique hwalk
    · rintro ⟨rfl, rfl⟩
      exact hwalk
  · intro t ht
    have hregistered := hasPartial_iff_of_loads (hsteps t ht)
    obtain ⟨out, hout, hlast⟩ := hwalk.addPartials_loadedIn
    have hstate : t.state = out := hlast t.state (by rw [ht]; rfl)
    refine ⟨?_, hsteps t ht, hregistered, ?_⟩
    · rw [hout, hstate]
    · have hnames : {name | name ∈ (loadedIn journal).map Prod.fst} =
          {name | t.Registered name ∧ ¬ s.Registered name} := by
        ext name
        constructor
        · intro hname
          obtain ⟨p, hp, rfl⟩ := List.mem_map.mp hname
          exact ⟨(hregistered p.1).mpr (.inr hname), hwalk.orderly.not_known hp⟩
        · rintro ⟨hname, hfresh⟩
          exact ((hregistered name).mp hname).resolve_left hfresh
      rw [hnames]
      exact isLeast_registered ht

/-- An engine whose texts are names of partials with spaces between them, and which keeps what is
registered on it. -/
def words : Engine (List Registration) :=
  .recorder fun text ↦ (Text.fields ' ' text.toList).map String.ofList

/-- A template that leads to two partials, one of which refers to itself and both to one another.
Both are on the engine after the run, and they are the least set closed under references. -/
theorem follow_registers_least_circular :
    let loader := PartialLoader.ofNames ["a", "b"] fun name ↦
      .ok (some (if name = "a" then "a b" else "a"))
    let s : Setup (List Registration) := ⟨[], []⟩
    ∃ t, (follow words loader (words.references "a c") s).result = .ok t ∧
      t.state = [.partialText "a" "a b", .partialText "b" "a"] ∧
      IsLeast {names | ClosedUnderReferences words loader s.Registered ["a", "c"] names}
        {name | name ∈ ["a", "b"]} := by
  intro loader s
  have hrun : ((follow words loader (words.references "a c") s).result.toOption.map Setup.state) =
      some [.partialText "a" "a b", .partialText "b" "a"] := by cbv
  obtain ⟨t, ht, hstate⟩ := Option.map_eq_some_iff.mp hrun
  have hok := Traced.result_eq_ok_of_toOption ht
  obtain ⟨journal, _, _, _, _, _, hsuccess⟩ := follow_registers_least words loader s "a c"
  obtain ⟨hadded, _, _, hleast⟩ := hsuccess t hok
  have hloads : loads (loadedIn journal) = [.partialText "a" "a b", .partialText "b" "a"] := by
    rw [words, Engine.addPartials_recorder, hstate] at hadded
    exact Except.ok.inj hadded
  rw [← filterMap_partialName?_loads, hloads] at hleast
  exact ⟨t, hok, hstate, hleast⟩

end Setup

end PromptDoc
