import PromptDoc.Compiler

/-!
# Definitions on a compiler

A compiler has four registries that are written by name: helpers, partials, tools and schemas. What
a registry holds under a name after some definitions is the last of them under that name, and what
it held before where there is none (`lookup_defineAll`). Main statement: the order of definitions
does not matter beyond this, the whole compiler is determined by what its registries hold
(`defineAll_eq_iff_lookup`).
-/

namespace PromptDoc

variable {σ : Type}

/-- The registries of a compiler. -/
inductive Registry where
  | helpers
  | partials
  | tools
  | schemas
  deriving DecidableEq

/-- What a registry holds. -/
def Registry.Item : Registry → Type
  | helpers => Helper
  | partials => String
  | tools => ToolDefinition
  | schemas => Schema

/-- A definition on a compiler. -/
inductive Definition where
  | helper (name : String) (helper : Helper)
  | partialText (name source : String)
  /-- A tool is defined under its own name. -/
  | tool (tool : ToolDefinition)
  | schema (name : String) (schema : Schema)

/-- What a definition writes in a registry under a name. -/
def Definition.item? : Definition → (r : Registry) → String → Option r.Item
  | helper k f, .helpers, name => if name = k then some f else none
  | partialText k source, .partials, name => if name = k then some source else none
  | tool t, .tools, name => if name = t.name then some t else none
  | schema k s, .schemas, name => if name = k then some s else none
  | _, _, _ => none

/-- The last of some definitions in a registry under a name. -/
def last? (ds : List Definition) (r : Registry) (name : String) : Option r.Item :=
  ds.reverse.findSome? fun d ↦ d.item? r name

/-- The last of some definitions is the last of the later ones, else the first one. -/
theorem last?_cons (d : Definition) (ds : List Definition) (r : Registry) (name : String) :
    last? (d :: ds) r name = (last? ds r name).or (d.item? r name) := by
  rw [last?, List.reverse_cons, List.findSome?_append, List.findSome?_singleton, last?]

namespace Compiler

/-- Make a definition. -/
def define (c : Compiler σ) : Definition → Compiler σ
  | .helper name f => c.defineHelper name f
  | .partialText name source => c.definePartial name source
  | .tool t => c.defineTool t
  | .schema name s => c.defineSchema name s

/-- Make some definitions, one after another. -/
def defineAll (c : Compiler σ) (ds : List Definition) : Compiler σ := ds.foldl define c

/-- What a registry holds under a name. -/
def lookup (c : Compiler σ) : (r : Registry) → String → Option r.Item
  | .helpers, name => c.helpers.get? name
  | .partials, name => c.partials.get? name
  | .tools, name => c.resolver.tools.get? name
  | .schemas, name => c.resolver.schemas.get? name

/-! ### One definition -/

private theorem get?_insert_eq_or {α : Type} (m : SortedMap String α) (k x : String) (v : α) :
    (m.insert k v).get? x = (if x = k then some v else none).or (m.get? x) := by
  rw [SortedMap.get?_insert]
  by_cases h : x = k
  · subst h
    rw [if_pos Std.ReflCmp.compare_self, if_pos rfl, Option.some_or]
  · rw [if_neg (mt Std.LawfulEqCmp.eq_of_compare h), if_neg h, Option.none_or]

/-- A definition is seen under its own name, and hides only what was there. -/
theorem lookup_define (c : Compiler σ) (d : Definition) (r : Registry) (name : String) :
    (c.define d).lookup r name = (d.item? r name).or (c.lookup r name) := by
  cases d with
  | helper k f =>
    cases r with
    | helpers => exact get?_insert_eq_or ..
    | _ => rfl
  | partialText k source =>
    cases r with
    | partials => exact get?_insert_eq_or ..
    | _ => rfl
  | tool t =>
    cases r with
    | tools => exact get?_insert_eq_or ..
    | _ => rfl
  | schema k s =>
    cases r with
    | schemas => exact get?_insert_eq_or ..
    | _ => rfl

/-- The compiler with empty registries. -/
def base (c : Compiler σ) : Compiler σ where
  engine := c.engine
  decode := c.decode
  resolver := { c.resolver with tools := ∅, schemas := ∅ }
  loader := c.loader

/-- A definition changes nothing but the registries. -/
theorem base_define (c : Compiler σ) (d : Definition) : (c.define d).base = c.base := by
  cases d <;> rfl

/-! ### Many definitions -/

/-- After some definitions a registry holds the last one under a name, else what it held before. -/
theorem lookup_defineAll (c : Compiler σ) (ds : List Definition) (r : Registry) (name : String) :
    (c.defineAll ds).lookup r name = (last? ds r name).or (c.lookup r name) := by
  induction ds generalizing c with
  | nil => rfl
  | cons d ds ih =>
    rw [last?_cons, Option.or_assoc, ← lookup_define]
    exact ih (c.define d)

/-- Definitions change nothing but the registries. -/
theorem base_defineAll (c : Compiler σ) (ds : List Definition) :
    (c.defineAll ds).base = c.base := by
  induction ds generalizing c with
  | nil => rfl
  | cons d ds ih => exact (ih (c.define d)).trans (c.base_define d)

/-- A compiler is determined by its base and by what its registries hold. -/
theorem ext_lookup {c c' : Compiler σ} (hbase : c.base = c'.base)
    (h : ∀ r name, c.lookup r name = c'.lookup r name) : c = c' := by
  have hhelpers : c.helpers = c'.helpers := SortedMap.ext_get? (h .helpers)
  have hpartials : c.partials = c'.partials := SortedMap.ext_get? (h .partials)
  have htools : c.resolver.tools = c'.resolver.tools := SortedMap.ext_get? (h .tools)
  have hschemas : c.resolver.schemas = c'.resolver.schemas := SortedMap.ext_get? (h .schemas)
  obtain ⟨engine, decode, resolver, helpers, partials, loader⟩ := c
  obtain ⟨engine', decode', resolver', helpers', partials', loader'⟩ := c'
  obtain ⟨model, configs, tools, ask, schemas, askSchema⟩ := resolver
  obtain ⟨model', configs', tools', ask', schemas', askSchema'⟩ := resolver'
  simp_all [base]

/-- Two sequences of definitions make the same compiler exactly if, in every registry and under
every name, the last definition of the one and that of the other are the same, where what was there
before counts as the first. -/
theorem defineAll_eq_iff_lookup (c : Compiler σ) (ds ds' : List Definition) :
    c.defineAll ds = c.defineAll ds' ↔ ∀ r name,
      (last? ds r name).or (c.lookup r name) = (last? ds' r name).or (c.lookup r name) := by
  simp only [← lookup_defineAll]
  constructor
  · intro h r name
    rw [h]
  · intro h
    exact ext_lookup ((c.base_defineAll ds).trans (c.base_defineAll ds').symm) h

end Compiler

end PromptDoc
