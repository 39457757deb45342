import Mathlib.Data.List.Induction
import PromptDoc.Metadata.Merge

/-!
# Layers of metadata

Any number of layers laid over one another, from the lowest to the highest. A field has the last
value that counts in it: texts, numbers, lists and extensions count unless they are empty or zero,
and the other records as soon as they are there. Configurations are decided key by key, and inputs
and outputs field by field. Main statement: `Layered` says this of each field, and the layers laid
over one another are the one record it holds of (`foldl_merge_eq_iff`).
-/

namespace PromptDoc

open Json

/-! ### The last value that counts -/

section Last

variable {α β : Type} {p : α → Bool}

/-- The last of some values that counts. -/
def lastThat (p : α → Bool) (xs : List α) : Option α := (xs.filter p).getLast?

/-- A further value comes last if it counts. -/
theorem lastThat_append_toList (xs : List α) (x : Option α) :
    lastThat p (xs ++ x.toList) = (x.filter p).or (lastThat p xs) := by
  cases x with
  | none => simp [lastThat]
  | some a => cases ha : p a <;> simp [lastThat, Option.filter_some, ha]

/-- A further value comes last if it counts, and the default stays if none does. -/
theorem getD_lastThat_append_singleton (xs : List α) (x d : α) :
    (lastThat p (xs ++ [x])).getD d = if p x then x else (lastThat p xs).getD d := by
  have hsnoc := lastThat_append_toList (p := p) xs (some x)
  rw [Option.toList_some] at hsnoc
  rw [hsnoc, Option.filter_some]
  cases p x <;> simp

/-- What a further layer gives comes behind what the others give. -/
theorem filterMap_append_toList (f : β → Option α) (layers : List β) (top : Option β) :
    (layers ++ top.toList).filterMap f = layers.filterMap f ++ (top.bind f).toList := by
  rw [List.filterMap_append]
  cases top with
  | none => rfl
  | some layer => cases h : f layer <;> simp [h]

/-- What one more layer gives comes behind what the others give. -/
theorem filterMap_append_singleton (f : β → Option α) (layers : List β) (top : β) :
    (layers ++ [top]).filterMap f = layers.filterMap f ++ (f top).toList :=
  filterMap_append_toList f layers (some top)

/-- A further value comes last if it is there. -/
theorem getLast?_append_toList (xs : List α) (x : Option α) :
    (xs ++ x.toList).getLast? = x.or xs.getLast? := by
  cases x with
  | none => simp
  | some a => simp

end Last

/-! ### The law of each field -/

/-- A configuration of layers: the keys as they first come, each with the value of the last layer
that has it. -/
structure LayeredConfig (layers : List Fields) (config : Fields) : Prop where
  keys : config.keys = (layers.flatMap OrderedMap.keys).eraseDups
  get? : ∀ k, config.get? k = (layers.filterMap fun layer ↦ layer.get? k).getLast?

/-- An input of layers. It is there if a layer has defaults or a schema. -/
structure LayeredInput (layers : List PromptInput) (input : Option PromptInput) : Prop where
  isSome_iff : input.isSome ↔ ∃ layer ∈ layers, layer.default ≠ ∅ ∨ layer.schema ≠ none
  default : (input.getD {}).default =
    (lastThat (fun m ↦ !m.isEmpty) (layers.map PromptInput.default)).getD ∅
  schema : (input.getD {}).schema = (layers.filterMap PromptInput.schema).getLast?

/-- An output of layers. It is there if a layer has a format, be it empty, or a schema. -/
structure LayeredOutput (layers : List PromptOutput) (output : Option PromptOutput) : Prop where
  isSome_iff : output.isSome ↔ ∃ layer ∈ layers, layer ≠ {}
  format : (output.getD {}).format =
    lastThat (fun s ↦ !s.isEmpty) (layers.filterMap PromptOutput.format)
  schema : (output.getD {}).schema = (layers.filterMap PromptOutput.schema).getLast?

/-- The metadata of layers, from the lowest to the highest. -/
structure Layered (layers : List PromptMetadata) (m : PromptMetadata) : Prop where
  name : m.name = lastThat (fun s ↦ !s.isEmpty) (layers.filterMap (·.name))
  variant : m.variant = lastThat (fun s ↦ !s.isEmpty) (layers.filterMap (·.variant))
  version : m.version = lastThat (fun s ↦ !s.isEmpty) (layers.filterMap (·.version))
  description : m.description = lastThat (fun s ↦ !s.isEmpty) (layers.filterMap (·.description))
  model : m.model = lastThat (fun s ↦ !s.isEmpty) (layers.filterMap (·.model))
  maxTurns : m.maxTurns = lastThat (fun n ↦ n ≠ 0) (layers.filterMap (·.maxTurns))
  tools : m.tools = (lastThat (fun xs ↦ !xs.isEmpty) (layers.map (·.tools))).getD []
  toolDefs : m.toolDefs = (lastThat (fun xs ↦ !xs.isEmpty) (layers.map (·.toolDefs))).getD []
  config : LayeredConfig (layers.map (·.config)) m.config
  input : LayeredInput (layers.filterMap (·.input)) m.input
  output : LayeredOutput (layers.filterMap (·.output)) m.output
  raw : m.raw = (layers.filterMap (·.raw)).getLast?
  ext : m.ext = (lastThat (fun e ↦ !e.isEmpty) (layers.map (·.ext))).getD ∅
  metadata : m.metadata = (layers.filterMap (·.metadata)).getLast?

/-! ### One more layer -/

/-- A configuration laid over others. -/
theorem LayeredConfig.snoc {layers : List Fields} {lower : Fields}
    (h : LayeredConfig layers lower) (upper : Fields) :
    LayeredConfig (layers ++ [upper]) (lower.extend upper) where
  keys := by
    rw [List.flatMap_append, List.flatMap_singleton,
      OrderedMap.eraseDups_append_keys h.keys.symm]
  get? k := by
    rw [OrderedMap.get?_extend, h.get?, filterMap_append_singleton, getLast?_append_toList]

/-- An input laid over others, or none. -/
theorem LayeredInput.snoc {layers : List PromptInput} {lower : Option PromptInput}
    (h : LayeredInput layers lower) (upper : Option PromptInput) :
    LayeredInput (layers ++ upper.toList) (PromptInput.overlay lower upper) where
  isSome_iff := by
    have hsays (i : PromptInput) : i ≠ {} ↔ i.default ≠ ∅ ∨ i.schema ≠ none := by
      rw [ne_eq, PromptInput.mk.injEq, not_and_or]
    simp only [PromptInput.isSome_overlay, h.isSome_iff, hsays, List.mem_append,
      Option.mem_toList, Option.mem_def, or_and_right, exists_or]
  default := by
    rw [PromptInput.getD_overlay, List.map_append, ← Option.toList_map, lastThat_append_toList,
      Option.getD_or, ← h.default]
    cases upper with
    | none => rfl
    | some i =>
      rw [Option.map_some, Option.filter_some]
      cases hi : i.default.isEmpty <;> simp [hi]
  schema := by
    rw [PromptInput.getD_overlay, filterMap_append_toList, getLast?_append_toList, ← h.schema]
    cases upper with
    | none => rfl
    | some i => rfl

/-- An output laid over others, or none. -/
theorem LayeredOutput.snoc {layers : List PromptOutput} {lower : Option PromptOutput}
    (h : LayeredOutput layers lower) (upper : Option PromptOutput) :
    LayeredOutput (layers ++ upper.toList) (PromptOutput.overlay lower upper) where
  isSome_iff := by
    simp only [PromptOutput.isSome_overlay, h.isSome_iff, List.mem_append, Option.mem_toList,
      Option.mem_def, or_and_right, exists_or]
  format := by
    rw [PromptOutput.getD_overlay, filterMap_append_toList, lastThat_append_toList, ← h.format]
    cases upper with
    | none => rfl
    | some o => rfl
  schema := by
    rw [PromptOutput.getD_overlay, filterMap_append_toList, getLast?_append_toList, ← h.schema]
    cases upper with
    | none => rfl
    | some o => rfl

/-- Metadata laid over layers. -/
theorem Layered.snoc {layers : List PromptMetadata} {lower : PromptMetadata}
    (h : Layered layers lower) (upper : PromptMetadata) :
    Layered (layers ++ [upper]) (lower.merge upper) := by
  have htext (f : PromptMetadata → Option String) :
      lastThat (fun s ↦ !s.isEmpty) ((layers ++ [upper]).filterMap f) =
        overlayText (lastThat (fun s ↦ !s.isEmpty) (layers.filterMap f)) (f upper) := by
    rw [filterMap_append_singleton, lastThat_append_toList, overlayText]
  have hlist {α : Type} (f : PromptMetadata → List α) :
      (lastThat (fun xs ↦ !xs.isEmpty) ((layers ++ [upper]).map f)).getD [] =
        overlayList ((lastThat (fun xs ↦ !xs.isEmpty) (layers.map f)).getD []) (f upper) := by
    rw [List.map_append, List.map_singleton, getD_lastThat_append_singleton, overlayList]
    cases (f upper).isEmpty <;> rfl
  have hgiven {α : Type} (f : PromptMetadata → Option α) :
      ((layers ++ [upper]).filterMap f).getLast? =
        overlay (layers.filterMap f).getLast? (f upper) := by
    rw [filterMap_append_singleton, getLast?_append_toList, overlay]
  constructor
  case name => rw [htext, ← h.name]; rfl
  case variant => rw [htext, ← h.variant]; rfl
  case version => rw [htext, ← h.version]; rfl
  case description => rw [htext, ← h.description]; rfl
  case model => rw [htext, ← h.model]; rfl
  case maxTurns =>
    rw [filterMap_append_singleton, lastThat_append_toList, ← h.maxTurns]
    rfl
  case tools => rw [hlist, ← h.tools]; rfl
  case toolDefs => rw [hlist, ← h.toolDefs]; rfl
  case config =>
    rw [List.map_append, List.map_singleton]
    exact h.config.snoc upper.config
  case input =>
    rw [filterMap_append_singleton]
    exact h.input.snoc upper.input
  case output =>
    rw [filterMap_append_singleton]
    exact h.output.snoc upper.output
  case raw => rw [hgiven, ← h.raw]; rfl
  case ext =>
    rw [List.map_append, List.map_singleton, getD_lastThat_append_singleton, ← h.ext]
    show (if upper.ext.isEmpty then lower.ext else upper.ext) = _
    cases upper.ext.isEmpty <;> rfl
  case metadata => rw [hgiven, ← h.metadata]; rfl

/-! ### All layers -/

/-- No layers give nothing. -/
theorem layered_nil : Layered [] {} := by
  have hconfig : LayeredConfig [] ∅ := ⟨rfl, fun _ ↦ rfl⟩
  have hinput : LayeredInput [] none := ⟨by simp, rfl, rfl⟩
  have houtput : LayeredOutput [] none := ⟨by simp, rfl, rfl⟩
  exact ⟨rfl, rfl, rfl, rfl, rfl, rfl, rfl, rfl, hconfig, hinput, houtput, rfl, rfl, rfl⟩

/-- Layers laid over one another have the metadata of the layers. -/
theorem layered_foldl_merge (layers : List PromptMetadata) :
    Layered layers (layers.foldl PromptMetadata.merge {}) := by
  induction layers using List.reverseRecOn with
  | nil => exact layered_nil
  | append_singleton layers upper ih =>
    rw [List.foldl_append]
    exact ih.snoc upper

/-- Two records that are there or absent together are equal if they are equal where an absent one
counts as a given one. -/
theorem eq_of_getD_eq {α : Type} {d : α} {x y : Option α} (h : x.isSome ↔ y.isSome)
    (heq : x.getD d = y.getD d) : x = y := by
  cases x with
  | none => cases y with
    | none => rfl
    | some b => simp at h
  | some a => cases y with
    | none => simp at h
    | some b => exact congrArg some heq

/-- The layers determine the configuration. -/
theorem LayeredConfig.unique {layers : List Fields} {a b : Fields} (ha : LayeredConfig layers a)
    (hb : LayeredConfig layers b) : a = b :=
  OrderedMap.ext_get? (ha.keys.trans hb.keys.symm) fun k ↦ (ha.get? k).trans (hb.get? k).symm

/-- The layers determine the input. -/
theorem LayeredInput.unique {layers : List PromptInput} {a b : Option PromptInput}
    (ha : LayeredInput layers a) (hb : LayeredInput layers b) : a = b := by
  have hparts {i j : PromptInput} (hdefault : i.default = j.default)
      (hschema : i.schema = j.schema) : i = j := by
    cases i
    cases j
    exact congr (congrArg _ hdefault) hschema
  apply eq_of_getD_eq (ha.isSome_iff.trans hb.isSome_iff.symm)
  exact hparts (ha.default.trans hb.default.symm) (ha.schema.trans hb.schema.symm)

/-- The layers determine the output. -/
theorem LayeredOutput.unique {layers : List PromptOutput} {a b : Option PromptOutput}
    (ha : LayeredOutput layers a) (hb : LayeredOutput layers b) : a = b := by
  have hparts {o q : PromptOutput} (hformat : o.format = q.format)
      (hschema : o.schema = q.schema) : o = q := by
    cases o
    cases q
    exact congr (congrArg _ hformat) hschema
  apply eq_of_getD_eq (ha.isSome_iff.trans hb.isSome_iff.symm)
  exact hparts (ha.format.trans hb.format.symm) (ha.schema.trans hb.schema.symm)

/-- The layers determine the metadata. -/
theorem Layered.unique {layers : List PromptMetadata} {a b : PromptMetadata}
    (ha : Layered layers a) (hb : Layered layers b) : a = b := by
  have hconfig := ha.config.unique hb.config
  have hinput := ha.input.unique hb.input
  have houtput := ha.output.unique hb.output
  cases a
  cases b
  rw [PromptMetadata.mk.injEq]
  exact ⟨ha.name.trans hb.name.symm, ha.variant.trans hb.variant.symm,
    ha.version.trans hb.version.symm, ha.description.trans hb.description.symm,
    ha.model.trans hb.model.symm, ha.maxTurns.trans hb.maxTurns.symm,
    ha.tools.trans hb.tools.symm, ha.toolDefs.trans hb.toolDefs.symm, hconfig, hinput, houtput,
    ha.raw.trans hb.raw.symm, ha.ext.trans hb.ext.symm, ha.metadata.trans hb.metadata.symm⟩

/-- Layers laid over one another are the one record that has in each field the last value of the
layers that counts, in its configuration the last value of each key, and of its input and output the
last value of each part. -/
theorem foldl_merge_eq_iff (layers : List PromptMetadata) (m : PromptMetadata) :
    layers.foldl PromptMetadata.merge {} = m ↔ Layered layers m := by
  constructor
  · rintro rfl
    exact layered_foldl_merge layers
  · intro h
    exact (layered_foldl_merge layers).unique h

/-- An empty model does not count, and an output with an empty format is there without one. -/
example :
    [{ model := some "a", maxTurns := some 0 },
      { model := some "", output := some { format := some "" } }].foldl PromptMetadata.merge {} =
    { model := some "a", output := some {} } := by decide

end PromptDoc
