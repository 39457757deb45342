import PromptDoc.Proofs.Conversation.History

/-!
# Putting earlier messages in again and again

Earlier messages are put into a conversation in one block, each recognisable from then on by its
purpose, so that whatever is put in later leaves the conversation as it is. Main statement: where
the block stands, what it holds, and that any number of rounds are as good as the first that puts
something in (`insertHistory_settles`).
-/

namespace PromptDoc.Conversation

open Json

/-- `t` is `m` taken over: all is as it was, but for a purpose that says so. -/
structure TakenOver (m t : Message) : Prop where
  role : t.role = m.role
  content : t.content = m.content
  /-- The metadata is kept in its order, and the purpose stands in its place or behind all else. -/
  metadata : ∃ a, t.metadata = some a ∧
    a.get? purposeKey = some (.string Message.historyPurpose) ∧
    (∀ k, k ≠ purposeKey → a.get? k = (m.metadata.getD ∅).get? k) ∧
    a.keys = (m.metadata.getD ∅).keys ++
      if purposeKey ∈ (m.metadata.getD ∅).keys then [] else [purposeKey]

/-- A block is put into some messages: right before the last one if that is the user's, and else
behind all of them. -/
inductive PutIn (block : List Message) : List Message → List Message → Prop
  | beforeUser (init : List Message) {last : Message} (h : last.role = .user) :
      PutIn block (init ++ [last]) (init ++ block ++ [last])
  | behind {messages : List Message} (h : ∀ last ∈ messages.getLast?, last.role ≠ .user) :
      PutIn block messages (messages ++ block)

/-! ### What is put in, and where -/

/-- A message is taken over by tagging it, and in no other way. -/
theorem takenOver_iff {m t : Message} : TakenOver m t ↔ t = m.asHistory := by
  have hkeys : ((m.metadata.getD ∅).insert purposeKey (.string Message.historyPurpose)).keys =
      (m.metadata.getD ∅).keys ++
        if purposeKey ∈ (m.metadata.getD ∅).keys then [] else [purposeKey] := by
    rw [OrderedMap.keys_insert]
    split
    · exact (List.append_nil _).symm
    · rfl
  constructor
  · rintro ⟨hrole, hcontent, a, ha, hpurpose, hother, horder⟩
    have hmetadata :
        a = (m.metadata.getD ∅).insert purposeKey (.string Message.historyPurpose) := by
      apply OrderedMap.ext_get? (horder.trans hkeys.symm)
      intro k
      rw [OrderedMap.get?_insert]
      split
      · next hk => rw [hk, hpurpose]
      · next hk => exact hother k hk
    obtain ⟨role, content, metadata⟩ := t
    obtain rfl : role = m.role := hrole
    obtain rfl : content = m.content := hcontent
    obtain rfl : metadata = some a := ha
    rw [hmetadata]
    rfl
  · rintro rfl
    refine ⟨rfl, rfl, _, rfl, ?_, fun k hk ↦ ?_, hkeys⟩
    · rw [OrderedMap.get?_insert, if_pos rfl]
    · rw [OrderedMap.get?_insert, if_neg hk]

/-- Splicing puts a block in. -/
theorem putIn_splice (messages block : List Message) :
    PutIn block messages (splice messages block) := by
  rw [splice]
  cases hlast : messages.getLast? with
  | none =>
    obtain rfl := List.getLast?_eq_none_iff.mp hlast
    exact .behind fun last h ↦ by cases h
  | some last =>
    dsimp only
    split
    · next huser =>
      obtain ⟨init, rfl⟩ := List.getLast?_eq_some_iff.mp hlast
      rw [List.dropLast_concat]
      exact .beforeUser init huser
    · next huser =>
      refine .behind fun m hm ↦ ?_
      rw [hlast] at hm
      cases hm
      exact huser

/-- Tagging takes over each of some messages. -/
theorem forall₂_takenOver (history : List Message) :
    List.Forall₂ TakenOver history (history.map Message.asHistory) := by
  rw [List.forall₂_map_right_iff, List.forall₂_same]
  exact fun m _ ↦ takenOver_iff.mpr rfl

/-- Into a conversation without tagged messages, earlier ones are put in one block. -/
theorem exists_block_insertHistory {messages history : List Message} (hne : history ≠ [])
    (h : ∀ m ∈ messages, m.isHistory = false) :
    ∃ block, List.Forall₂ TakenOver history block ∧
      PutIn block messages (insertHistory messages history) := by
  have hempty : history.isEmpty = false := by simpa using hne
  have habsent : hasHistory messages = false := by simpa [hasHistory] using h
  refine ⟨history.map Message.asHistory, forall₂_takenOver history, ?_⟩
  rw [insertHistory, hempty, habsent]
  exact putIn_splice messages _

/-! ### Rounds -/

/-- What is put in is found again: a conversation into which earlier messages were put holds a
tagged one. -/
theorem exists_isHistory_insertHistory (messages : List Message) {history : List Message}
    (hne : history ≠ []) : ∃ m ∈ insertHistory messages history, m.isHistory = true := by
  by_cases h : ∃ m ∈ messages, m.isHistory = true
  · obtain ⟨m, hm, htag⟩ := h
    rw [insertHistory_of_mem hm htag]
    exact ⟨m, hm, htag⟩
  · have hnone : messages.filter Message.isHistory = [] := by
      rw [List.filter_eq_nil_iff]
      exact fun m hm htag ↦ h ⟨m, hm, htag⟩
    have honce := (historyOnce_insertHistory hnone hne).filter_isHistory
    obtain ⟨m, rest, rfl⟩ := List.exists_cons_of_ne_nil hne
    have hmem : m.asHistory ∈ (insertHistory messages (m :: rest)).filter Message.isHistory := by
      rw [honce]
      exact List.mem_cons_self
    exact ⟨m.asHistory, List.mem_filter.mp hmem⟩

/-- After something was put in, a further round changes nothing. -/
theorem insertHistory_insertHistory (messages : List Message) {history : List Message}
    (hne : history ≠ []) (later : List Message) :
    insertHistory (insertHistory messages history) later = insertHistory messages history := by
  obtain ⟨m, hm, htag⟩ := exists_isHistory_insertHistory messages hne
  exact insertHistory_of_mem hm htag

/-- Rounds of which none changes a conversation do not change it. -/
theorem foldl_insertHistory_of_fixed {messages : List Message} {rounds : List (List Message)}
    (h : ∀ history ∈ rounds, insertHistory messages history = messages) :
    rounds.foldl insertHistory messages = messages := by
  induction rounds with
  | nil => rfl
  | cons history rounds ih =>
    rw [List.forall_mem_cons] at h
    rw [List.foldl_cons, h.1]
    exact ih h.2

/-- Any number of rounds are as good as the first in which there is something to put in. -/
theorem foldl_insertHistory (messages : List Message) {silent : List (List Message)}
    (hsilent : ∀ round ∈ silent, round = []) {history : List Message} (hne : history ≠ [])
    (rounds : List (List Message)) :
    (silent ++ history :: rounds).foldl insertHistory messages =
      insertHistory messages history := by
  have hbefore : silent.foldl insertHistory messages = messages := by
    apply foldl_insertHistory_of_fixed
    intro round hround
    rw [hsilent round hround]
    rfl
  have hbehind : rounds.foldl insertHistory (insertHistory messages history) =
      insertHistory messages history :=
    foldl_insertHistory_of_fixed fun later _ ↦ insertHistory_insertHistory messages hne later
  rw [List.foldl_append, hbefore, List.foldl_cons, hbehind]

/-- Putting earlier messages in leaves a conversation with tagged messages as it is, and puts them
into any other in one block, taken over in order: right before the last message if that is the
user's, and else at the end. A further round changes nothing, and any number of rounds come to the
first in which there is something to put in. -/
theorem insertHistory_settles (messages : List Message) {history : List Message}
    (hne : history ≠ []) :
    ((∃ m ∈ messages, m.isHistory = true) → insertHistory messages history = messages) ∧
      ((∀ m ∈ messages, m.isHistory = false) →
        ∃ block, List.Forall₂ TakenOver history block ∧
          PutIn block messages (insertHistory messages history)) ∧
      (∀ later,
        insertHistory (insertHistory messages history) later = insertHistory messages history) ∧
      ∀ silent rounds : List (List Message), (∀ round ∈ silent, round = []) →
        (silent ++ history :: rounds).foldl insertHistory messages =
          insertHistory messages history := by
  refine ⟨?_, exists_block_insertHistory hne, insertHistory_insertHistory messages hne, ?_⟩
  · rintro ⟨m, hm, htag⟩
    exact insertHistory_of_mem hm htag
  · intro silent rounds hsilent
    exact foldl_insertHistory messages hsilent hne rounds

/-- An earlier message with a purpose of its own, put in before the user's last turn. -/
theorem insertHistory_settles_own_purpose :
    let earlier : Message := ⟨.model, [.ofText "a"], some (.ofList [(purposeKey, .bool true)])⟩
    let now := Message.ofText .user "q"
    [earlier] ≠ [] ∧ (∀ m ∈ [now], m.isHistory = false) ∧
      insertHistory [now] [earlier] = [earlier.asHistory, now] ∧
      (∃ block, List.Forall₂ TakenOver [earlier] block ∧
        PutIn block [now] [earlier.asHistory, now]) ∧
      [[], [earlier], [now, now]].foldl insertHistory [now] = [earlier.asHistory, now] := by
  intro earlier now
  have hne : [earlier] ≠ [] := List.cons_ne_nil _ _
  have hnone : ∀ m ∈ [now], m.isHistory = false := by decide
  have hsplice : insertHistory [now] [earlier] = [earlier.asHistory, now] := by decide
  obtain ⟨-, hblock, -, hrounds⟩ := insertHistory_settles [now] hne
  refine ⟨hne, hnone, hsplice, ?_, ?_⟩
  · rw [← hsplice]
    exact hblock hnone
  · rw [← hsplice]
    exact hrounds [[]] [[now, now]] (by decide)

end PromptDoc.Conversation
