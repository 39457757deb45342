import Mathlib
import PromptDoc.Proofs.Conversation.Turns

/-!
# How often earlier messages come in

Earlier messages enter a conversation at each history marker of the rendered text; where there is
none they are spliced in once at the end. Main statement: the tagged messages of a conversation are
one copy of the earlier ones for each history marker, but at least one, so they stand there once
exactly when there is at most one marker (`history_once_iff`).
-/

namespace PromptDoc.Conversation

open Marker Outcome

/-- The earlier messages stand once in a conversation: all together, in order, each tagged, and no
other message is tagged. -/
def HistoryOnce (messages history : List Message) : Prop :=
  ∃ before after, messages = before ++ history.map Message.asHistory ++ after ∧
    before.filter Message.isHistory = [] ∧ after.filter Message.isHistory = []

/-- How many history markers a rendered text has. -/
def historyMarkers (rendered : String) : Nat :=
  (splitTurns rendered.toList).count (.marker .history)

/-! ### Tagged messages -/

/-- Tagged messages are all history. -/
theorem filter_isHistory_asHistory (history : List Message) :
    (history.map Message.asHistory).filter Message.isHistory = history.map Message.asHistory := by
  rw [List.filter_eq_self]
  intro m hm
  obtain ⟨x, -, rfl⟩ := List.mem_map.mp hm
  exact x.isHistory_asHistory

/-- Splicing parts a conversation in two and puts the block between them. -/
theorem splice_eq_append (messages block : List Message) :
    ∃ before after, splice messages block = before ++ block ++ after ∧
      messages = before ++ after := by
  unfold splice
  cases hlast : messages.getLast? with
  | none =>
    rw [List.getLast?_eq_none_iff] at hlast
    exact ⟨[], [], by simp, by simp [hlast]⟩
  | some last =>
    obtain ⟨init, rfl⟩ := List.getLast?_eq_some_iff.mp hlast
    by_cases hrole : last.role = .user
    · exact ⟨init, [last], by simp [hrole], rfl⟩
    · exact ⟨init ++ [last], [], by simp [hrole], by simp⟩

/-- A conversation without tagged messages gets the earlier ones once. -/
theorem historyOnce_insertHistory {messages history : List Message}
    (h : messages.filter Message.isHistory = []) (hne : history ≠ []) :
    HistoryOnce (insertHistory messages history) history := by
  have habsent : hasHistory messages = false := by
    rw [List.filter_eq_nil_iff] at h
    simpa [hasHistory] using h
  have hempty : history.isEmpty = false := by simpa using hne
  obtain ⟨before, after, hsplice, hmessages⟩ :=
    splice_eq_append messages (history.map Message.asHistory)
  rw [hmessages, List.filter_append, List.append_eq_nil_iff] at h
  refine ⟨before, after, ?_, h.1, h.2⟩
  rw [insertHistory, hempty, habsent]
  exact hsplice

/-- A conversation with tagged messages stays as it is. -/
theorem insertHistory_of_mem {messages history : List Message} {m : Message} (hm : m ∈ messages)
    (h : m.isHistory = true) : insertHistory messages history = messages := by
  have hpresent : hasHistory messages = true := List.any_eq_true.mpr ⟨m, hm, h⟩
  rw [insertHistory, hpresent, Bool.or_true, if_pos rfl]

/-- A message of a conversation was there before or is an earlier one, tagged. -/
theorem mem_insertHistory {messages history : List Message} {m : Message}
    (h : m ∈ insertHistory messages history) :
    m ∈ messages ∨ m ∈ history.map Message.asHistory := by
  rw [insertHistory] at h
  split at h
  · exact .inl h
  · obtain ⟨before, after, hsplice, hmessages⟩ :=
      splice_eq_append messages (history.map Message.asHistory)
    rw [hsplice, List.mem_append, List.mem_append] at h
    rw [hmessages, List.mem_append]
    rcases h with (hbefore | hblock) | hafter
    · exact .inl (.inl hbefore)
    · exact .inr hblock
    · exact .inl (.inr hafter)

/-- The tagged messages of a conversation in which the earlier ones stand once. -/
theorem HistoryOnce.filter_isHistory {messages history : List Message}
    (h : HistoryOnce messages history) :
    messages.filter Message.isHistory = history.map Message.asHistory := by
  obtain ⟨before, after, rfl, hbefore, hafter⟩ := h
  rw [List.filter_append, List.filter_append, hbefore, hafter, filter_isHistory_asHistory]
  simp

/-! ### Earlier messages among the turns -/

/-- The earlier message that a turn takes over. -/
def Turn.earlier? : Turn → Option Message
  | .earlier m => some m
  | .said _ _ => none

/-- The messages that some turns take over. -/
def earlierOf (ts : List Turn) : List Message := ts.filterMap Turn.earlier?

/-- Turns that take over messages take over just these. -/
theorem earlierOf_map_earlier (ms : List Message) : earlierOf (ms.map .earlier) = ms := by
  rw [earlierOf, List.filterMap_map]
  exact List.filterMap_some

private theorem earlierOf_append (ts us : List Turn) :
    earlierOf (ts ++ us) = earlierOf ts ++ earlierOf us := List.filterMap_append

private theorem earlierOf_said (role : Role) (source : List Char) :
    earlierOf [.said role source] = [] := rfl

-- What is said is not tagged; what is taken over is what it was.
private theorem filter_message? {t : Turn} {o : Option Message} (h : t.message? = .ok o)
    (htag : ∀ m ∈ t.earlier?, m.isHistory = true) :
    o.toList.filter Message.isHistory = t.earlier?.toList := by
  cases t with
  | earlier m =>
    cases h
    have hm := htag m rfl
    simp [Turn.earlier?, hm]
  | said speaker source =>
    rw [Turn.message?] at h
    split at h
    · cases h
      rfl
    · obtain ⟨parts, -, rfl⟩ := map_eq_ok_iff.mp h
      rfl

/-- The tagged messages of some turns are those they take over. -/
theorem filter_isHistory_messagesOf {ts : List Turn} {ms : List Message}
    (h : messagesOf ts = .ok ms) (htag : ∀ m ∈ earlierOf ts, m.isHistory = true) :
    ms.filter Message.isHistory = earlierOf ts := by
  induction ts generalizing ms with
  | nil => cases h; rfl
  | cons t ts ih =>
    rw [messagesOf_cons] at h
    obtain ⟨o, ht, h⟩ := bind_eq_ok_iff.mp h
    obtain ⟨rest, hts, h⟩ := bind_eq_ok_iff.mp h
    cases h
    have hrest := ih hts fun m hm ↦ htag m (by
      obtain ⟨x, hx, hxm⟩ := List.mem_filterMap.mp hm
      exact List.mem_filterMap.mpr ⟨x, List.mem_cons_of_mem t hx, hxm⟩)
    have hfirst := filter_message? ht fun m hm ↦
      htag m (List.mem_filterMap.mpr ⟨t, List.mem_cons_self, hm⟩)
    rw [List.filter_append, hrest, hfirst, earlierOf, earlierOf, List.filterMap_cons]
    cases t.earlier? <;> rfl

/-! ### History markers of a run -/

section Run

variable {history : List Message}

-- One piece adds turns to the closed ones, which take the earlier messages over if it is a history
-- marker.
private theorem closed_add {d e : Draft} {p : Piece} (h : d.add history p = .ok e) :
    ∃ more, e.closed = d.closed ++ more ∧
      earlierOf more = if p = .marker .history then history.map Message.asHistory else [] := by
  cases p with
  | text cs =>
    cases h
    exact ⟨[], by simp, by simp [earlierOf]⟩
  | marker m =>
    cases m with
    | media arguments =>
      cases h
      exact ⟨[], by simp, by simp [earlierOf]⟩
    | placeholder arguments =>
      cases h
      exact ⟨[], by simp, by simp [earlierOf]⟩
    | history =>
      cases h
      refine ⟨.said d.role d.source :: (history.map Message.asHistory).map .earlier, ?_, ?_⟩
      · rw [List.map_map]
        rfl
      · rw [if_pos rfl]
        exact earlierOf_map_earlier _
    | role name =>
      rw [Draft.add] at h
      split at h
      · cases h
      · split at h
        · cases h
          exact ⟨[], by simp, by simp [earlierOf]⟩
        · cases h
          exact ⟨[.said d.role d.source], rfl, by simp [earlierOf, Turn.earlier?]⟩

-- A run takes the earlier messages over once for each history marker.
private theorem closed_foldlM {ps : List Piece} {d e : Draft}
    (h : ps.foldlM (Draft.add history) d = .ok e) :
    ∃ more, e.closed = d.closed ++ more ∧
      earlierOf more =
        (List.replicate (ps.count (.marker .history)) (history.map Message.asHistory)).flatten := by
  induction ps generalizing d with
  | nil =>
    cases h
    exact ⟨[], by simp, by simp [earlierOf]⟩
  | cons p ps ih =>
    obtain ⟨d₁, hadd, h⟩ := foldlM_cons_eq_ok_iff.mp h
    obtain ⟨more, hmore, hearlier⟩ := closed_add hadd
    obtain ⟨later, hlater, hrest⟩ := ih h
    refine ⟨more ++ later, by rw [hlater, hmore, List.append_assoc], ?_⟩
    rw [earlierOf_append, hearlier, hrest]
    by_cases hp : p = .marker .history
    · rw [if_pos hp, hp, List.count_cons_self, List.replicate_succ, List.flatten_cons]
    · rw [if_neg hp, List.count_cons_of_ne hp, List.nil_append]

/-- The messages that a rendered text takes over. -/
theorem earlierOf_turnsOf {rendered : List Char} {ts : List Turn}
    (h : turnsOf rendered history = .ok ts) :
    earlierOf ts = (List.replicate ((splitTurns rendered).count (.marker .history))
      (history.map Message.asHistory)).flatten := by
  obtain ⟨d, hrun, rfl⟩ := map_eq_ok_iff.mp h
  obtain ⟨more, hclosed, hearlier⟩ := closed_foldlM hrun
  have hnil : d.closed = more := hclosed
  rw [Draft.turns, hnil, earlierOf_append, earlierOf_said, hearlier, List.append_nil]

/-- A message that a rendered text takes over is an earlier one, tagged. -/
theorem exists_asHistory_of_mem_earlierOf {rendered : List Char} {ts : List Turn}
    (h : turnsOf rendered history = .ok ts) {m : Message} (hm : m ∈ earlierOf ts) :
    ∃ x ∈ history, m = x.asHistory := by
  rw [earlierOf_turnsOf h] at hm
  obtain ⟨block, hblock, hmem⟩ := List.mem_flatten.mp hm
  rw [List.eq_of_mem_replicate hblock] at hmem
  obtain ⟨x, hx, rfl⟩ := List.mem_map.mp hmem
  exact ⟨x, hx, rfl⟩

/-- A message that a rendered text takes over is tagged. -/
theorem isHistory_of_mem_earlierOf {rendered : List Char} {ts : List Turn}
    (h : turnsOf rendered history = .ok ts) {m : Message} (hm : m ∈ earlierOf ts) :
    m.isHistory = true := by
  obtain ⟨x, -, rfl⟩ := exists_asHistory_of_mem_earlierOf h hm
  exact x.isHistory_asHistory

-- A run over a text with a history marker in it is a run up to the marker, in which the open turn
-- is then closed with the earlier messages behind it, and a run over the rest.
private theorem foldlM_history_eq_ok {ps qs : List Piece} {d e : Draft}
    (h : (ps ++ .marker .history :: qs).foldlM (Draft.add history) d = .ok e) :
    ∃ d₁, ps.foldlM (Draft.add history) d = .ok d₁ ∧
      qs.foldlM (Draft.add history)
        (d₁.next ((history.map Message.asHistory).map .earlier) .model) = .ok e := by
  obtain ⟨d₁, hps, h⟩ := foldlM_append_eq_ok_iff.mp h
  obtain ⟨d₂, hadd, hqs⟩ := foldlM_cons_eq_ok_iff.mp h
  cases hadd
  refine ⟨d₁, hps, ?_⟩
  rw [List.map_map]
  exact hqs

/-- With one history marker the earlier messages stand among the turns in one block. -/
theorem exists_block_of_count_eq_one {rendered : List Char} {ts : List Turn}
    (h : turnsOf rendered history = .ok ts)
    (hone : (splitTurns rendered).count (.marker .history) = 1) :
    ∃ before after, ts = before ++ (history.map Message.asHistory).map .earlier ++ after ∧
      earlierOf before = [] ∧ earlierOf after = [] := by
  have hmem : Piece.marker .history ∈ splitTurns rendered := by
    rw [← List.count_pos_iff, hone]
    exact Nat.one_pos
  obtain ⟨ps, qs, hsplit⟩ := List.append_of_mem hmem
  obtain ⟨hbefore, hafter⟩ :
      ps.count (.marker .history) = 0 ∧ qs.count (.marker .history) = 0 := by
    rw [hsplit, List.count_append, List.count_cons_self] at hone
    omega
  obtain ⟨d, hrun, rfl⟩ := map_eq_ok_iff.mp h
  rw [hsplit] at hrun
  obtain ⟨d₁, hps, hqs⟩ := foldlM_history_eq_ok hrun
  obtain ⟨more, hmore, hearlier⟩ := closed_foldlM hps
  obtain ⟨later, hlater, hrest⟩ := closed_foldlM hqs
  have hfresh : d₁.closed = more := hmore
  rw [hbefore] at hearlier
  rw [hafter] at hrest
  refine ⟨more ++ [.said d₁.role d₁.source], later ++ [.said d.role d.source], ?_, ?_, ?_⟩
  · rw [Draft.turns, hlater, Draft.next, hfresh]
    simp
  · rw [earlierOf_append, earlierOf_said, hearlier]
    rfl
  · rw [earlierOf_append, earlierOf_said, hrest]
    rfl

end Run

/-! ### The messages of a conversation -/

-- Only as many copies as one are one copy.
private theorem flatten_replicate_eq_self_iff {block : List Message} (hne : block ≠ []) (n : Nat) :
    (List.replicate n block).flatten = block ↔ n = 1 := by
  constructor
  · intro h
    have hlen := congrArg List.length h
    rw [List.length_flatten, List.map_replicate, List.sum_replicate_nat] at hlen
    have hpos := List.length_pos_iff.mpr hne
    exact Nat.eq_of_mul_eq_mul_right hpos (by omega)
  · rintro rfl
    simp

section Messages

variable {rendered : String} {history messages : List Message}

/-- Before anything is put in, the tagged messages are a copy for each history marker. -/
theorem filter_isHistory_of_turnsOf {ts : List Turn} {ms : List Message}
    (hts : turnsOf rendered.toList history = .ok ts) (hms : messagesOf ts = .ok ms) :
    ms.filter Message.isHistory =
      (List.replicate (historyMarkers rendered) (history.map Message.asHistory)).flatten := by
  rw [filter_isHistory_messagesOf hms fun _ hm ↦ isHistory_of_mem_earlierOf hts hm,
    earlierOf_turnsOf hts]
  rfl

/-- Without a history marker the earlier messages stand once. -/
theorem historyOnce_of_eq_zero (hne : history ≠ [])
    (h : toMessages rendered history = .ok messages) (hzero : historyMarkers rendered = 0) :
    HistoryOnce messages history := by
  obtain ⟨ts, ms, hts, hms, rfl⟩ := toMessages_eq_ok_iff.mp h
  have hfilter := filter_isHistory_of_turnsOf hts hms
  rw [hzero] at hfilter
  exact historyOnce_insertHistory hfilter hne

/-- With history markers there is a copy for each of them, and no other. -/
theorem filter_isHistory_of_pos (hne : history ≠ [])
    (h : toMessages rendered history = .ok messages) (hpos : 0 < historyMarkers rendered) :
    messages.filter Message.isHistory =
      (List.replicate (historyMarkers rendered) (history.map Message.asHistory)).flatten := by
  obtain ⟨ts, ms, hts, hms, rfl⟩ := toMessages_eq_ok_iff.mp h
  have hfilter := filter_isHistory_of_turnsOf hts hms
  obtain ⟨m, rest, hhistory⟩ := List.exists_cons_of_ne_nil hne
  have hmem : m.asHistory ∈ ms.filter Message.isHistory := by
    rw [hfilter, List.mem_flatten]
    refine ⟨history.map Message.asHistory, ?_, by simp [hhistory]⟩
    exact List.mem_replicate.mpr ⟨Nat.ne_of_gt hpos, rfl⟩
  obtain ⟨hin, htag⟩ := List.mem_filter.mp hmem
  rw [insertHistory_of_mem hin htag, hfilter]

/-- With one history marker the earlier messages stand once. -/
theorem historyOnce_of_eq_one (h : toMessages rendered history = .ok messages)
    (hone : historyMarkers rendered = 1) : HistoryOnce messages history := by
  obtain ⟨ts, ms, hts, hms, rfl⟩ := toMessages_eq_ok_iff.mp h
  obtain ⟨before, after, rfl, hbefore, hafter⟩ := exists_block_of_count_eq_one hts hone
  obtain ⟨xys, zs, hxys, hzs, rfl⟩ := messagesOf_append_eq_ok_iff.mp hms
  obtain ⟨xs, ys, hxs, hys, rfl⟩ := messagesOf_append_eq_ok_iff.mp hxys
  rw [messagesOf_earlier] at hys
  cases hys
  have hxs' := filter_isHistory_messagesOf hxs (by simp [hbefore])
  have hzs' := filter_isHistory_messagesOf hzs (by simp [hafter])
  rw [hbefore] at hxs'
  rw [hafter] at hzs'
  have honce : HistoryOnce (xs ++ history.map Message.asHistory ++ zs) history :=
    ⟨xs, zs, rfl, hxs', hzs'⟩
  cases history with
  | nil => exact honce
  | cons m rest =>
    rw [insertHistory_of_mem (m := m.asHistory) (by simp) m.isHistory_asHistory]
    exact honce

/-- The tagged messages of a conversation are as many copies of the earlier messages as the rendered
text has history markers, but at least one; and so the earlier messages stand there once exactly
when there is at most one marker. -/
theorem history_once_iff (hne : history ≠ []) (h : toMessages rendered history = .ok messages) :
    messages.filter Message.isHistory =
        (List.replicate (max 1 (historyMarkers rendered))
          (history.map Message.asHistory)).flatten ∧
      (HistoryOnce messages history ↔ historyMarkers rendered ≤ 1) := by
  have hblock : history.map Message.asHistory ≠ [] := by simpa using hne
  rcases Nat.eq_zero_or_pos (historyMarkers rendered) with hzero | hpos
  · have honce := historyOnce_of_eq_zero hne h hzero
    rw [honce.filter_isHistory, hzero]
    exact ⟨by simp, by simp [honce]⟩
  · have hfilter := filter_isHistory_of_pos hne h hpos
    have hmax : max 1 (historyMarkers rendered) = historyMarkers rendered := by omega
    rw [hmax]
    refine ⟨hfilter, ?_, ?_⟩
    · intro honce
      rw [honce.filter_isHistory, eq_comm, flatten_replicate_eq_self_iff hblock] at hfilter
      omega
    · intro hle
      exact historyOnce_of_eq_one h (by omega)

end Messages

/-- One history marker in a text with other markers. -/
theorem history_once_single_marker :
    let rendered := "<<<dotprompt:role:system>>>Be terse.<<<dotprompt:history>>>Sure."
    let history := [Message.ofText .user "q", Message.ofText .model "a"]
    let messages := [Message.ofText .system "Be terse.", (Message.ofText .user "q").asHistory,
      (Message.ofText .model "a").asHistory, Message.ofText .model "Sure."]
    history ≠ [] ∧ toMessages rendered history = .ok messages ∧
      HistoryOnce messages history ∧ historyMarkers rendered = 1 := by
  intro rendered history messages
  have hne : history ≠ [] := List.cons_ne_nil _ _
  have hrun : toMessages rendered history = .ok messages := by cbv
  have hcount : historyMarkers rendered = 1 := by cbv
  exact ⟨hne, hrun, (history_once_iff hne hrun).2.mpr (by omega), hcount⟩

/-- Two history markers put the earlier messages in twice. -/
theorem not_historyOnce_two_markers :
    let rendered := "<<<dotprompt:history>>>a<<<dotprompt:history>>>b"
    let history := [Message.ofText .user "q"]
    ∃ messages, toMessages rendered history = .ok messages ∧ ¬ HistoryOnce messages history := by
  intro rendered history
  refine ⟨[(Message.ofText .user "q").asHistory, Message.ofText .model "a",
    (Message.ofText .user "q").asHistory, Message.ofText .model "b"], by cbv, ?_⟩
  intro honce
  have hfilter := honce.filter_isHistory
  exact absurd (congrArg List.length hfilter) (by decide)

end PromptDoc.Conversation
