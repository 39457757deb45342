import PromptDoc.Conversation.Assembly
import PromptDoc.Proofs.Outcome

/-!
# Turns of a conversation under construction

A conversation is made from the turns of a draft, and a turn in which nothing is said leaves no
message. Main statements: a message list is made turn by turn (`messagesOf_append`), silent turns
do not matter (`messagesOf_filter_not_isSilent`), and what each piece of a rendered text does to the
turns of a draft.
-/

namespace PromptDoc.Conversation

open Marker Outcome

/-! ### From turns to messages -/

/-- The messages of some turns. -/
def messagesOf (turns : List Turn) : Except MessageError (List Message) :=
  List.filterMap id <$> turns.mapM Turn.message?

/-- A conversation is made of the messages of its turns. -/
theorem toMessages_eq (rendered : String) (history : List Message) :
    toMessages rendered history =
      (turnsOf rendered.toList history >>= messagesOf).map (insertHistory · history) := by
  unfold toMessages messagesOf
  cases turnsOf rendered.toList history with
  | error e => rfl
  | ok turns =>
    show (turns.mapM Turn.message? >>= _) = _
    cases hm : turns.mapM Turn.message? with
    | error e => simp [bind, Except.bind, Functor.map, Except.map, hm]
    | ok ms => simp [bind, Except.bind, Functor.map, Except.map, hm]

/-- A conversation succeeds when its turns and their messages do. -/
theorem toMessages_eq_ok_iff {rendered : String} {history messages : List Message} :
    toMessages rendered history = .ok messages ↔
      ∃ turns ms, turnsOf rendered.toList history = .ok turns ∧ messagesOf turns = .ok ms ∧
        messages = insertHistory ms history := by
  rw [toMessages_eq, map_eq_ok_iff]
  constructor
  · rintro ⟨ms, h, rfl⟩
    obtain ⟨turns, hturns, hms⟩ := bind_eq_ok_iff.mp h
    exact ⟨turns, ms, hturns, hms, rfl⟩
  · rintro ⟨turns, ms, hturns, hms, rfl⟩
    exact ⟨ms, bind_eq_ok_iff.mpr ⟨turns, hturns, hms⟩, rfl⟩

/-- No turns make no messages. -/
@[simp] theorem messagesOf_nil : messagesOf [] = .ok [] := rfl

/-- The first turn's message comes first. -/
theorem messagesOf_cons (t : Turn) (ts : List Turn) :
    messagesOf (t :: ts) = (do
      let m ← t.message?
      let ms ← messagesOf ts
      .ok (m.toList ++ ms)) := by
  unfold messagesOf
  rw [List.mapM_cons]
  cases t.message? with
  | error e => rfl
  | ok m =>
    cases ts.mapM Turn.message? with
    | error e => rfl
    | ok ms => cases m <;> rfl

/-- The messages of turns in a row are those of the first and those of the others. -/
theorem messagesOf_append (as bs : List Turn) :
    messagesOf (as ++ bs) = (do
      let ms ← messagesOf as
      let ns ← messagesOf bs
      .ok (ms ++ ns)) := by
  induction as with
  | nil =>
    rw [List.nil_append, messagesOf_nil]
    cases messagesOf bs <;> rfl
  | cons t ts ih =>
    rw [List.cons_append, messagesOf_cons, messagesOf_cons, ih]
    cases t.message? with
    | error e => rfl
    | ok m =>
      cases messagesOf ts with
      | error e => rfl
      | ok ms =>
        cases messagesOf bs with
        | error e => rfl
        | ok ns => exact congrArg Except.ok (List.append_assoc _ _ _).symm

/-- Turns in a row have messages when both parts have, and theirs are put together. -/
theorem messagesOf_append_eq_ok_iff {as bs : List Turn} {ms : List Message} :
    messagesOf (as ++ bs) = .ok ms ↔
      ∃ xs ys, messagesOf as = .ok xs ∧ messagesOf bs = .ok ys ∧ ms = xs ++ ys := by
  rw [messagesOf_append, bind_eq_ok_iff]
  constructor
  · rintro ⟨xs, hxs, h⟩
    obtain ⟨ys, hys, heq⟩ := bind_eq_ok_iff.mp h
    exact ⟨xs, ys, hxs, hys, (Except.ok.inj heq).symm⟩
  · rintro ⟨xs, ys, hxs, hys, rfl⟩
    exact ⟨xs, hxs, bind_eq_ok_iff.mpr ⟨ys, hys, rfl⟩⟩

/-- Earlier messages are taken over as they are. -/
@[simp] theorem messagesOf_earlier (ms : List Message) : messagesOf (ms.map .earlier) = .ok ms := by
  induction ms with
  | nil => rfl
  | cons m ms ih =>
    rw [List.map_cons, messagesOf_cons, ih]
    rfl

/-! ### Silent turns -/

/-- Whether nothing is said in a turn. -/
def Turn.isSilent : Turn → Bool
  | .said _ source => Text.allBlank source
  | .earlier _ => false

/-- A silent turn leaves no message. -/
theorem Turn.message?_of_isSilent {t : Turn} (h : t.isSilent = true) : t.message? = .ok none := by
  cases t with
  | said speaker source =>
    have hblank : Text.allBlank source = true := h
    rw [message?, if_pos hblank]
  | earlier m => cases h

/-- Silent turns do not show in the messages. -/
theorem messagesOf_filter_not_isSilent (ts : List Turn) :
    messagesOf (ts.filter fun t ↦ !t.isSilent) = messagesOf ts := by
  induction ts with
  | nil => rfl
  | cons t ts ih =>
    rw [messagesOf_cons]
    cases ht : t.isSilent with
    | true =>
      rw [List.filter_cons_of_neg (by simp [ht]), ih, Turn.message?_of_isSilent ht]
      cases messagesOf ts <;> rfl
    | false => rw [List.filter_cons_of_pos (by simp [ht]), messagesOf_cons, ih]

/-! ### What a piece does to a draft -/

namespace Draft

/-- The turns of a draft in which something is said. -/
def spoken (d : Draft) : List Turn := d.turns.filter fun t ↦ !t.isSilent

/-- The open turn holds no blank text: nothing at all, or text in which something is said. -/
def Settled (d : Draft) : Prop := Text.allBlank d.source = true → d.source = []

/-- A fresh draft is settled. -/
theorem settled_fresh : Settled {} := fun _ ↦ rfl

/-- Nothing is said in a fresh draft. -/
@[simp] theorem spoken_fresh : spoken {} = [] := rfl

/-- The spoken turns are those of the closed part and the open turn, if something is said in it. -/
theorem spoken_eq (d : Draft) :
    d.spoken = (d.closed.filter fun t ↦ !t.isSilent) ++
      if Text.allBlank d.source then [] else [.said d.role d.source] := by
  rw [spoken, turns, List.filter_append]
  cases h : Text.allBlank d.source <;> simp [Turn.isSilent, h]

/-- The turns after the open one is closed: those before, those between, and a new one. -/
theorem turns_next (d : Draft) (between : List Turn) (speaker : Role) :
    (d.next between speaker).turns = d.turns ++ between ++ [.said speaker []] := by
  simp [next, turns]

/-- After the open turn is closed, nothing is said in the new one. -/
theorem spoken_next (d : Draft) (between : List Turn) (speaker : Role) :
    (d.next between speaker).spoken = d.spoken ++ between.filter fun t ↦ !t.isSilent := by
  have hfresh : (Turn.said speaker []).isSilent = true := rfl
  rw [spoken, turns_next, List.filter_append, List.filter_append,
    List.filter_cons_of_neg (by simp [hfresh]), List.filter_nil, List.append_nil, spoken]

/-- A role marker keeps what is spoken, and makes its role that of a turn without text. -/
theorem add_role (history : List Message) {d : Draft} (hd : d.Settled) (speaker : Role) :
    ∃ e, d.add history (.marker (.ofRole speaker.name)) = .ok e ∧
      e.role = speaker ∧ e.source = [] ∧ e.spoken = d.spoken := by
  simp only [add, Marker.ofRole, String.ofList_toList, Role.ofName_name]
  cases hblank : Text.allBlank d.source with
  | true =>
    refine ⟨{ d with role := speaker }, rfl, rfl, hd hblank, ?_⟩
    simp [spoken_eq, hblank]
  | false =>
    refine ⟨d.next [] speaker, rfl, rfl, rfl, ?_⟩
    rw [spoken_next, List.filter_nil, List.append_nil]

/-- A history marker closes the open turn and puts the earlier messages behind it. -/
theorem add_history (history : List Message) (d : Draft) :
    ∃ e, d.add history (.marker .history) = .ok e ∧ e.Settled ∧
      e.spoken = d.spoken ++ (history.map Message.asHistory).map .earlier := by
  refine ⟨d.next (history.map fun m ↦ .earlier m.asHistory) .model, rfl, fun _ ↦ rfl, ?_⟩
  rw [spoken_next, List.map_map, List.filter_eq_self.mpr]
  · rfl
  · intro t ht
    obtain ⟨m, _, rfl⟩ := List.mem_map.mp ht
    rfl

/-- Text makes a turn without text a spoken one. -/
theorem add_text (history : List Message) {d : Draft} (hd : d.source = []) {cs : List Char}
    (hcs : Text.allBlank cs = false) :
    ∃ e, d.add history (.text cs) = .ok e ∧ e.Settled ∧
      e.spoken = d.spoken ++ [.said d.role cs] := by
  refine ⟨{ d with source := d.source ++ cs }, rfl, ?_, ?_⟩
  · intro hblank
    simp only [hd, List.nil_append, hcs] at hblank
    cases hblank
  · have hnil : Text.allBlank [] = true := rfl
    simp [spoken_eq, hd, hcs, hnil]

end Draft

end PromptDoc.Conversation
