import PromptDoc.Proofs.Conversation.Speech

/-!
# Media markers on their own

A media marker carries a url and a content type as they stand, and nothing escapes what ends a
field, a line or a marker. Main statement: a text that is one media marker gives that medium back
exactly when nothing in the url and the content type can be taken for the marker's own characters,
and spaces alone make it fail (`toMessages_ofMedia_iff`).
-/

namespace PromptDoc.Conversation

open Marker Outcome

/-! ### What is written -/

/-- The content type behind the url of a media marker; an empty one is not written. -/
def mediaTail (contentType : Option String) : List Char :=
  match contentType with
  | some kind => if kind.isEmpty then [] else ' ' :: kind.toList
  | none => []

/-- What is written between the lead of a media marker and its closing. -/
def mediaArguments (url : String) (contentType : Option String) : List Char :=
  ' ' :: (url.toList ++ mediaTail contentType)

/-- Nothing that is written for a url and a content type ends the line or the marker, begins another
marker that the closing would complete, or makes a content type out of the url. -/
structure Intact (url : String) (contentType : Option String) : Prop where
  no_break : '\n' ∉ mediaArguments url contentType
  no_closing : ¬ closing <:+: mediaArguments url contentType
  /-- A `>` at the end would be taken for the first of the closing. -/
  no_closing_begun : (mediaArguments url contentType).getLast? ≠ some '>'
  /-- A marker without its closing at the end would be given one. -/
  no_turn_begun : ∀ m : Marker, m.IsComplete → m.BeginsTurn →
    ¬ m.body <:+ mediaArguments url contentType
  /-- Where no content type is written, what stands behind a space in the url would be one. -/
  one_field : mediaTail contentType = [] → url.toList.count ' ' ≠ 1

/-- Neither the url nor the content type holds a space. -/
def Spaceless (url : String) (contentType : Option String) : Prop :=
  ' ' ∉ url.toList ∧ ∀ kind, contentType = some kind → ' ' ∉ kind.toList

/-- The message that a url and a content type stand for. A blank content type counts as none. -/
def mediaMessage (url : String) (contentType : Option String) : Message :=
  ⟨.user, [.ofMedia url (contentType.filter fun kind ↦ !Text.isBlankText kind)], none⟩

/-- A media marker is made of its arguments. -/
theorem ofMedia_eq (url : String) (contentType : Option String) :
    Marker.ofMedia url contentType = .media (mediaArguments url contentType) := by
  cases contentType with
  | none => simp [Marker.ofMedia, mediaArguments, mediaTail]
  | some kind =>
    rw [Marker.ofMedia, mediaArguments, mediaTail]
    split
    · rw [List.append_nil]
    · rfl

/-! ### One turn -/

section Written

variable {url : String} {contentType : Option String}

/-- The closing of an intact media marker completes no other marker, and there is no other
closing. -/
theorem Intact.not_infix_text (h : Intact url contentType) {m : Marker} (hm : m.IsComplete)
    (hturn : m.BeginsTurn) : ¬ m.text <:+: (media (mediaArguments url contentType)).text := by
  have hbody : ' ' ∉ m.body := space_notMem_body hm hturn
  rintro ⟨before, after, hwhole⟩
  have hwhole : (before ++ m.body) ++ (closing ++ after) =
      mediaLead ++ (mediaArguments url contentType ++ closing) := by
    simpa [text, body] using hwhole
  rcases List.append_eq_append_iff.mp hwhole with ⟨x, hlead, hx⟩ | ⟨x, hfront, hx⟩
  · -- The marker would end within the lead.
    cases x with
    | nil => cases hx
    | cons c x =>
      have hc : '>' = c := (List.cons.inj hx).1
      have hmem : '>' ∈ mediaLead := by
        rw [hlead, hc]
        exact List.mem_append_right _ List.mem_cons_self
      exact absurd hmem (by decide)
  · have hafter := eq_nil_of_closing h.no_closing h.no_closing_begun hx
    rw [hafter, List.append_nil, List.append_left_inj] at hx
    subst hx
    rcases List.append_eq_append_iff.mp hfront with ⟨y, -, hy⟩ | ⟨y, hy, hend⟩
    · -- The marker would begin within the lead, and hold the space in front of the url.
      refine hbody ?_
      rw [hy]
      exact List.mem_append_right _ List.mem_cons_self
    · exact h.no_turn_begun m hm hturn ⟨y, hend.symm⟩

end Written

/-- A text without markers of turns is one turn of the user's. -/
theorem toMessages_of_skips {cs : List Char} (h : turnReader.Skips cs [])
    (hblank : Text.allBlank cs = false) :
    toMessages (String.ofList cs) [] = (partsOf cs).map fun parts ↦ [⟨.user, parts, none⟩] := by
  have hne : cs ≠ [] := by
    rintro rfl
    cases hblank
  have hpieces : pieces turnReader cs = [.text cs] := by
    have happend := pieces_append_of_skips h
    rw [List.append_nil, pieces] at happend
    rw [happend]
    exact prependText_of_markerFirst hne True.intro
  have hsplit : splitTurns cs = [.text cs] := by
    rw [splitTurns, split, hpieces]
    simp [Piece.isBlank, hblank]
  have hturns : turnsOf (String.ofList cs).toList [] = .ok [.said .user cs] := by
    rw [String.toList_ofList, turnsOf, hsplit]
    rfl
  have hmessage : (Turn.said .user cs).message? =
      (partsOf cs).map fun parts ↦ some ⟨.user, parts, none⟩ := by
    rw [Turn.message?, if_neg (by simp [hblank])]
  rw [toMessages_eq, hturns]
  show (messagesOf [.said .user cs]).map (insertHistory · []) = _
  rw [messagesOf_cons, hmessage]
  cases partsOf cs with
  | error e => rfl
  | ok parts => rfl

/-! ### Fields -/

/-- A media marker that is read to its end is one part. -/
theorem partsOf_media {arguments : List Char} (hbreak : '\n' ∉ arguments)
    (hin : ¬ closing <:+: arguments) (hlast : arguments.getLast? ≠ some '>') :
    partsOf (media arguments).text = (mediaPart (.media arguments)).map ([·]) := by
  have hread : partReader.read ((media arguments).text ++ []) = some (.media arguments, []) := by
    rw [readPart_media_eq, untilClosing_eq_iff.mpr ⟨hbreak, hin, hlast⟩]
    rfl
  have hsplit : splitParts (media arguments).text = [.marker (.media arguments)] := by
    rw [List.append_nil] at hread
    rw [splitParts, split, pieces_of_read hread, pieces]
    rfl
  rw [partsOf, hsplit]
  show (do return (← mediaPart (.media arguments)) :: (← [].mapM partOf)) = _
  cases mediaPart (.media arguments) with
  | error e => rfl
  | ok part => rfl

/-- What is read as content type in what stands behind a url. -/
inductive ReadsTail : (tail : List Char) → (contentType : Option String) → Prop
  | nothing : ReadsTail [] none
  | blank {kind : List Char} (h : Text.allBlank kind = true) : ReadsTail (' ' :: kind) none
  | kind {kind : List Char} (h : Text.allBlank kind = false) :
    ReadsTail (' ' :: kind) (some (String.ofList kind))

section Fields

variable {arguments : List Char} {url : String} {contentType : Option String}

/-- A media marker gives the medium whose url is its second field and whose content type is read in
the third. -/
theorem mediaPart_eq_ok_iff :
    mediaPart (.media arguments) = .ok (.ofMedia url contentType) ↔
      ∃ front tail, arguments = front ++ ' ' :: (url.toList ++ tail) ∧ ' ' ∉ front ∧
        ' ' ∉ url.toList ∧ ' ' ∉ tail.tail ∧ ReadsTail tail contentType := by
  have hlead : ' ' ∉ mediaLead := by decide
  constructor
  · intro h
    obtain ⟨front, fs, hfs⟩ := List.exists_cons_of_ne_nil (Text.fields_ne_nil ' ' arguments)
    rw [mediaPart, body, Text.fields_append hlead hfs] at h
    obtain ⟨hfront, ⟨rfl, -⟩ | ⟨rest, rfl, hrest⟩⟩ := Text.fields_eq_cons hfs
    · cases h
    · split at h
      · next second hfields =>
        cases hfields
        cases h
        obtain ⟨hsecond, rfl⟩ := Text.fields_eq_singleton hrest
        exact ⟨front, [], by simp, hfront, by simpa using hsecond, List.not_mem_nil, .nothing⟩
      · next second third hfields =>
        cases hfields
        cases h
        obtain ⟨hsecond, ⟨hnil, -⟩ | ⟨kind, rfl, hkind⟩⟩ := Text.fields_eq_cons hrest
        · cases hnil
        · obtain ⟨hthird, rfl⟩ := Text.fields_eq_singleton hkind
          refine ⟨front, ' ' :: kind, by simp, hfront, by simpa using hsecond, hthird, ?_⟩
          cases hblank : Text.allBlank kind with
          | true => exact .blank hblank
          | false => exact .kind hblank
      · cases h
  · rintro ⟨front, tail, rfl, hfront, hurl, htail, hread⟩
    have hfirst : ' ' ∉ mediaLead ++ front := by simp [hlead, hfront]
    rw [mediaPart, body, ← List.append_assoc, Text.fields_append_cons hfirst]
    cases hread with
    | nothing => simp [Text.fields_of_notMem hurl]
    | blank hblank =>
      rw [List.tail_cons] at htail
      rw [Text.fields_append_cons hurl, Text.fields_of_notMem htail]
      simp [hblank]
    | kind hblank =>
      rw [List.tail_cons] at htail
      rw [Text.fields_append_cons hurl, Text.fields_of_notMem htail]
      simp [hblank]

/-- A marker with more than three fields gives no medium. -/
theorem mediaPart_eq_error {m : Marker} (h : 3 ≤ m.body.count ' ') :
    mediaPart m = .error (.mediaFields (String.ofList m.body) (m.body.count ' ' + 1)) := by
  have hlength := Text.length_fields ' ' m.body
  rw [mediaPart]
  split
  · next hfields =>
    rw [hfields] at hlength
    simp only [List.length_cons, List.length_nil] at hlength
    omega
  · next hfields =>
    rw [hfields] at hlength
    simp only [List.length_cons, List.length_nil] at hlength
    omega
  · rw [hlength]

/-- An empty content type is written like none, any other behind a space. -/
theorem mediaTail_cases (contentType : Option String) :
    mediaTail contentType = [] ∧ (∀ kind, contentType = some kind → kind = "") ∨
      ∃ kind, contentType = some kind ∧ mediaTail contentType = ' ' :: kind.toList := by
  cases contentType with
  | none => exact .inl ⟨rfl, fun kind h ↦ nomatch h⟩
  | some kind =>
    rw [mediaTail]
    split
    · next hempty =>
      refine .inl ⟨rfl, ?_⟩
      rintro _ ⟨rfl⟩
      exact String.isEmpty_iff.mp hempty
    · exact .inr ⟨kind, rfl, rfl⟩

/-- The content type that is read is the one that was written, unless that is blank. -/
theorem readsTail_mediaTail (contentType : Option String) :
    ReadsTail (mediaTail contentType) (contentType.filter fun kind ↦ !Text.isBlankText kind) := by
  rcases mediaTail_cases contentType with ⟨htail, hempty⟩ | ⟨kind, rfl, htail⟩
  · have hnone : contentType.filter (fun kind ↦ !Text.isBlankText kind) = none := by
      rw [Option.filter_eq_none_iff]
      intro kind hkind
      rw [hempty kind hkind]
      decide
    rw [htail, hnone]
    exact .nothing
  · rw [htail]
    cases hblank : Text.isBlankText kind with
    | true =>
      rw [Option.filter_some_neg (by simp [hblank])]
      exact .blank hblank
    | false =>
      rw [Option.filter_some_pos (by simp [hblank])]
      have hkind : ReadsTail (' ' :: kind.toList) (some (String.ofList kind.toList)) := .kind hblank
      rwa [String.ofList_toList] at hkind

/-- Nothing that is written behind the url holds a space, the first character apart. -/
theorem space_notMem_tail_iff :
    ' ' ∉ (mediaTail contentType).tail ↔ ∀ kind, contentType = some kind → ' ' ∉ kind.toList := by
  rcases mediaTail_cases contentType with ⟨htail, hempty⟩ | ⟨kind, rfl, htail⟩
  · rw [htail]
    refine iff_of_true List.not_mem_nil fun kind hkind ↦ ?_
    rw [hempty kind hkind]
    exact List.not_mem_nil
  · simp [htail]

/-- Any space that is not a separator makes too many fields. -/
theorem three_le_count_space (hfield : mediaTail contentType = [] → url.toList.count ' ' ≠ 1)
    (h : ¬ Spaceless url contentType) :
    3 ≤ (media (mediaArguments url contentType)).body.count ' ' := by
  have hlead : mediaLead.count ' ' = 0 := by decide
  rw [Spaceless, ← space_notMem_tail_iff, ← List.count_eq_zero, ← List.count_eq_zero] at h
  rw [body, List.count_append, hlead, mediaArguments, List.count_cons_self, List.count_append]
  rcases mediaTail_cases contentType with ⟨htail, -⟩ | ⟨kind, -, htail⟩
  · have hone := hfield htail
    simp only [htail, List.tail_nil, List.count_nil, and_true] at h ⊢
    omega
  · simp only [htail, List.tail_cons, List.count_cons_self] at h ⊢
    omega

end Fields

/-! ### What is read back -/

private theorem notMem_of_allBlank {cs : List Char} {c : Char} (h : Text.allBlank cs = true)
    (hc : Text.isBlank c = false) : c ∉ cs := by
  intro hmem
  rw [List.all_eq_true.mp h c hmem] at hc
  cases hc

private theorem eq_of_append_cons {sep : Char} {as bs xs ys : List Char} (has : sep ∉ as)
    (hbs : sep ∉ bs) (h : as ++ sep :: xs = bs ++ sep :: ys) : as = bs := by
  have hcut := Text.cutFirst?_eq_some_iff.mpr ⟨h, hbs⟩
  rw [Text.cutFirst?_eq_some_iff.mpr ⟨rfl, has⟩] at hcut
  cases hcut
  rfl

namespace ReadsTail

variable {tail other : List Char} {contentType : Option String}

/-- What is left out of a content type begins no marker. -/
theorem count_eq (h : ReadsTail tail contentType) :
    tail.count '<' = (contentType.elim [] String.toList).count '<' := by
  cases h with
  | nothing => rfl
  | blank hblank =>
    rw [List.count_cons_of_ne (by decide)]
    exact List.count_eq_zero_of_not_mem (notMem_of_allBlank hblank (by decide))
  | kind hblank =>
    rw [List.count_cons_of_ne (by decide), Option.elim_some, String.toList_ofList]

/-- What is read as one content type and ends where the other does is the same. -/
theorem eq_of_closing (h : ReadsTail tail contentType) (h' : ReadsTail other contentType)
    {after : List Char} (hend : tail ++ (closing ++ after) = other ++ closing) : tail = other := by
  have hblank {kind kind' : List Char} (hkind : Text.allBlank kind = true)
      (hkind' : Text.allBlank kind' = true)
      (hend : kind ++ (closing ++ after) = kind' ++ closing) : kind = kind' :=
    eq_of_append_cons (notMem_of_allBlank hkind (by decide))
      (notMem_of_allBlank hkind' (by decide)) hend
  generalize hsame : contentType = read at h'
  cases h with
  | nothing =>
    cases h' with
    | nothing => rfl
    | blank => cases hend
    | kind => cases hsame
  | blank hkind =>
    cases h' with
    | nothing => cases hend
    | blank hkind' => rw [hblank hkind hkind' (List.cons.inj hend).2]
    | kind => cases hsame
  | kind =>
    cases h' with
    | nothing => cases hsame
    | blank => cases hsame
    | kind => rw [String.ofList_injective (Option.some.inj hsame)]

end ReadsTail

section Written

variable {url : String} {contentType : Option String}

/-- A media marker within the written one that gives the medium back is the written one. Both hold
the url and what is read as the content type, so they hold the same number of `<` and begin
together. -/
theorem eq_mediaArguments_of_infix {arguments : List Char}
    (hmedia : mediaPart (.media arguments) =
      .ok (.ofMedia url (contentType.filter fun kind ↦ !Text.isBlankText kind)))
    (hin : (media arguments).text <:+: (media (mediaArguments url contentType)).text) :
    arguments = mediaArguments url contentType ∧ Spaceless url contentType := by
  obtain ⟨front, tail, rfl, hfront, hurl, htail, hread⟩ := mediaPart_eq_ok_iff.mp hmedia
  obtain ⟨before, after, hwhole⟩ := hin
  have hwritten := readsTail_mediaTail contentType
  have hbefore : before = [] := by
    cases before with
    | nil => rfl
    | cons c before =>
      exfalso
      have hc : c = '<' := (List.cons.inj hwhole).1
      have hcount := congrArg (List.count '<') hwhole
      have hsame := hread.count_eq.trans hwritten.count_eq.symm
      simp only [text, body, mediaArguments, hc, List.cons_append, List.append_assoc,
        List.count_cons_self, List.count_append, List.count_cons_of_ne (show ' ' ≠ '<' by decide),
        hsame] at hcount
      omega
  have hrest : front ++ ' ' :: (url.toList ++ (tail ++ (closing ++ after))) =
      ' ' :: (url.toList ++ (mediaTail contentType ++ closing)) := by
    simpa [hbefore, text, body, mediaArguments] using hwhole
  cases front with
  | cons c front => exact absurd List.mem_cons_self ((List.cons.inj hrest).1 ▸ hfront)
  | nil =>
    rw [List.nil_append, List.cons.injEq, and_iff_right rfl, List.append_right_inj] at hrest
    obtain rfl := hread.eq_of_closing hwritten hrest
    exact ⟨rfl, hurl, space_notMem_tail_iff.mp htail⟩

/-- Only a media marker is read as a medium. -/
theorem exists_media_of_partOf {p : Piece} (h : partOf p = .ok (.ofMedia url contentType)) :
    ∃ arguments, p = .marker (.media arguments) ∧
      mediaPart (.media arguments) = .ok (.ofMedia url contentType) := by
  cases p with
  | text cs => cases h
  | marker mark =>
    cases mark with
    | role name => cases h
    | history => cases h
    | media arguments => exact ⟨arguments, rfl, h⟩
    | placeholder arguments =>
      rw [partOf, sectionPart] at h
      split at h <;> cases h

/-- A url and a content type that come back are intact and hold no space. -/
theorem intact_of_toMessages
    (h : toMessages (Marker.ofMedia url contentType).toString [] =
      .ok [mediaMessage url contentType]) :
    Intact url contentType ∧ Spaceless url contentType := by
  obtain ⟨source, hsource, hparts, -⟩ := exists_text_of_mem_toMessages h List.mem_cons_self rfl
  rw [Marker.toString, ofMedia_eq, String.toList_ofList] at hsource
  have hturn := (text_mem_split hsource).2
  obtain ⟨p, hp, hpart⟩ := exists_of_mem_mapM hparts List.mem_cons_self
  obtain ⟨arguments, rfl, hmedia⟩ := exists_media_of_partOf hpart
  have hinner : (media arguments).text <:+: source :=
    written_infix_of_mem_pieces (List.mem_filter.mp hp).1
  have houter : source <:+: (media (mediaArguments url contentType)).text :=
    written_infix_of_mem_pieces hturn
  obtain ⟨rfl, hspaceless⟩ := eq_mediaArguments_of_infix hmedia (hinner.trans houter)
  obtain rfl := houter.eq_of_length (Nat.le_antisymm houter.length_le hinner.length_le)
  obtain ⟨front, rest, hread⟩ := exists_read_of_mem_split hp
  rw [partReader.eq_append hread, readPart_media_eq] at hread
  obtain ⟨⟨inner, rest'⟩, huntil, heq⟩ := Option.map_eq_some_iff.mp hread
  cases heq
  obtain ⟨hbreak, hclosing, hbegun⟩ := untilClosing_eq_iff.mp huntil
  refine ⟨⟨hbreak, hclosing, hbegun, ?_, ?_⟩, hspaceless⟩
  · rintro m hm hbegins ⟨front, hfront⟩
    refine (turnReader_reads hm hbegins).not_infix_text hturn ⟨mediaLead ++ front, [], ?_⟩
    rw [text, text, body, ← hfront]
    simp
  · intro _
    rw [List.count_eq_zero_of_not_mem hspaceless.1]
    decide

/-- An intact media marker is one turn with one part. -/
theorem Intact.toMessages_eq (h : Intact url contentType) :
    toMessages (Marker.ofMedia url contentType).toString [] =
      (mediaPart (.media (mediaArguments url contentType))).map fun part ↦
        [⟨.user, [part], none⟩] := by
  have hskips : turnReader.Skips (media (mediaArguments url contentType)).text [] :=
    skips_of_not_infix fun _ hm hturn ↦ h.not_infix_text hm hturn
  rw [Marker.toString, ofMedia_eq, toMessages_of_skips hskips rfl,
    partsOf_media h.no_break h.no_closing h.no_closing_begun]
  cases mediaPart (.media (mediaArguments url contentType)) with
  | error e => rfl
  | ok part => rfl

end Written

/-- Nothing can be taken for the marker's own characters where none of them stands. -/
theorem intact_of_plain {url : String} {contentType : Option String}
    (h : ∀ c ∈ mediaArguments url contentType, c ≠ '\n' ∧ c ≠ '<' ∧ c ≠ '>')
    (hfield : mediaTail contentType = [] → url.toList.count ' ' ≠ 1) : Intact url contentType where
  no_break hmem := (h _ hmem).1 rfl
  no_closing hin := (h '>' (hin.subset (by decide))).2.2 rfl
  no_closing_begun hlast := (h '>' (List.mem_of_getLast? hlast)).2.2 rfl
  no_turn_begun m _ hturn hbegun := by
    refine (h '<' (hbegun.subset ?_)).2.1 rfl
    cases m with
    | role name => exact List.mem_append_left name (by decide)
    | history => decide
    | media arguments => exact hturn.elim
    | placeholder arguments => exact hturn.elim
  one_field := hfield

/-- A text that is one media marker gives the message of its url and content type, and no other,
exactly when they are intact and hold no space. If they are intact and hold one, the marker has too
many fields. -/
theorem toMessages_ofMedia_iff (url : String) (contentType : Option String) :
    (toMessages (Marker.ofMedia url contentType).toString [] =
        .ok [mediaMessage url contentType] ↔
      Intact url contentType ∧ Spaceless url contentType) ∧
    (Intact url contentType → ¬ Spaceless url contentType →
      toMessages (Marker.ofMedia url contentType).toString [] = .error
        (.mediaFields (String.ofList (Marker.ofMedia url contentType).body)
          ((Marker.ofMedia url contentType).body.count ' ' + 1))) := by
  refine ⟨⟨intact_of_toMessages, ?_⟩, ?_⟩
  · rintro ⟨hintact, hurl, hkind⟩
    have hpart := mediaPart_eq_ok_iff.mpr ⟨[], mediaTail contentType, rfl, List.not_mem_nil, hurl,
      space_notMem_tail_iff.mpr hkind, readsTail_mediaTail contentType⟩
    rw [hintact.toMessages_eq, mediaArguments, ← List.nil_append (' ' :: _), hpart]
    rfl
  · intro hintact hspace
    rw [hintact.toMessages_eq, mediaPart_eq_error (three_le_count_space hintact.one_field hspace),
      ← ofMedia_eq]
    rfl

/-- A url with a space fails, the same url with an underscore comes back. -/
theorem toMessages_ofMedia_cat :
    Intact "my_cat.png" (some "image/png") ∧ Intact "my cat.png" (some "image/png") ∧
      toMessages (Marker.ofMedia "my_cat.png" (some "image/png")).toString [] =
        .ok [⟨.user, [.ofMedia "my_cat.png" (some "image/png")], none⟩] ∧
      toMessages (Marker.ofMedia "my cat.png" (some "image/png")).toString [] =
        .error (.mediaFields "<<<dotprompt:media:url my cat.png image/png" 4) := by
  have hone : Intact "my_cat.png" (some "image/png") :=
    intact_of_plain (by simp [mediaArguments, mediaTail]) (by simp [mediaTail])
  have hspace : Intact "my cat.png" (some "image/png") :=
    intact_of_plain (by simp [mediaArguments, mediaTail]) (by simp [mediaTail])
  refine ⟨hone, hspace, ?_, ?_⟩
  · have hspaceless : Spaceless "my_cat.png" (some "image/png") := ⟨by decide +kernel, by simp⟩
    exact (toMessages_ofMedia_iff "my_cat.png" (some "image/png")).1.mpr ⟨hone, hspaceless⟩
  · exact (toMessages_ofMedia_iff "my cat.png" (some "image/png")).2 hspace
      fun hspaceless ↦ hspaceless.1 (by decide +kernel)

/-- A closing within a url cuts it short, and nothing fails. -/
theorem toMessages_ofMedia_cut :
    toMessages (Marker.ofMedia "a>>>b" none).toString [] =
        .ok [⟨.user, [.ofMedia "a" none, .ofText "b>>>"], none⟩] ∧
      ¬ ((∃ e, toMessages (Marker.ofMedia "a>>>b" none).toString [] = .error e) ∨
        toMessages (Marker.ofMedia "a>>>b" none).toString [] =
          .ok [mediaMessage "a>>>b" none]) := by
  have hrun : toMessages (Marker.ofMedia "a>>>b" none).toString [] =
      .ok [⟨.user, [.ofMedia "a" none, .ofText "b>>>"], none⟩] := by cbv
  refine ⟨hrun, ?_⟩
  rw [hrun]
  simp [mediaMessage]

end PromptDoc.Conversation
