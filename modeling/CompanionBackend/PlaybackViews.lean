import CompanionBackend.TurnViews

/-!
# What the playback evidence has made of the events it was fed

A reply has the text of the events about it, until it stops. A frame of the client
changes what is known to have been played and nothing of what was sent.
-/
namespace CompanionBackend.PlaybackViews

open ProviderEvents PlaybackService TurnRecords TurnService TurnViews

variable {p p' : PlaybackEvidence} {fed : List ProviderEvent} {e : ProviderEvent}

theorem textOf_append (log : List ProviderEvent) (e : ProviderEvent) (r : Ident) :
    textOf (log ++ [e]) r = if isChat r e then textOf log r ++ eventText e else textOf log r := by
  unfold textOf
  rw [List.filter_append, List.flatMap_append]
  by_cases hchat : isChat r e = true <;> simp [hchat]

/-! ### Replies -/

/-- What the playback evidence has made of the events it was fed. -/
structure PlaybackView (p : PlaybackEvidence) (fed : List ProviderEvent) : Prop where
  distinct : Distinct p
  placed : ∀ e ∈ fed, ∀ r, e.replyId = some r → r ≠ [] →
    ∃ R, p.replies.lookup r = some R ∧ e.questionId = some R.questionId
  texts : ∀ r R, p.replies.lookup r = some R → R.stopped = false → R.text = textOf fed r
  audio : ∀ r R, p.replies.lookup r = some R → R.ttsFinished = true →
    ∃ e ∈ fed, e.replyId = some r ∧ e.kind = .ttsFinished
  named : ∀ r R, p.replies.lookup r = some R → r ≠ []

/-- The later of two states of a reply. -/
structure Later (R R' : Reply) : Prop where
  question : R'.questionId = R.questionId
  finished : R.textFinished = true → R'.textFinished = true
  stopped : R.stopped = true → R'.stopped = true

theorem Later.refl (R : Reply) : Later R R := ⟨rfl, id, id⟩

/-- The replies of the one are in the other, in a later state. -/
def Extends (p p' : PlaybackEvidence) : Prop :=
  ∀ r R, p.replies.lookup r = some R → ∃ R', p'.replies.lookup r = some R' ∧ Later R R'

theorem Extends.of_eq (h : p'.replies = p.replies) : Extends p p' :=
  fun _ R hR => ⟨R, h ▸ hR, .refl R⟩

theorem Extends.trans {p'' : PlaybackEvidence} (h : Extends p p') (h' : Extends p' p'') :
    Extends p p'' := by
  intro r R hR
  obtain ⟨R', hR', hlater⟩ := h r R hR
  obtain ⟨R'', hR'', hlater'⟩ := h' r R' hR'
  exact ⟨R'', hR'', hlater'.question.trans hlater.question,
    fun hf => hlater'.finished (hlater.finished hf), fun hs => hlater'.stopped (hlater.stopped hs)⟩

theorem PlaybackView.of_eq (h : PlaybackView p fed) (heq : p'.replies = p.replies) :
    PlaybackView p' fed := by
  obtain ⟨hdistinct, hplaced, htexts, haudio, hnamed⟩ := h
  unfold Distinct at hdistinct
  rw [← heq] at hdistinct hplaced htexts haudio hnamed
  exact ⟨hdistinct, hplaced, htexts, haudio, hnamed⟩

/-- The reply is replaced by a later state. -/
theorem extends_put {r : Ident} {R R' : Reply} (hR : p.replies.lookup r = some R)
    (hput : p'.replies = p.replies.insert r R') (hlater : Later R R') : Extends p p' := by
  intro r₁ R₁ hR₁
  rw [hput]
  by_cases hr : r₁ = r
  · subst hr
    obtain rfl := Option.some.inj (hR.symm.trans hR₁)
    exact ⟨R', AList.lookup_insert _, hlater⟩
  · exact ⟨R₁, (AList.lookup_insert_ne hr).trans hR₁, .refl R₁⟩

/-- A reply has been replaced, on an event that has been fed or none. -/
theorem PlaybackView.put (h : PlaybackView p fed) (added : List ProviderEvent) {r : Ident}
    {R R' : Reply} (hR : p.replies.lookup r = some R)
    (hput : p'.replies = p.replies.insert r R') (hq : R'.questionId = R.questionId)
    (hadded : ∀ e ∈ added, e.replyId = some r ∧ e.questionId = some R.questionId)
    (htext : R'.stopped = false → R'.text = textOf (fed ++ added) r)
    (haudio : R'.ttsFinished = true → R.ttsFinished = true ∨ ∃ e ∈ added, e.kind = .ttsFinished) :
    PlaybackView p' (fed ++ added) := by
  have hsame : p'.replies.lookup r = some R' := by
    rw [hput]
    exact AList.lookup_insert _
  have hother : ∀ {r'}, r' ≠ r → p'.replies.lookup r' = p.replies.lookup r' := by
    intro r' hr
    rw [hput]
    exact AList.lookup_insert_ne hr
  have hback : ∀ r' R₁, p'.replies.lookup r' = some R₁ →
      ∃ R₂, p.replies.lookup r' = some R₂ ∧ R₁.questionId = R₂.questionId := by
    intro r' R₁ hR₁
    by_cases hr : r' = r
    · subst hr
      obtain rfl := Option.some.inj (hsame.symm.trans hR₁)
      exact ⟨R, hR, hq⟩
    · exact ⟨R₁, (hother hr).symm.trans hR₁, rfl⟩
  refine ⟨fun r₁ r₂ R₁ R₂ h₁ h₂ heq => ?_, fun e he r' hr' hne => ?_, fun r' R₁ hR₁ hopen => ?_,
    fun r' R₁ hR₁ hfinished => ?_, fun r' R₁ hR₁ => ?_⟩
  · obtain ⟨R₁', h₁', hq₁⟩ := hback r₁ R₁ h₁
    obtain ⟨R₂', h₂', hq₂⟩ := hback r₂ R₂ h₂
    exact h.distinct r₁ r₂ R₁' R₂' h₁' h₂' (hq₁.symm.trans (heq.trans hq₂))
  · obtain ⟨R₁, hR₁, hq₁⟩ : ∃ R₁, p.replies.lookup r' = some R₁ ∧ e.questionId = some R₁.questionId := by
      rcases List.mem_append.mp he with he | he
      · exact h.placed e he r' hr' hne
      · obtain ⟨hreply, hquestion⟩ := hadded e he
        obtain rfl := Option.some.inj (hreply.symm.trans hr')
        exact ⟨R, hR, hquestion⟩
    by_cases hr : r' = r
    · subst hr
      obtain rfl := Option.some.inj (hR.symm.trans hR₁)
      exact ⟨R', hsame, hq ▸ hq₁⟩
    · exact ⟨R₁, (hother hr).trans hR₁, hq₁⟩
  · by_cases hr : r' = r
    · subst hr
      obtain rfl := Option.some.inj (hsame.symm.trans hR₁)
      exact htext hopen
    · rw [h.texts r' R₁ ((hother hr).symm.trans hR₁) hopen]
      unfold textOf
      rw [List.filter_append]
      have hnone : added.filter (isChat r') = [] := by
        refine List.filter_eq_nil_iff.mpr fun e he hchat => hr ?_
        exact Option.some.inj ((isChat_iff.mp hchat).2.1.symm.trans (hadded e he).1)
      rw [hnone, List.append_nil]
  · by_cases hr : r' = r
    · subst hr
      obtain rfl := Option.some.inj (hsame.symm.trans hR₁)
      rcases haudio hfinished with hold | ⟨e, he, hkind⟩
      · obtain ⟨e, he, hrest⟩ := h.audio r' R hR hold
        exact ⟨e, List.mem_append_left _ he, hrest⟩
      · exact ⟨e, List.mem_append_right _ he, (hadded e he).1, hkind⟩
    · obtain ⟨e, he, hrest⟩ := h.audio r' R₁ ((hother hr).symm.trans hR₁) hfinished
      exact ⟨e, List.mem_append_left _ he, hrest⟩
  · obtain ⟨R₂, hR₂, -⟩ := hback r' R₁ hR₁
    exact h.named r' R₂ hR₂

theorem textOf_eq_nil {r : Ident} (h : PlaybackView p fed) (hnone : p.replies.lookup r = none) :
    textOf fed r = [] := by
  unfold textOf
  rw [List.filter_eq_nil_iff.mpr, List.flatMap_nil]
  intro e he hchat
  obtain ⟨-, hr, hne⟩ := isChat_iff.mp hchat
  obtain ⟨R, hR, -⟩ := h.placed e he r hr hne
  rw [hnone] at hR
  cases hR

/-- A new reply to a question that had none. -/
theorem PlaybackView.add (h : PlaybackView p fed) {r q : Ident} (hnone : p.replies.lookup r = none)
    (hne : r ≠ []) (hfree : ∀ r' R, p.replies.lookup r' = some R → R.questionId ≠ q)
    (hput : p'.replies = p.replies.insert r (.new q)) : PlaybackView p' fed ∧ Extends p p' := by
  have hsame : p'.replies.lookup r = some (.new q) := by
    rw [hput]
    exact AList.lookup_insert _
  have hother : ∀ {r'}, r' ≠ r → p'.replies.lookup r' = p.replies.lookup r' := by
    intro r' hr
    rw [hput]
    exact AList.lookup_insert_ne hr
  have hold : ∀ {r' R}, p.replies.lookup r' = some R → r' ≠ r := by
    rintro r' R hR rfl
    rw [hnone] at hR
    cases hR
  have hcases : ∀ r' R, p'.replies.lookup r' = some R →
      r' = r ∧ R = .new q ∨ p.replies.lookup r' = some R := by
    intro r' R hR
    by_cases hr : r' = r
    · subst hr
      exact .inl ⟨rfl, (Option.some.inj (hsame.symm.trans hR)).symm⟩
    · exact .inr ((hother hr).symm.trans hR)
  refine ⟨⟨fun r₁ r₂ R₁ R₂ h₁ h₂ heq => ?_, fun e he r' hr' hne' => ?_, fun r' R hR hopen => ?_,
    fun r' R hR hfinished => ?_, fun r' R hR => ?_⟩, fun r' R hR => ?_⟩
  · rcases hcases r₁ R₁ h₁ with ⟨rfl, rfl⟩ | h₁' <;> rcases hcases r₂ R₂ h₂ with ⟨rfl, rfl⟩ | h₂'
    · rfl
    · exact absurd heq.symm (hfree r₂ R₂ h₂')
    · exact absurd heq (hfree r₁ R₁ h₁')
    · exact h.distinct r₁ r₂ R₁ R₂ h₁' h₂' heq
  · obtain ⟨R, hR, hq⟩ := h.placed e he r' hr' hne'
    exact ⟨R, (hother (hold hR)).trans hR, hq⟩
  · rcases hcases r' R hR with ⟨rfl, rfl⟩ | hR'
    · exact (textOf_eq_nil h hnone).symm
    · exact h.texts r' R hR' hopen
  · rcases hcases r' R hR with ⟨rfl, rfl⟩ | hR'
    · cases hfinished
    · exact h.audio r' R hR' hfinished
  · rcases hcases r' R hR with ⟨rfl, rfl⟩ | hR'
    · exact hne
    · exact h.named r' R hR'
  · exact ⟨R, (hother (hold hR)).trans hR, .refl R⟩

/-- An event that names a reply names its question, or the reply is new and the question has none. -/
def Placed (p : PlaybackEvidence) (e : ProviderEvent) : Prop :=
  ∀ r, e.replyId = some r → r ≠ [] →
    (∃ R, p.replies.lookup r = some R ∧ e.questionId = some R.questionId) ∨
      p.replies.lookup r = none ∧
        ∀ r' R, p.replies.lookup r' = some R → some R.questionId ≠ e.questionId

/-- What an event does to its reply. -/
structure Fed (e : ProviderEvent) (r : Ident) (R R' : Reply) : Prop where
  question : R'.questionId = R.questionId
  stopped : R'.stopped = R.stopped
  text : R'.text = if isChat r e then R.text ++ eventText e else R.text
  audio : R'.ttsFinished = true → R.ttsFinished = true ∨ e.kind = .ttsFinished
  finished : R.textFinished = true → R'.textFinished = true

theorem reply_fed {r sid : Ident} {R R' : Reply} {boundary : Option Ident}
    (hreply : e.replyId = some r) (hne : r ≠ []) (h : R.feed e sid = .ok (R', boundary)) :
    Fed e r R R' := by
  have hchat : isChat r e = decide (e.kind = .chatText) := by simp [isChat, hreply, hne]
  unfold Reply.feed at h
  split at h
  · next hkind =>
    split at h
    · next t hpayload =>
      split_ifs at h
      simp only [Except.ok.injEq, Prod.mk.injEq] at h
      obtain ⟨rfl, -⟩ := h
      refine ⟨rfl, rfl, ?_, .inl, id⟩
      rw [hchat, hkind]
      simp [eventText, hpayload]
    · cases h
  · next hkind =>
    split at h
    · split_ifs at h
      simp only [Except.ok.injEq, Prod.mk.injEq] at h
      obtain ⟨rfl, -⟩ := h
      exact ⟨rfl, rfl, by simp [hchat, hkind], .inl, id⟩
    · cases h
  · next hkind =>
    split_ifs at h
    split at h
    · split_ifs at h
      simp only [Except.ok.injEq, Prod.mk.injEq] at h
      obtain ⟨rfl, -⟩ := h
      exact ⟨rfl, rfl, by simp [hchat, hkind], .inl, id⟩
    · cases h
  · next hkind =>
    split at h <;> simp only [Except.ok.injEq, Prod.mk.injEq] at h <;> obtain ⟨rfl, -⟩ := h
    · exact ⟨rfl, rfl, by simp [hchat, hkind], .inl, id⟩
    · exact ⟨rfl, rfl, by simp [hchat, hkind, Reply.endSentence], .inl, id⟩
  · next hkind =>
    simp only [Except.ok.injEq, Prod.mk.injEq] at h
    obtain ⟨rfl, -⟩ := h
    exact ⟨rfl, rfl, by simp [hchat, hkind], .inl, fun _ => rfl⟩
  · next hkind =>
    simp only [Except.ok.injEq, Prod.mk.injEq] at h
    obtain ⟨rfl, -⟩ := h
    exact ⟨rfl, rfl, by simp [hchat, hkind], fun _ => .inr hkind, id⟩
  · next hkind _ _ _ _ _ =>
    simp only [Except.ok.injEq, Prod.mk.injEq] at h
    obtain ⟨rfl, -⟩ := h
    refine ⟨rfl, rfl, ?_, .inl, id⟩
    rw [hchat, decide_eq_false hkind]
    rfl

/-- A reply that was not there has no end of its text. -/
def Unfinished (p p' : PlaybackEvidence) : Prop :=
  ∀ r R, p'.replies.lookup r = some R → p.replies.lookup r = some R ∨ R.textFinished = false

theorem openReply_view {r : Ident} {R : Reply} (h : PlaybackView p fed) (hplaced : Placed p e)
    (hreply : e.replyId = some r) (hne : r ≠ []) (hopen : p.openReply e r = .ok (p', R)) :
    PlaybackView p' fed ∧ Extends p p' ∧ Unfinished p p' ∧ p'.replies.lookup r = some R := by
  unfold PlaybackEvidence.openReply at hopen
  split at hopen
  · next R₀ hR =>
    simp only [Except.ok.injEq, Prod.mk.injEq] at hopen
    obtain ⟨rfl, rfl⟩ := hopen
    exact ⟨h, .of_eq rfl, fun _ _ => .inl, hR⟩
  · next hnone =>
    split at hopen
    · next c cs hquestion =>
      split_ifs at hopen
      simp only [Except.ok.injEq, Prod.mk.injEq] at hopen
      obtain ⟨rfl, rfl⟩ := hopen
      have hfree : ∀ r' R, p.replies.lookup r' = some R → R.questionId ≠ c :: cs := by
        rcases hplaced r hreply hne with ⟨R, hR, -⟩ | ⟨-, hfree⟩
        · rw [hnone] at hR
          cases hR
        · exact fun r' R hR heq => hfree r' R hR (by rw [heq, hquestion])
      have hput : (p.putReply r (.new (c :: cs))).replies = p.replies.insert r (.new (c :: cs)) := rfl
      obtain ⟨hview, hextends⟩ := h.add hnone hne hfree hput
      refine ⟨hview, hextends, fun r' R hR => ?_, AList.lookup_insert _⟩
      by_cases hr : r' = r
      · subst hr
        obtain rfl := Option.some.inj ((AList.lookup_insert _).symm.trans hR)
        exact .inr rfl
      · exact .inl ((AList.lookup_insert_ne hr).symm.trans hR)
    · cases hopen

/-- An event that adds nothing to a reply that can still be shown. -/
theorem PlaybackView.grow (h : PlaybackView p fed)
    (hplaced : ∀ r, e.replyId = some r → r ≠ [] →
      ∃ R, p.replies.lookup r = some R ∧ e.questionId = some R.questionId)
    (hquiet : ∀ r R, p.replies.lookup r = some R → R.stopped = false → isChat r e = false) :
    PlaybackView p (fed ++ [e]) := by
  refine ⟨h.distinct, fun e' he' r hr hne => ?_, fun r R hR hopen => ?_,
    fun r R hR hfinished => ?_, h.named⟩
  · rcases List.mem_append.mp he' with he' | he'
    · exact h.placed e' he' r hr hne
    · rw [List.mem_singleton.mp he'] at hr ⊢
      exact hplaced r hr hne
  · rw [textOf_append, hquiet r R hR hopen]
    exact h.texts r R hR hopen
  · obtain ⟨e', he', hrest⟩ := h.audio r R hR hfinished
    exact ⟨e', List.mem_append_left _ he', hrest⟩

/-- What an event that is fed does to the replies; it may raise. -/
theorem feed_view (h : PlaybackView p fed) (hplaced : Placed p e) (sid : Ident) :
    Extends p (p.feed e true sid).1 ∧
      (∀ err, (p.feed e true sid).2 = .error err →
        PlaybackView (p.feed e true sid).1 fed ∧ Unfinished p (p.feed e true sid).1) ∧
      ∀ boundary, (p.feed e true sid).2 = .ok boundary →
        PlaybackView (p.feed e true sid).1 (fed ++ [e]) := by
  have hnothing : ∀ {p' : PlaybackEvidence}, PlaybackView p' fed →
      (∀ r, e.replyId = some r → r = []) → PlaybackView p' (fed ++ [e]) := by
    intro p' hp' hno
    refine hp'.grow (fun r hr hne => absurd (hno r hr) hne) fun r _ _ _ => ?_
    by_contra hchat
    obtain ⟨-, hr, hne⟩ := isChat_iff.mp (by simpa using hchat)
    exact hne (hno r hr)
  unfold PlaybackEvidence.feed
  by_cases hcall : e.callId ≠ p.callId
  · rw [if_pos hcall]
    exact ⟨.of_eq rfl, fun _ _ => ⟨h, fun _ _ => .inl⟩, nofun⟩
  rw [if_neg hcall]
  simp only [Bool.not_true, Bool.false_and, Bool.false_eq_true, if_false]
  set p₀ : PlaybackEvidence := { p with
    providerSequence := p.providerSequence.insert e.sessionId
      (max e.sequence ((p.providerSequence.lookup e.sessionId).getD 0)) }
  have h₀ : PlaybackView p₀ fed := h.of_eq rfl
  split
  · next hreply => exact ⟨.of_eq rfl, nofun, fun _ _ => hnothing h₀ (by simp [hreply])⟩
  · next hreply => exact ⟨.of_eq rfl, nofun, fun _ _ => hnothing h₀ (by simp [hreply])⟩
  · next c cs hreply =>
    have hne := List.cons_ne_nil c cs
    split
    · exact ⟨.of_eq rfl, fun _ _ => ⟨h₀, fun _ _ => .inl⟩, nofun⟩
    · next p₁ R hopen =>
      obtain ⟨h₁, hextends, hunfinished, hR⟩ := openReply_view h₀ (e := e) hplaced hreply hne hopen
      have hextends : Extends p p₁ := (Extends.of_eq rfl).trans hextends
      by_cases hquestion : some R.questionId ≠ e.questionId
      · rw [if_pos hquestion]
        exact ⟨hextends, fun _ _ => ⟨h₁, hunfinished⟩, nofun⟩
      rw [if_neg hquestion]
      have hq : e.questionId = some R.questionId := (not_ne_iff.mp hquestion).symm
      have hown : ∀ {r}, e.replyId = some r → r = c :: cs := fun hr =>
        Option.some.inj (hr.symm.trans hreply)
      by_cases hstopped : R.stopped = true
      · rw [if_pos hstopped]
        refine ⟨hextends, nofun, fun _ _ => h₁.grow (fun r hr _ => ?_) fun r R₁ hR₁ hopen => ?_⟩
        · obtain rfl := hown hr
          exact ⟨R, hR, hq⟩
        · by_contra hchat
          obtain rfl := hown (isChat_iff.mp (by simpa using hchat)).2.1
          obtain rfl := Option.some.inj (hR.symm.trans hR₁)
          rw [hstopped] at hopen
          cases hopen
      · rw [if_neg hstopped]
        split
        · exact ⟨hextends, fun _ _ => ⟨h₁, hunfinished⟩, nofun⟩
        · next R' boundary hfed =>
          have hf := reply_fed hreply hne hfed
          refine ⟨hextends.trans (extends_put hR rfl
            ⟨hf.question, hf.finished, fun hs => hf.stopped.trans hs⟩), nofun, fun _ _ => ?_⟩
          refine h₁.put _ hR rfl hf.question (fun e' he' => ?_) (fun _ => ?_) fun hfinished => ?_
          · rw [List.mem_singleton.mp he']
            exact ⟨hreply, hq⟩
          · rw [hf.text, textOf_append, h₁.texts _ R hR (by simpa using hstopped)]
          · exact (hf.audio hfinished).imp_right fun hkind => ⟨e, List.mem_singleton_self e, hkind⟩

/-- The turn service's view looks at the questions of the replies only. -/
theorem extend_view {K : ProviderEvent → Prop} {text : Ident → Text} {s : VoiceTurnService}
    (h : TurnView p K text s) (hextends : Extends p p') : TurnView p' K text s := by
  refine ⟨h.known, h.table, h.unbound, h.generated, fun q d hd hclosed => ?_, h.frozen⟩
  obtain ⟨r, R, hr, hR, hq⟩ := h.closed q d hd hclosed
  obtain ⟨R', hR', hlater⟩ := hextends r R hR
  exact ⟨r, R', hr, hR', hlater.question.trans hq⟩

/-- Whether an event is in its place does not change with the state of a reply. -/
theorem Placed.put {r : Ident} {R R' : Reply} (h : Placed p e) (hR : p.replies.lookup r = some R)
    (hput : p'.replies = p.replies.insert r R') (hq : R'.questionId = R.questionId) :
    Placed p' e := by
  intro r₁ hr₁ hne
  rcases h r₁ hr₁ hne with ⟨R₁, hR₁, hq₁⟩ | ⟨hnone, hfree⟩
  · by_cases hr : r₁ = r
    · subst hr
      obtain rfl := Option.some.inj (hR.symm.trans hR₁)
      exact .inl ⟨R', by rw [hput]; exact AList.lookup_insert _, hq ▸ hq₁⟩
    · exact .inl ⟨R₁, by rw [hput]; exact (AList.lookup_insert_ne hr).trans hR₁, hq₁⟩
  · have hne₁ : r₁ ≠ r := by
      rintro rfl
      rw [hR] at hnone
      cases hnone
    refine .inr ⟨by rw [hput]; exact (AList.lookup_insert_ne hne₁).trans hnone, fun r₂ R₂ hR₂ => ?_⟩
    rw [hput] at hR₂
    by_cases hr : r₂ = r
    · subst hr
      obtain rfl := Option.some.inj ((AList.lookup_insert _).symm.trans hR₂)
      rw [hq]
      exact hfree r₂ R hR
    · exact hfree r₂ R₂ ((AList.lookup_insert_ne hr).symm.trans hR₂)

/-- The text of a reply that has stopped is not needed any more. -/
theorem release_view {r : Ident} {R : Reply} (h : PlaybackView p fed)
    (hR : p.replies.lookup r = some R) (hstopped : R.stopped = true) :
    PlaybackView (p.releaseText r) fed ∧ Extends p (p.releaseText r) := by
  have hreleased : p.releaseText r = p.putReply r
      { R with text := [], sentences := R.sentences.map fun s => (s.1, { s.2 with text := [] }) } := by
    simp [PlaybackEvidence.releaseText, hR]
  rw [hreleased]
  refine ⟨?_, extends_put hR rfl ⟨rfl, id, id⟩⟩
  have hput : PlaybackView (p.putReply r { R with
      text := [], sentences := R.sentences.map fun s => (s.1, { s.2 with text := [] }) }) (fed ++ []) := by
    refine h.put [] hR rfl rfl (by simp) (fun hopen => ?_) .inl
    change R.stopped = false at hopen
    rw [hstopped] at hopen
    cases hopen
  rwa [List.append_nil] at hput

/-! ### Client frames -/

/-- What a frame does to a reply that has not stopped. -/
structure Reported (f : CheckedFrame) (R R' : Reply) : Prop where
  question : R'.questionId = R.questionId
  text : R'.text = R.text
  audio : R'.ttsFinished = R.ttsFinished
  finished : R'.textFinished = R.textFinished
  stays : R.stopped = true → R'.stopped = true
  completed : R'.completed = true → R.completed = true ∨
    f.kind = .replyPlaybackCompleted ∧ R.ttsFinished = true ∧ R.textFinished = true

theorem reply_reported {f : CheckedFrame} {R R' : Reply} (h : R.client f = .ok (some R')) :
    Reported f R R' := by
  unfold Reply.client at h
  split at h
  · split_ifs at h
    · cases h
    · obtain rfl := Option.some.inj (Except.ok.inj h)
      exact ⟨rfl, rfl, rfl, rfl, id, .inl⟩
  · split at h
    · cases h
    · obtain rfl := Option.some.inj (Except.ok.inj h)
      exact ⟨rfl, rfl, rfl, rfl, id, .inl⟩
  · split at h
    · cases h
    · obtain rfl := Option.some.inj (Except.ok.inj h)
      exact ⟨rfl, rfl, rfl, rfl, fun _ => rfl, .inl⟩
  · split at h
    · cases h
    · obtain rfl := Option.some.inj (Except.ok.inj h)
      exact ⟨rfl, rfl, rfl, rfl, id, .inl⟩
  · next hkind =>
    split_ifs at h with hready
    obtain rfl := Option.some.inj (Except.ok.inj h)
    simp only [Bool.not_eq_true', not_or, Bool.not_eq_false] at hready
    exact ⟨rfl, rfl, rfl, rfl, fun _ => by simp [Reply.stopped],
      fun _ => .inr ⟨hkind, hready.1, hready.2.1⟩⟩

/-- A frame has no result, or it reports about a reply that has not stopped. -/
theorem client_cases (p : PlaybackEvidence) (f : ClientFrame) (c : PlaybackCapabilities) :
    ((p.client f c).1.replies = p.replies ∧ (p.client f c).2.toOption.join = none) ∨
      ∃ frame R R', p.checked f = some frame ∧ p.replies.lookup frame.reply = some R ∧
        R.stopped = false ∧ Reported frame R R' ∧
        (p.client f c).1.replies = p.replies.insert frame.reply R' ∧
        (p.client f c).2.toOption.join = some (frame.reply, R'.snapshot c) := by
  unfold PlaybackEvidence.client
  split
  · exact .inl ⟨rfl, rfl⟩
  · next frame hchecked =>
    split_ifs
    · exact .inl ⟨rfl, rfl⟩
    split
    · exact .inl ⟨rfl, rfl⟩
    · next R hR =>
      by_cases hstopped : R.stopped = true
      · rw [if_pos hstopped]
        exact .inl ⟨rfl, rfl⟩
      rw [if_neg hstopped]
      split
      · exact .inl ⟨rfl, rfl⟩
      · exact .inl ⟨rfl, rfl⟩
      · next R' hclient =>
        exact .inr ⟨frame, R, R', hchecked, hR, by simpa using hstopped, reply_reported hclient, rfl,
          rfl⟩

theorem snapshot_matches (R : Reply) (c : PlaybackCapabilities) :
    mismatched (R.snapshot c) = false ∧ (R.snapshot c).completed = R.completed ∧
      (R.completed = true → (R.snapshot c).text = R.text) ∧
      (((R.snapshot c).completed || (R.snapshot c).interrupted) = true → R.stopped = true) := by
  unfold Reply.snapshot
  dsimp only
  split_ifs with hcompleted <;> simp [mismatched, hcompleted, Reply.stopped]

end CompanionBackend.PlaybackViews
