import CompanionBackend.PlaybackService
import CompanionBackend.TurnOrder
import CompanionBackend.TurnPrivacy

/-!
# What the turn service has made of the events it has handled

The draft of a question carries the text of its reply out of the events that have
been handled, and it is closed by a result of that reply alone. A result is accepted
when the events it is made of have been handled.
-/
namespace CompanionBackend.TurnViews

open ProviderEvents PlaybackService TurnRecords TurnService TurnOrder

/-! ### The text of a reply -/

def eventText (e : ProviderEvent) : Text :=
  match e.payload with
  | .text text => text
  | _ => []

/-- A piece of text of the reply. -/
def isChat (reply : Ident) (e : ProviderEvent) : Bool :=
  e.kind = .chatText && e.replyId = some reply && reply ≠ []

theorem isChat_iff {reply : Ident} {e : ProviderEvent} :
    isChat reply e = true ↔ e.kind = .chatText ∧ e.replyId = some reply ∧ reply ≠ [] := by
  simp [isChat, and_assoc]

/-- The text of a reply in a list of events. -/
def textOf (log : List ProviderEvent) (reply : Ident) : Text :=
  (log.filter (isChat reply)).flatMap eventText

/-! ### The drafts of the turn service -/

theorem draft_putDraft_ne {s : VoiceTurnService} {q : Ident} {d : TurnDraft}
    (hq : q ≠ d.questionId) : (s.putDraft d).draft q = s.draft q := by
  unfold VoiceTurnService.draft VoiceTurnService.putDraft
  rw [List.find?_map]
  have hsame : ((fun x : TurnDraft => decide (x.questionId = q)) ∘
      fun x => if x.questionId = d.questionId then d else x) =
        fun x => decide (x.questionId = q) := by
    funext x
    by_cases hx : x.questionId = d.questionId
    · simp [hx, hq.symm]
    · simp [hx]
  rw [hsame]
  cases hfound : s.drafts.find? fun x => decide (x.questionId = q) with
  | none => rfl
  | some x =>
    have hx : x.questionId = q := by simpa using List.find?_some hfound
    simp [hx, hq]

theorem draft_dropDraft {s : VoiceTurnService} {q q' : Ident} {d : TurnDraft}
    (h : (s.dropDraft q).draft q' = some d) : s.draft q' = some d ∧ q' ≠ q := by
  have hq := draft_question h
  unfold VoiceTurnService.draft VoiceTurnService.dropDraft at h
  rw [List.find?_filter] at h
  have hne : q' ≠ q := by
    have hfound := List.find?_some h
    simp only [decide_eq_true_eq] at hfound
    exact hq ▸ hfound.1
  refine ⟨?_, hne⟩
  rw [← h]
  unfold VoiceTurnService.draft
  congr 1
  funext x
  by_cases hx : x.questionId = q'
  · simp [hx, hne]
  · simp [hx]

/-- What the turn service has made of the events it has handled, which are those of `K` and whose
texts are `text`. -/
structure TurnView (p : PlaybackEvidence) (K : ProviderEvent → Prop) (text : Ident → Text)
    (s : VoiceTurnService) : Prop where
  known : ∀ e, K e → recorded e.kind = true → ∀ r, e.replyId = some r → r ≠ [] →
    ∃ q d, e.questionId = some q ∧ s.draft q = some d ∧ d.replyId = some r ∧
      (d.closed = true ∨ (e.kind = .ttsFinished → d.ttsFinished = true))
  table : ∀ r q, s.question r = some q ↔ ∃ d, s.draft q = some d ∧ d.replyId = some r
  unbound : ∀ q d, s.draft q = some d → d.replyId = none → d.generated = []
  generated : ∀ q d r, s.draft q = some d → d.replyId = some r → d.closed = false →
    d.assistantIsolated = false → d.generated = text r
  closed : ∀ q d, s.draft q = some d → d.closed = true →
    ∃ r R, d.replyId = some r ∧ p.replies.lookup r = some R ∧ R.questionId = q
  frozen : s.frozen = false

variable {p : PlaybackEvidence} {K K' : ProviderEvent → Prop} {text text' : Ident → Text}
  {s s' : VoiceTurnService} {d d' : TurnDraft} {e : ProviderEvent}

/-- Only drafts, the table of replies and the lock are looked at. -/
theorem TurnView.of_eq (h : TurnView p K text s) (hdraft : s'.drafts = s.drafts)
    (hreplies : s'.replies = s.replies) (hfrozen : s'.frozen = s.frozen) :
    TurnView p K text s' := by
  have hd : s'.draft = s.draft := by
    funext q
    rw [VoiceTurnService.draft, hdraft]
    rfl
  have hq : s'.question = s.question := by
    funext r
    rw [VoiceTurnService.question, hreplies]
    rfl
  obtain ⟨hknown, htable, hunbound, hgenerated, hclosed, hf⟩ := h
  exact ⟨by rwa [hd], by rwa [hd, hq], by rwa [hd], by rwa [hd], by rwa [hd], hfrozen.trans hf⟩

/-- Nothing happens to the drafts on an event. -/
theorem TurnView.next (h : TurnView p K text s)
    (hknown : ∀ e, K' e → K e ∨ (recorded e.kind = true → ∀ r, e.replyId = some r → r ≠ [] →
      ∃ q d, e.questionId = some q ∧ s.draft q = some d ∧ d.replyId = some r ∧
        (d.closed = true ∨ (e.kind = .ttsFinished → d.ttsFinished = true))))
    (htext : ∀ q d r, s.draft q = some d → d.replyId = some r → d.closed = false →
      d.assistantIsolated = false → text' r = text r) : TurnView p K' text' s := by
  refine ⟨fun e he hrecorded r hr hne => ?_, h.table, h.unbound, fun q d r hd hr hopen hshown => ?_,
    h.closed, h.frozen⟩
  · rcases hknown e he with hold | hnew
    · exact h.known e hold hrecorded r hr hne
    · exact hnew hrecorded r hr hne
  · rw [h.generated q d r hd hr hopen hshown, htext q d r hd hr hopen hshown]

/-- The draft of a question is replaced on an event. -/
theorem TurnView.put (h : TurnView p K text s) (hd : s.draft d.questionId = some d)
    (hquestion : d'.questionId = d.questionId) (hreply : d'.replyId = d.replyId)
    (hstays : d.closed = true → d'.closed = true)
    (hfinished : d.ttsFinished = true → d'.ttsFinished = true)
    (hknown : ∀ e, K' e → K e ∨ (∀ r, e.replyId = some r → r ≠ [] →
      e.questionId = some d.questionId ∧ d.replyId = some r ∧
        (d'.closed = true ∨ (e.kind = .ttsFinished → d'.ttsFinished = true))))
    (htext : ∀ r, d.replyId ≠ some r → text' r = text r)
    (hunbound : d.replyId = none → d'.generated = [])
    (hgenerated : ∀ r, d.replyId = some r → d'.closed = false → d'.assistantIsolated = false →
      d'.generated = text' r)
    (hclosed : d'.closed = true →
      ∃ r R, d.replyId = some r ∧ p.replies.lookup r = some R ∧ R.questionId = d.questionId) :
    TurnView p K' text' (s.putDraft d') := by
  have hput : (s.putDraft d').draft d.questionId = some d' := draft_putDraft hd hquestion
  have hother : ∀ q, q ≠ d.questionId → (s.putDraft d').draft q = s.draft q := fun q hq =>
    draft_putDraft_ne (by rwa [hquestion])
  have htable : ∀ r q, s.question r = some q ↔
      ∃ x, (s.putDraft d').draft q = some x ∧ x.replyId = some r := by
    intro r q
    rw [h.table r q]
    by_cases hq : q = d.questionId
    · subst hq
      rw [hput, hd]
      simp [hreply]
    · rw [hother q hq]
  constructor
  · intro e he hrecorded r hr hne
    rcases hknown e he with hold | hnew
    · obtain ⟨q, x, heq, hx, hxr, hfinal⟩ := h.known e hold hrecorded r hr hne
      by_cases hq : q = d.questionId
      · subst hq
        obtain rfl := Option.some.inj (hd.symm.trans hx)
        refine ⟨d.questionId, d', heq, hput, hreply.trans hxr, ?_⟩
        exact hfinal.imp hstays fun hkind hk => hfinished (hkind hk)
      · exact ⟨q, x, heq, (hother q hq).trans hx, hxr, hfinal⟩
    · obtain ⟨heq, hxr, hfinal⟩ := hnew r hr hne
      exact ⟨d.questionId, d', heq, hput, hreply.trans hxr, hfinal⟩
  · exact htable
  · intro q x hx hnone
    by_cases hq : q = d.questionId
    · subst hq
      obtain rfl := Option.some.inj (hput.symm.trans hx)
      exact hunbound (hreply.symm.trans hnone)
    · exact h.unbound q x ((hother q hq).symm.trans hx) hnone
  · intro q x r hx hr hopen hshown
    by_cases hq : q = d.questionId
    · subst hq
      obtain rfl := Option.some.inj (hput.symm.trans hx)
      exact hgenerated r (hreply.symm.trans hr) hopen hshown
    · have hold := (hother q hq).symm.trans hx
      rw [h.generated q x r hold hr hopen hshown, htext r]
      intro hsame
      -- A reply belongs to one question.
      have h₁ := (h.table r q).mpr ⟨x, hold, hr⟩
      have h₂ := (h.table r d.questionId).mpr ⟨d, hd, hsame⟩
      exact hq (Option.some.inj (h₁.symm.trans h₂))
  · intro q x hx hends
    by_cases hq : q = d.questionId
    · subst hq
      obtain rfl := Option.some.inj (hput.symm.trans hx)
      obtain ⟨r, R, hr, hR⟩ := hclosed hends
      exact ⟨r, R, hreply.trans hr, hR⟩
    · exact h.closed q x ((hother q hq).symm.trans hx) hends
  · exact h.frozen

/-! ### Handling an event -/

/-- A new draft has no reply. -/
theorem openDraft_view {question : Option Ident} (h : TurnView p K text s)
    (hopen : s.openDraft question = .ok (s', d)) : TurnView p K text s' := by
  unfold VoiceTurnService.openDraft at hopen
  split at hopen
  · cases hopen
  · cases hopen
  · next c cs =>
    split at hopen
    · simp only [Except.ok.injEq, Prod.mk.injEq] at hopen
      exact hopen.1 ▸ h
    · next hnone =>
      split_ifs at hopen
      simp only [Except.ok.injEq, Prod.mk.injEq] at hopen
      obtain ⟨rfl, rfl⟩ := hopen
      set s' : VoiceTurnService := { s with drafts := s.drafts ++ [.new (c :: cs)] }
      have hkept : ∀ q x, s.draft q = some x → s'.draft q = some x := by
        intro q x hx
        refine (List.find?_append).trans ?_
        rw [show s.drafts.find? (fun x => decide (x.questionId = q)) = some x from hx]
        rfl
      have hnew : ∀ q x, s'.draft q = some x → s.draft q = some x ∨ x = .new (c :: cs) := by
        intro q x hx
        rcases Option.or_eq_some_iff.mp ((List.find?_append).symm.trans hx) with hx | ⟨-, hx⟩
        · exact .inl hx
        · exact .inr (List.mem_singleton.mp (List.mem_of_find?_eq_some hx))
      refine ⟨fun e he hrecorded r hr hne => ?_, fun r q => ⟨fun hr => ?_, fun hx => ?_⟩,
        fun q x hx hnone' => ?_, fun q x r hx hr => ?_, fun q x hx hends => ?_, h.frozen⟩
      · obtain ⟨q, x, heq, hx, hrest⟩ := h.known e he hrecorded r hr hne
        exact ⟨q, x, heq, hkept q x hx, hrest⟩
      · obtain ⟨x, hx, hxr⟩ := (h.table r q).mp hr
        exact ⟨x, hkept q x hx, hxr⟩
      · obtain ⟨x, hx, hxr⟩ := hx
        rcases hnew q x hx with hx | rfl
        · exact (h.table r q).mpr ⟨x, hx, hxr⟩
        · cases hxr
      · rcases hnew q x hx with hx | rfl
        · exact h.unbound q x hx hnone'
        · rfl
      · rcases hnew q x hx with hx | rfl
        · exact h.generated q x r hx hr
        · cases hr
      · rcases hnew q x hx with hx | rfl
        · exact h.closed q x hx hends
        · cases hends

/-- The service with a reply bound to a draft that had none. -/
theorem bound_view {r : Ident} (h : TurnView p K text s) (hd : s.draft d.questionId = some d)
    (hnone : d.replyId = none) (hfree : s.question r = none) (hquiet : text r = [])
    (hopen : d.closed = false) (hput : s'.drafts = (s.putDraft { d with replyId := some r }).drafts)
    (hreplies : s'.replies = s.replies ++ [(r, d.questionId)]) (hfrozen : s'.frozen = s.frozen) :
    TurnView p K text s' := by
  have hdraft : s'.draft = (s.putDraft { d with replyId := some r }).draft := by
    funext q
    rw [VoiceTurnService.draft, hput]
    rfl
  have hsame : s'.draft d.questionId = some { d with replyId := some r } := by
    rw [hdraft]
    exact draft_putDraft hd rfl
  have hother : ∀ q, q ≠ d.questionId → s'.draft q = s.draft q := by
    intro q hq
    rw [hdraft]
    exact draft_putDraft_ne hq
  have hquestion : ∀ r', s'.question r' =
      (s.question r').or (if r' = r then some d.questionId else none) := by
    intro r'
    rw [VoiceTurnService.question, hreplies, List.lookup_append]
    congr 1
    by_cases hr : r' = r
    · simp [hr]
    · rw [if_neg hr, List.lookup_eq_none_iff]
      simpa using hr
  refine ⟨fun e he hrecorded r' hr' hne => ?_, fun r' q => ?_, fun q x hx hxr => ?_,
    fun q x r' hx hr' hxopen hshown => ?_, fun q x hx hends => ?_, hfrozen.trans h.frozen⟩
  · obtain ⟨q, x, heq, hx, hxr, hfinal⟩ := h.known e he hrecorded r' hr' hne
    have hq : q ≠ d.questionId := by
      rintro rfl
      obtain rfl := Option.some.inj (hd.symm.trans hx)
      rw [hnone] at hxr
      cases hxr
    exact ⟨q, x, heq, (hother q hq).trans hx, hxr, hfinal⟩
  · rw [hquestion]
    by_cases hr : r' = r
    · subst hr
      rw [hfree, if_pos rfl, Option.none_or]
      constructor
      · rintro hq
        obtain rfl := Option.some.inj hq
        exact ⟨_, hsame, rfl⟩
      · rintro ⟨x, hx, hxr⟩
        by_cases hq : q = d.questionId
        · rw [hq]
        · have := (h.table r' q).mpr ⟨x, (hother q hq).symm.trans hx, hxr⟩
          rw [hfree] at this
          cases this
    · rw [if_neg hr, Option.or_none, h.table]
      by_cases hq : q = d.questionId
      · subst hq
        rw [hsame, hd]
        simp [hnone, Ne.symm hr]
      · rw [hother q hq]
  · by_cases hq : q = d.questionId
    · subst hq
      obtain rfl := Option.some.inj (hsame.symm.trans hx)
      cases hxr
    · exact h.unbound q x ((hother q hq).symm.trans hx) hxr
  · by_cases hq : q = d.questionId
    · subst hq
      obtain rfl := Option.some.inj (hsame.symm.trans hx)
      obtain rfl := Option.some.inj hr'
      rw [hquiet]
      exact h.unbound d.questionId d hd hnone
    · exact h.generated q x r' ((hother q hq).symm.trans hx) hr' hxopen hshown
  · by_cases hq : q = d.questionId
    · subst hq
      obtain rfl := Option.some.inj (hsame.symm.trans hx)
      rw [hopen] at hends
      cases hends
    · exact h.closed q x ((hother q hq).symm.trans hx) hends

/-- An event's reply is bound to the open draft of its question. -/
theorem bindReply_view {reply : Option Ident} (h : TurnView p K text s)
    (hquiet : ∀ r, r ≠ [] → s.question r = none → text r = [])
    (hd : s.draft d.questionId = some d) (hopen : d.closed = false)
    (hbind : s.bindReply d reply = .ok (s', d')) :
    TurnView p K text s' ∧ s'.draft d.questionId = some d' ∧ d'.questionId = d.questionId ∧
      d'.closed = false ∧ ∀ r, reply = some r → r ≠ [] → d'.replyId = some r := by
  unfold VoiceTurnService.bindReply at hbind
  split at hbind
  · simp only [Except.ok.injEq, Prod.mk.injEq] at hbind
    obtain ⟨rfl, rfl⟩ := hbind
    exact ⟨h, hd, rfl, hopen, nofun⟩
  · simp only [Except.ok.injEq, Prod.mk.injEq] at hbind
    obtain ⟨rfl, rfl⟩ := hbind
    exact ⟨h, hd, rfl, hopen, fun r hr hne => absurd (Option.some.inj hr).symm hne⟩
  · next c cs =>
    by_cases hconflict : ((s.question (c :: cs)).any (fun q => q ≠ d.questionId) ||
        d.replyId.any (fun r => r ≠ c :: cs)) = true
    · rw [if_pos hconflict] at hbind
      cases hbind
    rw [if_neg hconflict] at hbind
    simp only [Except.ok.injEq, Prod.mk.injEq] at hbind
    obtain ⟨rfl, rfl⟩ := hbind
    simp only [Bool.or_eq_true, not_or, Bool.not_eq_true] at hconflict
    obtain ⟨hplaced, hbound⟩ := hconflict
    refine ⟨?_, draft_putDraft hd rfl, rfl, hopen, fun r hr _ => hr⟩
    cases hreply : d.replyId with
    | none =>
      have hfree : s.question (c :: cs) = none := by
        cases hq : s.question (c :: cs) with
        | none => rfl
        | some q =>
          rw [hq, Option.any_some, decide_eq_false_iff_not, not_not] at hplaced
          obtain ⟨x, hx, hxr⟩ := (h.table _ q).mp hq
          rw [hplaced, hd] at hx
          obtain rfl := Option.some.inj hx
          rw [hreply] at hxr
          cases hxr
      refine bound_view h hd hreply hfree (hquiet _ (List.cons_ne_nil c cs) hfree) hopen rfl ?_ rfl
      simp [hfree]
    | some r =>
      rw [hreply, Option.any_some, decide_eq_false_iff_not, not_not] at hbound
      subst hbound
      have hknown := (h.table _ _).mpr ⟨d, hd, hreply⟩
      have hsame : { d with replyId := some (c :: cs) } = d := by rw [← hreply]
      rw [hsame, hknown]
      refine (h.put hd rfl rfl id id (fun _ => .inl)
        (fun _ _ => rfl) (h.unbound _ _ hd) (fun r' hr' => h.generated _ _ _ hd hr')
        (h.closed _ _ hd)).of_eq rfl ?_ rfl
      simp [VoiceTurnService.putDraft]

/-- A draft without a reply may go. -/
theorem filterDraft_view (question : Option Ident) (h : TurnView p K text s) :
    TurnView p K text (s.filterDraft question) := by
  unfold VoiceTurnService.filterDraft
  split
  · exact h
  · next d hfound =>
    obtain ⟨q, rfl, hd⟩ := Option.bind_eq_some_iff.mp hfound
    have hq := draft_question hd
    split_ifs with hempty
    · simp only [Bool.and_eq_true, Option.isNone_iff_eq_none] at hempty
      have hnone := hempty.2
      have hkept : ∀ q' x, s.draft q' = some x → q' ≠ d.questionId →
          (s.dropDraft d.questionId).draft q' = some x := by
        intro q' x hx hne
        rw [← hx]
        unfold VoiceTurnService.draft VoiceTurnService.dropDraft
        rw [List.find?_filter]
        congr 1
        funext y
        by_cases hy : y.questionId = q' <;> simp [hy, hne]
      have hbound : ∀ q' x r, s.draft q' = some x → x.replyId = some r → q' ≠ d.questionId := by
        rintro q' x r hx hr rfl
        rw [hq, hd] at hx
        obtain rfl := Option.some.inj hx
        rw [hnone] at hr
        cases hr
      refine ⟨fun e he hrecorded r hr hne => ?_, fun r q' => ?_, fun q' x hx => ?_,
        fun q' x r hx => ?_, fun q' x hx => ?_, h.frozen⟩
      · obtain ⟨q', x, heq, hx, hxr, hfinal⟩ := h.known e he hrecorded r hr hne
        exact ⟨q', x, heq, hkept q' x hx (hbound q' x r hx hxr), hxr, hfinal⟩
      · refine (h.table r q').trans ⟨?_, ?_⟩
        · rintro ⟨x, hx, hxr⟩
          exact ⟨x, hkept q' x hx (hbound q' x r hx hxr), hxr⟩
        · rintro ⟨x, hx, hxr⟩
          exact ⟨x, (draft_dropDraft hx).1, hxr⟩
      · exact h.unbound q' x (draft_dropDraft hx).1
      · exact h.generated q' x r (draft_dropDraft hx).1
      · exact h.closed q' x (draft_dropDraft hx).1
    · exact h

/-- An event that comes next: with it the events are those of `K'` and the texts are `text'`. Its
reply is in the playback evidence, or the playback evidence has no reply to its question. -/
structure NextEvent (p : PlaybackEvidence) (K K' : ProviderEvent → Prop) (text text' : Ident → Text)
    (e : ProviderEvent) : Prop where
  grows : ∀ e', K' e' → K e' ∨ e' = e
  adds : ∀ r, text' r = if isChat r e then text r ++ eventText e else text r
  placed : ∀ r, e.replyId = some r → r ≠ [] →
    (∃ R, p.replies.lookup r = some R ∧ e.questionId = some R.questionId) ∨
      ∀ r' R, p.replies.lookup r' = some R → some R.questionId ≠ e.questionId
  quiet : ∀ r, r ≠ [] → text r ≠ [] → ∃ e', K e' ∧ recorded e'.kind = true ∧ e'.replyId = some r

/-- A draft that takes part in an event. -/
structure Takes (s : VoiceTurnService) (d : TurnDraft) (e : ProviderEvent) : Prop where
  found : s.draft d.questionId = some d
  opened : d.closed = false
  question : e.questionId = some d.questionId
  reply : ∀ r, e.replyId = some r → r ≠ [] → d.replyId = some r

/-- The event leaves the draft as it is. -/
theorem Takes.kept (ht : Takes s d e) (hnext : NextEvent p K K' text text' e)
    (h : TurnView p K text s)
    (hhidden : ∀ r, isChat r e = true → d.assistantIsolated = true)
    (hfinished : e.kind = .ttsFinished → d.ttsFinished = true) : TurnView p K' text' s := by
  refine h.next (fun e' he' => ?_) fun q x r hx hr _ hshown => ?_
  · rcases hnext.grows e' he' with hold | rfl
    · exact .inl hold
    · exact .inr fun _ r hr hne =>
        ⟨d.questionId, d, ht.question, ht.found, ht.reply r hr hne, .inr hfinished⟩
  · rw [hnext.adds r]
    split_ifs with hchat
    · obtain ⟨-, hreply, hne⟩ := isChat_iff.mp hchat
      have hown := ht.reply r hreply hne
      have hq := ((h.table r q).mpr ⟨x, hx, hr⟩).symm.trans
        ((h.table r d.questionId).mpr ⟨d, ht.found, hown⟩)
      obtain rfl := Option.some.inj hq
      obtain rfl := Option.some.inj (hx.symm.trans ht.found)
      rw [hhidden r hchat] at hshown
      cases hshown
    · rfl

/-- The event changes the draft. -/
theorem Takes.changed (ht : Takes s d e) (hnext : NextEvent p K K' text text' e)
    (h : TurnView p K text s) (hquestion : d'.questionId = d.questionId)
    (hreply : d'.replyId = d.replyId) (hopen : d'.closed = false)
    (hstays : d.ttsFinished = true → d'.ttsFinished = true)
    (hfinished : e.kind = .ttsFinished → d'.ttsFinished = true)
    (hunbound : d.replyId = none → d'.generated = [])
    (hgenerated : ∀ r, d.replyId = some r → d'.assistantIsolated = false →
      d'.generated = text' r) : TurnView p K' text' (s.putDraft d') := by
  refine h.put ht.found hquestion hreply (fun hc => ?_) hstays (fun e' he' => ?_) (fun r hr => ?_)
    hunbound (fun r hr _ => hgenerated r hr) fun hc => ?_
  · rw [ht.opened] at hc
    cases hc
  · rcases hnext.grows e' he' with hold | rfl
    · exact .inl hold
    · exact .inr fun r hr hne => ⟨ht.question, ht.reply r hr hne, .inr hfinished⟩
  · rw [hnext.adds r]
    split_ifs with hc
    · obtain ⟨-, hreply, hne⟩ := isChat_iff.mp hc
      exact absurd (ht.reply r hreply hne) hr
    · rfl
  · rw [hopen] at hc
    cases hc

theorem isChat_kind {r : Ident} {kind : EventKind} (hkind : e.kind = kind) (hne : kind ≠ .chatText) :
    isChat r e = false := by
  simp [isChat, hkind, hne]

theorem text_same {r : Ident} (hnext : NextEvent p K K' text text' e) (hr : isChat r e = false) :
    text' r = text r := by
  rw [hnext.adds r, hr]
  rfl

theorem chatText_view {s : TurnState} (ht : Takes s.service d e)
    (hnext : NextEvent p K K' text text' e) (h : TurnView p K text s.service)
    (hkind : e.kind = .chatText) :
    ((chatText s d e).2 = none → TurnView p K' text' (chatText s d e).1.service) ∧
      ((chatText s d e).2 ≠ none → TurnView p K text (chatText s d e).1.service) := by
  unfold chatText
  split
  · next c cs t hreply hpayload =>
    have hfinished : ∀ {b : Bool}, e.kind = .ttsFinished → b = true := by
      rw [hkind]
      exact nofun
    have hown := ht.reply _ hreply (List.cons_ne_nil c cs)
    split_ifs with hlong hisolated
    · exact ⟨nofun, fun _ => h⟩
    · exact ⟨fun _ => ht.kept hnext h (fun _ _ => hisolated) hfinished, nofun⟩
    · refine ⟨fun _ => ht.changed hnext h rfl rfl ht.opened id hfinished (fun hnone => ?_)
        fun r hr hshown => ?_, nofun⟩
      · rw [hown] at hnone
        cases hnone
      · obtain rfl := Option.some.inj (hown.symm.trans hr)
        have hpiece : isChat (c :: cs) e = true := by simp [isChat, hkind, hreply]
        have htext : eventText e = t := by simp [eventText, hpayload]
        rw [hnext.adds, if_pos hpiece, htext,
          h.generated _ d _ ht.found hown ht.opened hshown]
  · exact ⟨nofun, fun _ => h⟩

theorem asrFinal_view {s : TurnState} (ht : Takes s.service d e)
    (hnext : NextEvent p K K' text text' e) (h : TurnView p K text s.service)
    (hkind : e.kind = .asrFinal) (a : EventAnswers) (cancelled : Bool) :
    ((asrFinal s d e a cancelled).2 = none →
        TurnView p K' text' (asrFinal s d e a cancelled).1.service) ∧
      ((asrFinal s d e a cancelled).2 ≠ none →
        TurnView p K text (asrFinal s d e a cancelled).1.service) := by
  have hquiet : ∀ r, isChat r e = false := fun r => isChat_kind hkind (by simp)
  have hfinished : ∀ {b : Bool}, e.kind = .ttsFinished → b = true := by
    rw [hkind]
    exact nofun
  unfold asrFinal
  by_cases hseen : d.finalSeen = true
  · rw [if_pos hseen]
    exact ⟨fun _ => ht.kept hnext h (by simp [hquiet]) hfinished, nofun⟩
  rw [if_neg hseen]
  split
  · next t _ =>
    split_ifs with hlong hcancelled
    · exact ⟨nofun, fun _ => h⟩
    · exact ⟨nofun, fun _ => h⟩
    · refine ⟨fun _ => ht.changed hnext h rfl rfl ht.opened id hfinished
        (h.unbound _ _ ht.found) fun r hr hshown => ?_, nofun⟩
      rw [text_same hnext (hquiet r)]
      exact h.generated _ d r ht.found hr ht.opened hshown
  · exact ⟨nofun, fun _ => h⟩

theorem recordEvent_view {s : TurnState} (ht : Takes s.service d e)
    (hnext : NextEvent p K K' text text' e) (h : TurnView p K text s.service) (a : EventAnswers)
    (cancelled : Bool) :
    ((recordEvent s d e a cancelled).2 = none →
        TurnView p K' text' (recordEvent s d e a cancelled).1.service) ∧
      ((recordEvent s d e a cancelled).2 ≠ none →
        TurnView p K text (recordEvent s d e a cancelled).1.service) := by
  unfold recordEvent
  split
  · next hkind => exact asrFinal_view ht hnext h hkind a cancelled
  · next hkind => exact chatText_view ht hnext h hkind
  · next hkind =>
    have hquiet : ∀ r, isChat r e = false := fun r => isChat_kind hkind (by simp)
    refine ⟨fun _ => ht.changed hnext h rfl rfl ht.opened (fun _ => rfl) (fun _ => rfl)
      (h.unbound _ _ ht.found) fun r hr hshown => ?_, nofun⟩
    rw [text_same hnext (hquiet r)]
    exact h.generated _ d r ht.found hr ht.opened hshown
  · next hkind =>
    have hquiet : ∀ r, isChat r e = false := fun r => isChat_kind hkind (by simp)
    refine ⟨fun _ => ht.changed hnext h rfl rfl ht.opened id (fun hk => ?_)
      (h.unbound _ _ ht.found) fun r hr hshown => ?_, nofun⟩
    · rw [hkind] at hk
      cases hk
    · rw [text_same hnext (hquiet r)]
      exact h.generated _ d r ht.found hr ht.opened hshown
  · next _ hchat htts _ =>
    refine ⟨fun _ => ht.kept hnext h (fun r hr => ?_) fun hk => absurd hk htts, nofun⟩
    exact absurd (isChat_iff.mp hr).1 hchat

/-- No two replies of the playback evidence answer one question. -/
def Distinct (p : PlaybackEvidence) : Prop :=
  ∀ r r' R R', p.replies.lookup r = some R → p.replies.lookup r' = some R' →
    R.questionId = R'.questionId → r = r'

theorem TurnView.quiet (h : TurnView p K text s) (hnext : NextEvent p K K' text text' e) {r : Ident}
    (hne : r ≠ []) (hfree : s.question r = none) : text r = [] := by
  by_contra htext
  obtain ⟨e', he', hrecorded, hr⟩ := hnext.quiet r hne htext
  obtain ⟨q, x, -, hx, hxr, -⟩ := h.known e' he' hrecorded r hr hne
  rw [(h.table r q).mpr ⟨x, hx, hxr⟩] at hfree
  cases hfree

/-- An event that comes after its question's reply has ended. -/
theorem late_view (hdistinct : Distinct p) (hnext : NextEvent p K K' text text' e)
    (h : TurnView p K text s) (hd : s.draft d.questionId = some d) (hclosed : d.closed = true)
    (hquestion : e.questionId = some d.questionId) : TurnView p K' text' s := by
  have hown : ∀ r, e.replyId = some r → r ≠ [] → d.replyId = some r := by
    intro r hr hne
    obtain ⟨r', R, hr', hR, hRq⟩ := h.closed _ d hd hclosed
    rcases hnext.placed r hr hne with ⟨R', hR', hq⟩ | hnone
    · rw [hquestion, Option.some.injEq] at hq
      rw [hdistinct r r' R' R hR' hR (hq.symm.trans hRq.symm)]
      exact hr'
    · exact absurd (congrArg some hRq) (hquestion ▸ hnone r' R hR)
  refine h.next (fun e' he' => ?_) fun q x r hx hr hopen _ => ?_
  · rcases hnext.grows e' he' with hold | rfl
    · exact .inl hold
    · exact .inr fun _ r hr hne => ⟨d.questionId, d, hquestion, hd, hown r hr hne, .inl hclosed⟩
  · rw [hnext.adds r]
    split_ifs with hchat
    · obtain ⟨-, hreply, hne⟩ := isChat_iff.mp hchat
      have hq := ((h.table r q).mpr ⟨x, hx, hr⟩).symm.trans
        ((h.table r d.questionId).mpr ⟨d, hd, hown r hreply hne⟩)
      obtain rfl := Option.some.inj hq
      obtain rfl := Option.some.inj (hx.symm.trans hd)
      rw [hclosed] at hopen
      cases hopen
    · rfl

theorem handleQuestion_view {s : TurnState} (hdistinct : Distinct p)
    (hnext : NextEvent p K K' text text' e) (h : TurnView p K text s.service) (a : EventAnswers)
    (cancelled : Bool) :
    ((handleQuestion a cancelled s e).2 = none →
        TurnView p K' text' (handleQuestion a cancelled s e).1.service) ∧
      ((handleQuestion a cancelled s e).2 ≠ none →
        TurnView p K text (handleQuestion a cancelled s e).1.service) := by
  unfold handleQuestion
  split
  · exact ⟨nofun, fun _ => h⟩
  · next service d hopened =>
    have hservice := openDraft_view h hopened
    obtain ⟨⟨c, cs, hquestion, hd⟩, hfound, -, -⟩ := openDraft_opened hopened
    have hquestion : e.questionId = some d.questionId := hd ▸ hquestion
    by_cases hclosed : d.closed = true
    · rw [if_pos hclosed]
      exact ⟨fun _ => late_view hdistinct hnext hservice hfound hclosed hquestion, nofun⟩
    rw [if_neg hclosed]
    split
    · exact ⟨nofun, fun _ => hservice⟩
    · next service' d' hbind =>
      obtain ⟨hview, hfound', hq', hopen', hreply⟩ := bindReply_view hservice
        (fun r => hservice.quiet hnext) hfound (by simpa using hclosed) hbind
      have ht : Takes service' d' e := ⟨hq' ▸ hfound', hopen', hq' ▸ hquestion, hreply⟩
      exact recordEvent_view (s := { s with service := service' }) ht hnext hview a cancelled

/-- What the turn service makes of the next event. -/
theorem handle_view {s : TurnState} (hdistinct : Distinct p)
    (hnext : NextEvent p K K' text text' e) (h : TurnView p K text s.service) (a : EventAnswers)
    (cancelled : Bool) :
    ((handle a cancelled s e).2 = none →
        TurnView p K' text' (handle a cancelled s e).1.service) ∧
      ((handle a cancelled s e).2 ≠ none →
        TurnView p K text (handle a cancelled s e).1.service) := by
  have hunseen : ∀ {s : VoiceTurnService}, TurnView p K text s → recorded e.kind = false →
      TurnView p K' text' s := by
    intro s hs hrecorded
    refine hs.next (fun e' he' => ?_) fun q x r _ _ _ _ => ?_
    · rcases hnext.grows e' he' with hold | rfl
      · exact .inl hold
      · rw [hrecorded]
        exact .inr nofun
    · refine text_same hnext ?_
      by_contra hchat
      rw [(isChat_iff.mp (by simpa using hchat)).1] at hrecorded
      cases hrecorded
  unfold handle
  by_cases hfiltered : e.kind = .backchannelFiltered
  · rw [if_pos hfiltered]
    exact ⟨fun _ => hunseen (filterDraft_view _ h) (by rw [hfiltered]; rfl), nofun⟩
  rw [if_neg hfiltered]
  by_cases hrecorded : recorded e.kind = true
  · rw [if_neg (by simpa using hrecorded)]
    by_cases hmisplaced : s.service.misplaced e = true
    · rw [if_pos hmisplaced]
      exact ⟨nofun, fun _ => h⟩
    · rw [if_neg hmisplaced]
      exact handleQuestion_view hdistinct hnext h a cancelled
  · rw [if_pos (by simpa using hrecorded)]
    exact ⟨fun _ => hunseen h (by simpa using hrecorded), nofun⟩

/-! ### Applying a result -/

theorem store_draft (row : VoiceCallTurn) (draft : TurnDraft) (dir : Direction) (text : Text)
    (g : GateDecision) (permits : Bool) :
    (store row draft dir text g permits).1 = draft ∨
      (store row draft dir text g permits).1 = draft.isolate := by
  cases dir <;> simp only [store] <;> split_ifs <;> simp

/-- A result leaves its draft or isolates it. -/
theorem stageEffective_draft (hasJobs : Bool) (db : TurnDb) (d : TurnDraft) (result : EffectiveText)
    (g : GateAnswers) (job : JobAnswer) :
    (stageEffective hasJobs db d result g job).1 = d ∨
      (stageEffective hasJobs db d result g job).1 = d.isolate := by
  unfold stageEffective
  split
  · exact .inl rfl
  · next w hwritten =>
    have hdraft : w.draft = d ∨ w.draft = d.isolate := by
      obtain ⟨db₁, row, -, ⟨-, rfl⟩ | ⟨-, -, g', hstore⟩⟩ := TurnPrivacy.writeText_cases hwritten
      · exact .inl rfl
      · have hleft := store_draft (row.assessed .assistant g' g.isolated) d .assistant result.text g'
          g.permitsGenerated
        rwa [hstore] at hleft
    split_ifs <;> exact hdraft

theorem replyDraft_eq_ok {reply : Ident} (h : s.replyDraft reply = .ok d) :
    s.question reply = some d.questionId ∧ s.draft d.questionId = some d := by
  unfold VoiceTurnService.replyDraft at h
  split at h
  · cases h
  · next q hq =>
    split at h
    · cases h
    · next x hx =>
      obtain rfl := Except.ok.inj h
      rw [draft_question hx]
      exact ⟨hq, hx⟩

/-- A result is applied to the draft of a reply the playback evidence has. -/
theorem applyEffective_view {s : TurnState} {reply : Ident} (h : TurnView p K text s.service)
    (hshown : ∀ q, s.service.question reply = some q →
      ∃ R, p.replies.lookup reply = some R ∧ R.questionId = q)
    (result : EffectiveText) (a : ApplyAnswers) (cancelled : Bool) :
    TurnView p K text (applyEffective s reply result a cancelled).1.service := by
  unfold applyEffective
  by_cases hmatch : mismatched result = true
  · rw [if_pos hmatch]
    exact h
  rw [if_neg hmatch, if_neg (by rw [h.frozen]; exact Bool.false_ne_true)]
  split
  · exact h
  · next d hreply =>
    obtain ⟨hquestion, hd⟩ := replyDraft_eq_ok hreply
    obtain ⟨x, hx, hxr⟩ := (h.table _ _).mp hquestion
    obtain rfl := Option.some.inj (hx.symm.trans hd)
    have hput : ∀ d', (d' = x ∨ d' = x.isolate) → ∀ failed,
        TurnView p K text (s.service.putDraft (afterEffective d' result failed)) ∧
          TurnView p K text (s.service.putDraft d') := by
      intro d' hd' failed
      have hsame : d'.questionId = x.questionId ∧ d'.replyId = x.replyId ∧ d'.closed = x.closed ∧
          d'.ttsFinished = x.ttsFinished ∧
          (d'.assistantIsolated = false → d'.generated = x.generated ∧ x.assistantIsolated = false) := by
        rcases hd' with rfl | rfl
        · exact ⟨rfl, rfl, rfl, rfl, fun hs => ⟨rfl, hs⟩⟩
        · exact ⟨rfl, rfl, rfl, rfl, nofun⟩
      obtain ⟨hq, hr, hc, ht, hg⟩ := hsame
      have hgenerated : ∀ r, x.replyId = some r → d'.closed = false →
          d'.assistantIsolated = false → d'.generated = text r := by
        intro r hr' hopen hs
        obtain ⟨hgen, hs'⟩ := hg hs
        rw [hgen]
        exact h.generated _ x r hd hr' (hc ▸ hopen) hs'
      have hunbound : ∀ {t : Text}, x.replyId = none → t = [] := by
        rw [hxr]
        exact nofun
      refine ⟨?_, h.put hd hq hr (fun hx => hc.trans hx) (fun hx => ht.trans hx) (fun _ => .inl)
        (fun _ _ => rfl) hunbound hgenerated fun hx => h.closed _ x hd (hc.symm.trans hx)⟩
      unfold afterEffective
      split_ifs
      · exact h.put hd hq hr (fun _ => rfl) (fun hx => ht.trans hx) (fun _ => .inl) (fun _ _ => rfl)
          hunbound nofun fun _ => (hshown _ hquestion).elim fun R hR => ⟨reply, R, hxr, hR⟩
      · exact h.put hd hq hr (fun hx => hc.trans hx) (fun hx => ht.trans hx) (fun _ => .inl)
          (fun _ _ => rfl) hunbound hgenerated fun hx => h.closed _ x hd (hc.symm.trans hx)
    by_cases hclosed : x.closed = true
    · rw [if_pos hclosed]
      exact h
    rw [if_neg hclosed]
    split
    · exact h
    · have hstaged := stageEffective_draft s.service.hasJobs s.db x result a.gate a.job
      dsimp only
      split_ifs
      · exact (hput _ hstaged false).2.of_eq rfl rfl rfl
      · exact (hput _ hstaged _).1.of_eq rfl rfl rfl

/-- What a result that is accepted needs. -/
theorem applyEffective_accepts {s : TurnState} {reply q : Ident} {result : EffectiveText}
    (h : TurnView p K text s.service) (hd : s.service.draft q = some d)
    (hreply : d.replyId = some reply) (hmatch : mismatched result = false)
    (hfinished : result.completed = true → d.closed = true ∨ d.ttsFinished = true)
    (htext : result.evidence = .full → result.text = text reply)
    (a : ApplyAnswers) (cancelled : Bool) {err : TurnError}
    (herr : (applyEffective s reply result a cancelled).2 = .error err) :
    cancelled = true ∧ err = .cancelled := by
  have hdraft : s.service.replyDraft reply = .ok d := by
    simp [VoiceTurnService.replyDraft, (h.table reply q).mpr ⟨d, hd, hreply⟩, hd]
  simp only [applyEffective, hmatch, h.frozen, hdraft, Bool.false_eq_true, if_false] at herr
  by_cases hclosed : d.closed = true
  · rw [if_pos hclosed] at herr
    cases herr
  rw [if_neg hclosed] at herr
  have haccepted : refused d result = none := by
    have hopen : d.closed = false := by simpa using hclosed
    unfold refused
    rw [if_neg, if_neg]
    · simp only [Bool.and_eq_true, decide_eq_true_eq, Bool.not_eq_true', not_and, not_not]
      rintro ⟨hfull, hshown⟩
      rw [htext hfull, h.generated q d reply hd hreply hopen hshown]
    · simp only [Bool.and_eq_true, Bool.not_eq_true', not_and, Bool.not_eq_false]
      exact fun hcompleted => (hfinished hcompleted).resolve_left hclosed
  rw [haccepted] at herr
  dsimp only at herr
  split_ifs at herr with hcancelled
  · exact ⟨hcancelled, (Except.error.inj herr).symm⟩

end CompanionBackend.TurnViews
