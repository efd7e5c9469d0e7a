import CompanionBackend.TurnService

/-!
# Turn recording and the order of delivery

The drafts and rows of a session do not depend on the order in which its numbered
events reach the turn service, as long as none of them is more than the window
ahead of the gap. An event that the service rejects in its own order stops every
order at the same place.
-/
namespace CompanionBackend.TurnOrder

open ProviderEvents TurnRecords EventReordering TurnService

/-! ### Drafts -/

theorem draft_question {s : VoiceTurnService} {q : Ident} {d : TurnDraft} (h : s.draft q = some d) :
    d.questionId = q := by simpa using List.find?_some h

/-- A draft is found again after it has been replaced. -/
theorem draft_putDraft {s : VoiceTurnService} {q : Ident} {d d' : TurnDraft}
    (h : s.draft q = some d) (hd : d'.questionId = q) : (s.putDraft d').draft q = some d' := by
  subst hd
  unfold VoiceTurnService.draft VoiceTurnService.putDraft at *
  rw [List.find?_map]
  have hsame : ((fun x : TurnDraft => decide (x.questionId = d'.questionId)) ∘
      fun x => if x.questionId = d'.questionId then d' else x) =
        fun x => decide (x.questionId = d'.questionId) := by
    funext x
    by_cases hx : x.questionId = d'.questionId <;> simp [hx]
  rw [hsame, h]
  simp [draft_question h]

theorem putDraft_putDraft (s : VoiceTurnService) (d : TurnDraft) :
    (s.putDraft d).putDraft d = s.putDraft d := by
  unfold VoiceTurnService.putDraft
  congr 1
  rw [List.map_map]
  apply List.map_congr_left
  intro x _
  by_cases hx : x.questionId = d.questionId <;> simp [hx]

/-- A service with a draft of the question. -/
structure Opened (s : VoiceTurnService) (question : Option Ident) (service : VoiceTurnService)
    (d : TurnDraft) : Prop where
  named : ∃ c cs, question = some (c :: cs) ∧ d.questionId = c :: cs
  found : service.draft d.questionId = some d
  replies : service.replies = s.replies
  frozen : service.frozen = s.frozen

theorem openDraft_opened {s service : VoiceTurnService} {d : TurnDraft} {question : Option Ident}
    (h : s.openDraft question = .ok (service, d)) : Opened s question service d := by
  unfold VoiceTurnService.openDraft at h
  split at h
  · simp at h
  · simp at h
  · next c cs =>
    split at h
    · next d' hfound =>
      simp only [Except.ok.injEq, Prod.mk.injEq] at h
      obtain ⟨rfl, rfl⟩ := h
      have hq := draft_question hfound
      exact ⟨⟨c, cs, rfl, hq⟩, by rwa [hq], rfl, rfl⟩
    · next hnone =>
      split_ifs at h
      simp only [Except.ok.injEq, Prod.mk.injEq] at h
      obtain ⟨rfl, rfl⟩ := h
      refine ⟨⟨c, cs, rfl, rfl⟩, ?_, rfl, rfl⟩
      have hadded : (s.draft (c :: cs)).or (some (.new (c :: cs))) =
          some (TurnDraft.new (c :: cs)) := by rw [hnone, Option.none_or]
      refine Eq.trans ?_ hadded
      simp only [VoiceTurnService.draft, TurnDraft.new, List.find?_append]
      congr 1
      simp

theorem openDraft_found {s : VoiceTurnService} {d : TurnDraft} {c : Char} {cs : Ident}
    (h : s.draft (c :: cs) = some d) : s.openDraft (some (c :: cs)) = .ok (s, d) := by
  simp [VoiceTurnService.openDraft, h]

/-- A draft bound to the reply of the event, if it has one. -/
structure Bound (s : VoiceTurnService) (d : TurnDraft) (reply : Option Ident)
    (service : VoiceTurnService) (d' : TurnDraft) : Prop where
  question : d'.questionId = d.questionId
  closed : d'.closed = d.closed
  found : s.draft d.questionId = some d → service.draft d.questionId = some d'
  again : service.bindReply d' reply = .ok (service, d')
  replies : ∀ r q, s.question r = some q → service.question r = some q
  placed : ∀ r q, reply = some r → service.question r = some q →
    q = d.questionId ∨ s.question r = some q
  frozen : service.frozen = s.frozen

/-- The reply of the draft is in the table. -/
theorem question_register {s : VoiceTurnService} {reply : Ident} {d : TurnDraft}
    (hplaced : ¬ (s.question reply).any (fun q => q ≠ d.questionId) = true) :
    List.lookup reply (if (s.question reply).isSome then s.replies
      else s.replies ++ [(reply, d.questionId)]) = some d.questionId := by
  cases hquestion : s.question reply with
  | none =>
    simp only [Option.isSome_none, Bool.false_eq_true, if_false]
    rw [List.lookup_append, show s.replies.lookup reply = none from hquestion]
    simp [List.lookup_cons_self]
  | some q =>
    simp only [hquestion, Option.any_some, decide_eq_true_eq, not_not] at hplaced
    simp only [Option.isSome_some, if_true]
    exact hquestion.trans (congrArg some hplaced)

/-- A bound draft is left as it is. -/
theorem bindReply_again {s : VoiceTurnService} {d : TurnDraft} {c : Char} {cs : Ident}
    (hquestion : s.question (c :: cs) = some d.questionId) (hreply : d.replyId = some (c :: cs))
    (hput : s.putDraft d = s) : s.bindReply d (some (c :: cs)) = .ok (s, d) := by
  have hsame : { d with replyId := some (c :: cs) } = d := by
    rw [← hreply]
  simp only [VoiceTurnService.bindReply, hquestion, hreply, Option.any_some, ne_eq,
    not_true_eq_false, decide_false, Bool.or_self, Bool.false_eq_true, if_false,
    Option.isSome_some, if_true, hsame, hput]

theorem bindReply_bound {s service : VoiceTurnService} {d d' : TurnDraft} {reply : Option Ident}
    (h : s.bindReply d reply = .ok (service, d')) : Bound s d reply service d' := by
  unfold VoiceTurnService.bindReply at h
  split at h
  · simp only [Except.ok.injEq, Prod.mk.injEq] at h
    obtain ⟨rfl, rfl⟩ := h
    exact ⟨rfl, rfl, id, rfl, fun _ _ => id, by simp, rfl⟩
  · simp only [Except.ok.injEq, Prod.mk.injEq] at h
    obtain ⟨rfl, rfl⟩ := h
    exact ⟨rfl, rfl, id, rfl, fun _ _ => id, fun _ _ _ => .inr, rfl⟩
  · next c cs =>
    by_cases hconflict : ((s.question (c :: cs)).any (fun q => q ≠ d.questionId) ||
        d.replyId.any (fun r => r ≠ c :: cs)) = true
    · rw [if_pos hconflict] at h
      simp at h
    · rw [if_neg hconflict] at h
      simp only [Except.ok.injEq, Prod.mk.injEq] at h
      obtain ⟨rfl, rfl⟩ := h
      have hplaced : ¬ (s.question (c :: cs)).any (fun q => q ≠ d.questionId) = true := by
        intro hany
        exact hconflict (by rw [hany, Bool.true_or])
      have hregistered := question_register hplaced
      refine ⟨rfl, rfl, fun hfound => draft_putDraft hfound rfl, ?_, ?_, ?_, rfl⟩
      · refine bindReply_again hregistered rfl ?_
        have hput := putDraft_putDraft s { d with replyId := some (c :: cs) }
        exact congrArg (fun t : VoiceTurnService => { t with
          replies := if (s.question (c :: cs)).isSome then s.replies
            else s.replies ++ [(c :: cs, d.questionId)] }) hput
      · intro r q hr
        change List.lookup r (if (s.question (c :: cs)).isSome then s.replies
          else s.replies ++ [(c :: cs, d.questionId)]) = some q
        split_ifs
        · exact hr
        · rw [List.lookup_append, show s.replies.lookup r = some q from hr]
          rfl
      · intro r q hr hq
        left
        obtain rfl := Option.some.inj hr
        exact Option.some.inj (hq.symm.trans hregistered)

/-! ### Handling leaves the lock open -/

theorem frozen_filterDraft (s : VoiceTurnService) (question : Option Ident) :
    (s.filterDraft question).frozen = s.frozen := by
  unfold VoiceTurnService.filterDraft
  split
  · rfl
  · split_ifs <;> rfl

/-- Recording an event changes at most its draft, and nothing when it raises. -/
theorem recordEvent_cases (s : TurnState) (d : TurnDraft) (e : ProviderEvent) (a : EventAnswers) :
    ((recordEvent s d e a false).2 = none ∧
      ((recordEvent s d e a false).1.service = s.service ∨
        ∃ d', (recordEvent s d e a false).1.service = s.service.putDraft d')) ∨
    ∃ err, recordEvent s d e a false = (s, some err) := by
  unfold recordEvent
  split
  · unfold asrFinal
    by_cases hseen : d.finalSeen
    · rw [if_pos hseen]
      exact .inl ⟨rfl, .inl rfl⟩
    · rw [if_neg hseen]
      split
      · next text _ =>
        by_cases hlong : 65536 < text.length
        · rw [if_pos hlong]
          exact .inr ⟨_, rfl⟩
        · rw [if_neg hlong]
          exact .inl ⟨rfl, .inr ⟨_, rfl⟩⟩
      · exact .inr ⟨_, rfl⟩
  · unfold chatText
    split
    · split_ifs
      · exact .inr ⟨_, rfl⟩
      · exact .inl ⟨rfl, .inl rfl⟩
      · exact .inl ⟨rfl, .inr ⟨_, rfl⟩⟩
    · exact .inr ⟨_, rfl⟩
  · exact .inl ⟨rfl, .inr ⟨_, rfl⟩⟩
  · exact .inl ⟨rfl, .inr ⟨_, rfl⟩⟩
  · exact .inl ⟨rfl, .inl rfl⟩

theorem frozen_recordEvent (s : TurnState) (d : TurnDraft) (e : ProviderEvent) (a : EventAnswers) :
    (recordEvent s d e a false).1.service.frozen = s.service.frozen := by
  rcases recordEvent_cases s d e a with ⟨-, heq | ⟨d', heq⟩⟩ | ⟨err, heq⟩
  · rw [heq]
  · rw [heq]
    rfl
  · rw [heq]

theorem frozen_handle (a : EventAnswers) (s : TurnState) (e : ProviderEvent) :
    (handle a false s e).1.service.frozen = s.service.frozen := by
  unfold handle
  split_ifs
  · exact frozen_filterDraft _ _
  · rfl
  · rfl
  · unfold handleQuestion
    split
    · rfl
    · next service d hopen =>
      have hservice := (openDraft_opened hopen).frozen
      split_ifs
      · exact hservice
      · split
        · exact hservice
        · next service' d' hbind =>
          rw [frozen_recordEvent]
          exact (bindReply_bound hbind).frozen.trans hservice

/-! ### A rejected event is rejected again -/

theorem misplaced_of_placed {s : VoiceTurnService} {e : ProviderEvent} {q : Ident}
    (hquestion : e.questionId = some q)
    (hplaced : ∀ r q', e.replyId = some r → s.question r = some q' → q' = q) :
    s.misplaced e = false := by
  unfold VoiceTurnService.misplaced
  cases hreply : e.replyId with
  | none => rfl
  | some r =>
    cases hr : s.question r with
    | none => simp [hr]
    | some q' => simp [hr, hquestion, hplaced r q' hreply hr]

/-- The question part raises again, and changes nothing more. -/
theorem handleQuestion_retriable (a : EventAnswers) {s s' : TurnState} {e : ProviderEvent}
    {err : TurnError} (hplaced : s.service.misplaced e = false)
    (h : handleQuestion a false s e = (s', some err)) :
    s'.service.misplaced e = false ∧ handleQuestion a false s' e = (s', some err) := by
  simp only [handleQuestion] at h
  cases hopen : s.service.openDraft e.questionId with
  | error err' =>
    simp only [hopen, Prod.mk.injEq, Option.some.injEq] at h
    obtain ⟨rfl, rfl⟩ := h
    exact ⟨hplaced, by simp only [handleQuestion, hopen]⟩
  | ok opened =>
    obtain ⟨service, d⟩ := opened
    have hopened := openDraft_opened hopen
    obtain ⟨c, cs, hquestion, hd⟩ := hopened.named
    have hquestions : service.question = s.service.question := by
      unfold VoiceTurnService.question
      rw [hopened.replies]
    simp only [hopen] at h
    by_cases hclosed : d.closed = true
    · simp [hclosed] at h
    rw [if_neg hclosed] at h
    cases hbind : service.bindReply d e.replyId with
    | error err' =>
      simp only [hbind, Prod.mk.injEq, Option.some.injEq] at h
      obtain ⟨rfl, rfl⟩ := h
      have hagain : service.openDraft e.questionId = .ok (service, d) := by
        rw [hquestion]
        exact openDraft_found (hd ▸ hopened.found)
      refine ⟨?_, by simp only [handleQuestion, hagain, if_neg hclosed, hbind]⟩
      unfold VoiceTurnService.misplaced at *
      rwa [hquestions]
    | ok bound =>
      obtain ⟨service', d'⟩ := bound
      have hbound := bindReply_bound hbind
      simp only [hbind] at h
      rcases recordEvent_cases { s with service := service' } d' e a with ⟨hnone, -⟩ | ⟨err', herr⟩
      · rw [h] at hnone
        simp at hnone
      · rw [herr] at h
        simp only [Prod.mk.injEq, Option.some.injEq] at h
        obtain ⟨rfl, rfl⟩ := h
        have hagain : service'.openDraft e.questionId = .ok (service', d') := by
          rw [hquestion]
          exact openDraft_found (hd ▸ hbound.found hopened.found)
        have hclosed' : ¬ d'.closed = true := by
          rw [hbound.closed]
          exact hclosed
        refine ⟨?_, by simp only [handleQuestion, hagain, if_neg hclosed', hbound.again, herr]⟩
        refine misplaced_of_placed (hquestion.trans (congrArg some hd.symm)) fun r q hr hq => ?_
        rcases hbound.placed r q hr hq with heq | hold
        · exact heq
        · rw [hquestions] at hold
          simp only [VoiceTurnService.misplaced, hr, Option.any_some, hold, hquestion,
            decide_eq_false_iff_not, ne_eq, not_not] at hplaced
          rw [hd]
          exact (Option.some.inj hplaced).symm

theorem handle_retriable (a : EventAnswers) {s s' : TurnState} {e : ProviderEvent} {err : TurnError}
    (h : handle a false s e = (s', some err)) : handle a false s' e = (s', some err) := by
  by_cases hfiltered : e.kind = .backchannelFiltered
  · simp [handle, hfiltered] at h
  by_cases hrecorded : recorded e.kind = true
  swap
  · simp [handle, hfiltered, hrecorded] at h
  by_cases hmisplaced : s.service.misplaced e = true
  · have hs : s = s' := by
      simp only [handle, hfiltered, hrecorded, hmisplaced, if_true, if_false, Bool.not_true,
        Bool.false_eq_true, Prod.mk.injEq] at h
      exact h.1
    rwa [hs] at h
  · have hplaced : s.service.misplaced e = false := by simpa using hmisplaced
    simp only [handle, hfiltered, hrecorded, hplaced, if_false, Bool.not_true,
      Bool.false_eq_true] at h
    obtain ⟨hplaced', hagain⟩ := handleQuestion_retriable a hplaced h
    simpa only [handle, hfiltered, hrecorded, hplaced', if_false, Bool.not_true,
      Bool.false_eq_true] using hagain

/-! ### Every order of delivery -/

/-- The events of a session carry their numbers. -/
def numbered (events : ℕ → ProviderEvent) (i : ℕ) : ProviderEvent := { events i with sequence := i }

section Deliveries

variable (callId sessionId : Ident) (answers : ℕ → EventAnswers)

theorem turnReorderer_retriable :
    (turnReorderer callId sessionId answers fun _ => false).Retriable :=
  fun _ e _ _ h => handle_retriable (answers e.sequence) h

theorem turnReorderer_open (stream : ℕ → ProviderEvent) {s : TurnState}
    (hs : s.service.frozen = false) (m : ℕ) :
    (turnReorderer callId sessionId answers fun _ => false).closed
      ((turnReorderer callId sessionId answers fun _ => false).states stream s m) = false := by
  induction m with
  | zero => exact hs
  | succ m ih => exact (frozen_handle _ _ _).trans ih

/-- Whatever the order and repetition in which a numbered stream reaches the service, as long as no
arrival is more than the window ahead, drafts and rows are those of its own order; when that order
rejects nothing, no delivery is rejected and every event is handled exactly once. -/
theorem recording_order_independent (hasJobs : Bool) (db : TurnDb) (events : ℕ → ProviderEvent)
    (n : ℕ) (order : List ℕ)
    (hwindowed : (turnReorderer callId sessionId answers fun _ => false).Windowed (numbered events)
      (.init ⟨.new callId sessionId hasJobs, db⟩) order)
    (hall : ∀ i, i ∈ order ↔ 1 ≤ i ∧ i ≤ n) :
    let R := turnReorderer callId sessionId answers fun _ => false
    let start : Buffer TurnState ProviderEvent := .init ⟨.new callId sessionId hasJobs, db⟩
    let r := R.deliverAll (numbered events) start order
    let r' := R.deliverAll (numbered events) start (List.range' 1 n)
    r.1.inner = r'.1.inner ∧ r.1.sequence = r'.1.sequence ∧ r.1.handled = r'.1.handled ∧
      (r'.2 = [] → r.2 = [] ∧ r.1.sequence = n ∧ r.1.handled = List.range' 1 n ∧
        r.1.pending.keys = []) := by
  have hretry := turnReorderer_retriable callId sessionId answers
  have hopen := turnReorderer_open callId sessionId answers (numbered events)
    (s := ⟨.new callId sessionId hasJobs, db⟩) rfl
  obtain ⟨hsequence, hhandled, hinner, -⟩ :=
    Reorderer.order_independent hretry hopen (Nat.zero_lt_succ 127) hwindowed hall
  refine ⟨hinner, hsequence, hhandled, fun hquiet => ?_⟩
  exact Reorderer.handled_of_quiet hretry hopen (Nat.zero_lt_succ 127) hquiet hwindowed hall

end Deliveries

/-- Two questions; the second one's event carries the reply of the first. -/
def conflicting (i : ℕ) : ProviderEvent :=
  if i = 1 then ⟨.chatText, ['c'], ['s'], 1, some ['p'], some ['r'], .text ['a'], none⟩
  else ⟨.chatText, ['c'], ['s'], 2, some ['q'], some ['r'], .text ['b'], none⟩

def quietAnswers (_ : ℕ) : EventAnswers :=
  ⟨⟨some ⟨.passed, .passed⟩, true, true, true⟩, ⟨true, false⟩⟩

/-- The rows of a connected call without turns. -/
def emptyTurns : TurnDb := ⟨some ⟨.connected, false⟩, [], []⟩

/-- Two events of two questions. -/
def twoQuestions (i : ℕ) : ProviderEvent :=
  ⟨.asrFinal, ['c'], ['s'], i, some (if i = 1 then ['p'] else ['q']), none, .text ['a'], none⟩

theorem recording_order_independent_swapped :
    let R := turnReorderer ['c'] ['s'] quietAnswers fun _ => false
    let start : Buffer TurnState ProviderEvent := .init ⟨.new ['c'] ['s'] true, emptyTurns⟩
    let r := R.deliverAll (numbered twoQuestions) start [2, 2, 1]
    let r' := R.deliverAll (numbered twoQuestions) start (List.range' 1 2)
    r.1.inner = r'.1.inner ∧ r.1.sequence = r'.1.sequence ∧ r.1.handled = r'.1.handled ∧
      (r'.2 = [] → r.2 = [] ∧ r.1.sequence = 2 ∧ r.1.handled = List.range' 1 2 ∧
        r.1.pending.keys = []) :=
  recording_order_independent ['c'] ['s'] quietAnswers true emptyTurns twoQuestions 2 [2, 2, 1]
    ⟨by decide, by decide, by decide, trivial⟩ (by intro i; simp; omega)

/-- A session whose second event is rejected: it is never handled, and stays in the buffer. -/
theorem conflicting_rejected :
    let R := turnReorderer ['c'] ['s'] quietAnswers fun _ => false
    let start : Buffer TurnState ProviderEvent := .init ⟨.new ['c'] ['s'] true, emptyTurns⟩
    let r := R.deliverAll (numbered conflicting) start [1, 2]
    R.Windowed (numbered conflicting) start [1, 2] ∧
      r.2 = [.replyIdentityConflict] ∧ r.1.sequence = 1 ∧ r.1.pending.keys = [2] :=
  ⟨⟨by decide, by decide, trivial⟩, by decide, by decide,
    by decide⟩

end CompanionBackend.TurnOrder
