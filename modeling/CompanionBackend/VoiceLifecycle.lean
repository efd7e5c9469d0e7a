import CompanionBackend.TimelineSequence
import CompanionBackend.VoiceModels
import CompanionBackend.VoiceQuota

/-!
# Lifecycle of a voice call

Status is written on two paths: `transition_call` checks the edge table, and the
finalizer jumps from any active status to the final one. Both stage the terminal
state and the timeline card inside the caller's transaction.
-/
namespace CompanionBackend.VoiceLifecycle

open Runs VoiceModels VoiceQuota TimelineSequence

/-- What a lifecycle or finalization transaction raises. -/
inductive CallError
  | callNotFound
  | invalidCallState | invalidCall01FactTransition | invalidCallTransition
  | connectedCallRequiresFinalizer
  | growthSecondsInvalid | growthCallNotTerminal | growthSecondsMismatch | growthConfigInvalid
  | quota (e : QuotaError)
  | timeline (e : TimelineError)
  /-- Raised by a staging hook outside this model. -/
  | hook
  /-- Raised by the database; the transaction is rolled back. -/
  | database
  deriving DecidableEq, Repr

/-- `TRANSITIONS`. -/
def transitions : CallStatus → List CallStatus
  | .deciding => [.ringing, .missed, .failed, .cancelled]
  | .ringing => [.connected, .missed, .failed, .cancelled]
  | .connected => [.reconnecting, .ending]
  | .reconnecting => [.connected, .ending]
  | .ending => [.ended]
  | .ended | .missed | .failed | .cancelled => []

/-- `final_status`. -/
def finalStatus (row : VoiceCall) (reason : EndReason) : CallStatus :=
  if row.connectedAt.isSome then .ended
  else if reason = .userCancel ∨ reason = .userHangup then .cancelled
  else if reason = .characterMissed then .missed else .failed

/-- The columns `stage_final_state` writes. -/
def finalRow (row : VoiceCall) (reason : EndReason) (now : ℤ) : VoiceCall :=
  { row with
    status := finalStatus row reason
    endReason := some (if finalStatus row reason = .cancelled then .userCancel else reason)
    endedAt := some now
    summaryStatus := if row.connectedAt.isNone then .notApplicable else row.summaryStatus }

/-- `stage_final_state`: the row, and whether it became terminal. -/
def stageFinalState (row : VoiceCall) (reason : EndReason) (now : ℤ) :
    Except CallError (VoiceCall × Bool) := do
  if row.status.terminal then pure (row, false)
  else
    require (row.status.active = true) .invalidCallState
    pure (finalRow row reason now, true)

/-! ### The timeline card -/

/-- Whitespace and punctuation that `meaningful_user_text` drops. -/
def skippedChar (c : Char) : Bool :=
  let n := c.toNat
  (9 ≤ n && n ≤ 13) || (28 ≤ n && n ≤ 32) || n = 0x85 || n = 0xa0 || n = 0x1680 ||
    (0x2000 ≤ n && n ≤ 0x200a) || n = 0x2028 || n = 0x2029 || n = 0x202f || n = 0x205f ||
    n = 0x3000 || "，。！？、,.!?～~…".toList.contains c

/-- `(?:嗯|啊|哦|噢|对|是的?|好的?|哈|呵|诶|唉|呃)*`, matched in full. -/
def onlyFillers : List Char → Bool
  | [] => true
  | '是' :: '的' :: cs => onlyFillers cs
  | '好' :: '的' :: cs => onlyFillers cs
  | c :: cs => "嗯啊哦噢对是好哈呵诶唉呃".toList.contains c && onlyFillers cs

/-- `meaningful_user_text`. -/
def meaningfulUserText (text : Option (List Char)) : Bool :=
  let compact := (text.getD []).filter fun c => !skippedChar c
  !compact.isEmpty && !onlyFillers compact

/-- The turn counts as answered: it ended, and some of its reply took effect. -/
def VoiceCallTurn.answered (t : VoiceCallTurn) : Bool :=
  (t.turnStatus = .finalized || t.turnStatus = .interrupted) && t.effectiveTextEvidence ≠ .none &&
    match t.assistantTextEffective with
    | some text => !text.isEmpty
    | none => false

/-- `summary_eligible`. -/
def summaryEligible (turns : List VoiceCallTurn) (row : VoiceCall) : Bool :=
  row.connectedAt.isSome && decide (15 ≤ row.durationSeconds) &&
    turns.any fun t =>
      VoiceCallTurn.answered t && t.allChecksPassed && meaningfulUserText t.userTextFinal

/-- A card is inserted once, for an ended or missed call without a deletion fence. -/
def cardDue (row : VoiceCall) : Prop :=
  row.sortSeq = none ∧ row.deletionFenceAt = none ∧ (row.status = .ended ∨ row.status = .missed)

instance : DecidablePred cardDue := fun _ => inferInstanceAs (Decidable (_ ∧ _))

/-- The columns of the card. -/
def withCard (row : VoiceCall) (summary : SummaryStatus) (seq : Option ℤ) : VoiceCall :=
  { row with summaryStatus := summary, sortSeq := seq }

@[simp] theorem withCard_userId (row : VoiceCall) (summary : SummaryStatus) (seq : Option ℤ) :
    (withCard row summary seq).userId = row.userId := rfl

/-- `stage_call_card`: the database with the staged row. -/
def stageCallCard (db : VoiceDb) (id : CallId) (row : VoiceCall) : Except CallError VoiceDb :=
  if cardDue row then do
    let (seqs, next) ← (allocateSortSeq (db.timelineSeq.lookup row.userId) 1).mapError .timeline
    let summary := if summaryEligible (db.turns id) row then .pending else .notApplicable
    pure { db.putCall id (withCard row summary seqs.head?) with
      timelineSeq := db.timelineSeq.insert row.userId next }
  else pure (db.putCall id row)

/-! ### Transitions -/

/-- The reason a terminal transition records. -/
def transitionReason : CallStatus → EndReason
  | .missed => .characterMissed
  | .cancelled => .userCancel
  | _ => .systemError

/-- A call that became missed stages its follow-up. -/
def stageMissedFollowup (target : CallStatus) (followup : Except CallError Unit) :
    Except CallError Unit :=
  if target = .missed then followup else pure ()

/-- The arguments of `transition_call`, what staging the missed follow-up raises, and
whether the commit goes through. -/
structure TransitionRequest where
  callId : CallId
  expected : List CallStatus
  target : CallStatus
  now : ℤ
  call01Fallback : Option Bool
  followup : Except CallError Unit
  commit : Except CallError Unit

/-- The recorded fact about an automatic answer, when one is given. -/
def withFallback (row : VoiceCall) (fact : Option Bool) : VoiceCall :=
  { row with call01Fallback := fact.or row.call01Fallback }

/-- `transition_call`; the result says whether the status was written. -/
def transitionCall (t : TransitionRequest) : Transaction CallError VoiceDb Bool := fun db => do
  require (t.call01Fallback.isSome → t.expected = [.deciding] ∧
    (t.target = .ringing ∨ t.target = .missed ∨ t.target = .cancelled)) .invalidCall01FactTransition
  require (t.expected ≠ [] ∧ t.target ≠ .ended ∧ ∀ s ∈ t.expected, t.target ∈ transitions s)
    .invalidCallTransition
  match db.call t.callId with
  | none => t.commit.bind fun _ => pure (db, false)
  | some row =>
    if row.status ∈ t.expected then do
      let row := withFallback row t.call01Fallback
      if t.target.terminal then do
        require (row.connectedAt = none) .connectedCallRequiresFinalizer
        let (staged, _) ← stageFinalState row (transitionReason t.target) t.now
        let db ← stageCallCard db t.callId staged
        stageMissedFollowup t.target t.followup
        t.commit
        pure (db, true)
      else do
        let instant := if t.target = .connected ∧ row.connectedAt = none then some t.now
          else row.connectedAt
        t.commit
        pure (db.putCall t.callId { row with status := t.target, connectedAt := instant }, true)
    else t.commit.bind fun _ => pure (db, false)

/-! ### What each path writes -/

/-- Staging an active row closes it. -/
theorem stageFinalState_of_active {row : VoiceCall} (h : row.status.active = true)
    (reason : EndReason) (now : ℤ) :
    stageFinalState row reason now = .ok (finalRow row reason now, true) := by
  have hopen : ¬ row.status.terminal = true := by simpa using h
  rw [stageFinalState, if_neg hopen, require_of_pos h]
  rfl

theorem finalStatus_terminal (row : VoiceCall) (reason : EndReason) :
    (finalStatus row reason).terminal = true := by
  unfold finalStatus
  split_ifs <;> rfl

/-- The columns of a staged card: the number comes with the card, the rest of the row stays. -/
structure CardStaged (db db' : VoiceDb) (id : CallId) (row : VoiceCall) : Prop where
  row_eq : ∃ summary, db'.call id = some (withCard row summary
    (if cardDue row then some (nextSeq (db.timelineSeq.lookup row.userId)) else row.sortSeq))
  counter : nextSeq (db'.timelineSeq.lookup row.userId) =
    nextSeq (db.timelineSeq.lookup row.userId) + if cardDue row then 1 else 0
  others : ∀ id', id' ≠ id → db'.call id' = db.call id'
  rest : db' = { db with calls := db'.calls, timelineSeq := db'.timelineSeq }

/-- `stage_call_card` never fails. -/
theorem stageCallCard_eq_ok {db db' : VoiceDb} {id : CallId} {row : VoiceCall}
    (h : stageCallCard db id row = .ok db') : CardStaged db db' id row := by
  unfold stageCallCard at h
  by_cases hdue : cardDue row
  · rw [if_pos hdue, allocateSortSeq_one] at h
    obtain rfl := pure_eq_ok.mp h
    refine ⟨⟨if summaryEligible (db.turns id) row then .pending else .notApplicable, ?_⟩, ?_, ?_, rfl⟩
    · rw [if_pos hdue]
      exact VoiceDb.call_putCall_self _ _ _
    · simp [if_pos hdue, nextSeq]
    · intro id' hid
      exact (VoiceDb.call_putCall _ _ _ _).trans (if_neg hid)
  · rw [if_neg hdue] at h
    obtain rfl := pure_eq_ok.mp h
    refine ⟨⟨row.summaryStatus, ?_⟩, ?_, ?_, rfl⟩
    · rw [if_neg hdue]
      exact VoiceDb.call_putCall_self _ _ _
    · rw [if_neg hdue, add_zero]
      rfl
    · intro id' hid
      exact (VoiceDb.call_putCall _ _ _ _).trans (if_neg hid)

/-- A transition that wrote its target: `row` before it, `row'` after it. -/
structure Moved (t : TransitionRequest) (db db' : VoiceDb) (row row' : VoiceCall) : Prop where
  row_eq : db.call t.callId = some row
  edge : t.target ∈ transitions row.status
  not_ended : t.target ≠ .ended
  row_eq' : db'.call t.callId = some row'
  status : row'.status = t.target
  fence : row'.deletionFenceAt = row.deletionFenceAt
  closing : t.target.terminal = true → row.connectedAt = none ∧ row'.connectedAt = none ∧
    row'.endedAt = some t.now ∧ row'.endReason = some (transitionReason t.target) ∧
    row'.sortSeq = if row.sortSeq = none ∧ row.deletionFenceAt = none ∧ t.target = .missed
      then some (nextSeq (db.timelineSeq.lookup row.userId)) else row.sortSeq
  opening : t.target.terminal = false →
    row'.connectedAt = (if t.target = .connected ∧ row.connectedAt = none then some t.now
      else row.connectedAt) ∧ row'.sortSeq = row.sortSeq
  calls_of_other : ∀ id, id ≠ t.callId → db'.call id = db.call id
  rest : db' = { db with calls := db'.calls, timelineSeq := db'.timelineSeq }

/-- Before the call is connected, the recorded reason leads to the terminal target itself. -/
theorem finalStatus_transitionReason {row : VoiceCall} {target : CallStatus}
    (hnone : row.connectedAt = none) (hterminal : target.terminal = true)
    (hended : target ≠ .ended) : finalStatus row (transitionReason target) = target := by
  cases target <;> simp_all [finalStatus, transitionReason, CallStatus.terminal]

/-- An early terminal transition closes the row and stages a card when the call was missed. -/
theorem moved_of_closing {t : TransitionRequest} {db db' : VoiceDb} {row staged : VoiceCall}
    {fresh : Bool} (hrow : db.call t.callId = some row) (hedge : t.target ∈ transitions row.status)
    (hended : t.target ≠ .ended) (hterminal : t.target.terminal = true)
    (hnone : row.connectedAt = none)
    (hstage : stageFinalState (withFallback row t.call01Fallback) (transitionReason t.target) t.now =
      .ok (staged, fresh))
    (hcard : stageCallCard db t.callId staged = .ok db') :
    ∃ row', Moved t db db' row row' := by
  have hactive : (withFallback row t.call01Fallback).status.active = true := by
    change row.status.active = true
    cases hs : row.status <;> simp [hs, transitions] at hedge <;> rfl
  rw [stageFinalState_of_active hactive] at hstage
  obtain ⟨rfl, -⟩ := Prod.mk.inj (Except.ok.inj hstage)
  have hstatus : finalStatus (withFallback row t.call01Fallback) (transitionReason t.target) =
      t.target := finalStatus_transitionReason hnone hterminal hended
  have hc := stageCallCard_eq_ok hcard
  obtain ⟨summary, hrow'⟩ := hc.row_eq
  refine ⟨_, hrow, hedge, hended, hrow', hstatus, rfl, fun _ => ⟨hnone, hnone, rfl, ?_, ?_⟩, ?_,
    hc.others, hc.rest⟩
  · simp only [withCard, finalRow, hstatus]
    cases ht : t.target <;> simp [transitionReason]
  · have hdue : cardDue (finalRow (withFallback row t.call01Fallback) (transitionReason t.target)
        t.now) ↔ row.sortSeq = none ∧ row.deletionFenceAt = none ∧ t.target = .missed := by
      change row.sortSeq = none ∧ row.deletionFenceAt = none ∧
        (finalStatus (withFallback row t.call01Fallback) (transitionReason t.target) = .ended ∨
          finalStatus (withFallback row t.call01Fallback) (transitionReason t.target) = .missed) ↔ _
      rw [hstatus]
      simp only [hended, false_or]
    exact if_congr hdue rfl rfl
  · intro hopen
    exact absurd (hterminal.symm.trans hopen) (by decide)

/-- The inversion of `transitionCall`: nothing is written, or the target is. -/
theorem transitionCall_cases {t : TransitionRequest} {db db' : VoiceDb} {written : Bool}
    (h : transitionCall t db = .ok (db', written)) :
    (written = false ∧ db' = db) ∨ (written = true ∧ ∃ row row', Moved t db db' row row') := by
  obtain ⟨_, _, h⟩ := bind_eq_ok.mp h
  obtain ⟨_, hedges, h⟩ := bind_eq_ok.mp h
  obtain ⟨-, hended, hedges⟩ := require_eq_ok.mp hedges
  cases hrow : db.call t.callId with
  | none =>
    simp only [hrow] at h
    obtain ⟨_, _, h⟩ := bind_eq_ok.mp h
    obtain ⟨rfl, rfl⟩ := Prod.mk.inj (pure_eq_ok.mp h)
    exact .inl ⟨rfl, rfl⟩
  | some row =>
    simp only [hrow] at h
    by_cases hexpected : row.status ∈ t.expected
    · rw [if_pos hexpected] at h
      refine .inr ?_
      have hedge := hedges row.status hexpected
      by_cases hterminal : t.target.terminal = true
      · rw [if_pos hterminal] at h
        obtain ⟨_, hnone, h⟩ := bind_eq_ok.mp h
        obtain ⟨⟨staged, fresh⟩, hstage, h⟩ := bind_eq_ok.mp h
        obtain ⟨db₁, hcard, h⟩ := bind_eq_ok.mp h
        obtain ⟨_, _, h⟩ := bind_eq_ok.mp h
        obtain ⟨_, _, h⟩ := bind_eq_ok.mp h
        obtain ⟨rfl, rfl⟩ := Prod.mk.inj (pure_eq_ok.mp h)
        replace hnone : row.connectedAt = none := require_eq_ok.mp hnone
        exact ⟨rfl, row, moved_of_closing hrow hedge hended hterminal hnone hstage hcard⟩
      · rw [if_neg hterminal] at h
        obtain ⟨_, _, h⟩ := bind_eq_ok.mp h
        obtain ⟨rfl, rfl⟩ := Prod.mk.inj (pure_eq_ok.mp h)
        refine ⟨rfl, row, _, hrow, hedge, hended, VoiceDb.call_putCall_self _ _ _, rfl, rfl,
          fun h => absurd h hterminal, fun _ => ⟨rfl, rfl⟩, fun id hid => ?_, rfl⟩
        exact (VoiceDb.call_putCall _ _ _ _).trans (if_neg hid)
    · rw [if_neg hexpected] at h
      obtain ⟨_, _, h⟩ := bind_eq_ok.mp h
      obtain ⟨rfl, rfl⟩ := Prod.mk.inj (pure_eq_ok.mp h)
      exact .inl ⟨rfl, rfl⟩

end CompanionBackend.VoiceLifecycle
