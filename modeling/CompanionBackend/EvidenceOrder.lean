import CompanionBackend.ConclusionConflicts
import CompanionBackend.Rearrangements

/-!
# Conclusions from a trace in another order

The actions of a trace are found by their names and ordinals, so their order does not matter. That of
the events matters only where a chain goes on from the last listed answer or the first listed start of
a session: for what was recalled and for a reconnect.
-/
namespace CompanionBackend.EvidenceConclusions

open CapabilityRules EvidenceTraces Rankings Rearrangements

variable {actions actions' : List Action} {events events' : List Event}

/-! ### Lists searched by name -/

theorem only_perm {α : Type} {xs ys : List α} (h : xs.Perm ys) : only xs = only ys := by
  have hlength := h.length_eq
  rcases xs with _ | ⟨x, _ | ⟨x', xs⟩⟩
  · rw [h.nil_eq]
  · rw [List.singleton_perm.mp h]
  · rcases ys with _ | ⟨y, _ | ⟨y', ys⟩⟩
    · simp at hlength
    · simp at hlength
    · rfl

theorem ne_nil_perm {α : Type} {xs ys : List α} (h : xs.Perm ys) : (xs ≠ []) = (ys ≠ []) := by
  rw [eq_iff_iff, not_iff_not]
  exact ⟨fun hx => (hx ▸ h).nil_eq.symm, fun hy => (hy ▸ h).eq_nil⟩

theorem actionNamed_perm (h : actions.Perm actions') (name : ActionName) :
    (actionNamed actions name).Perm (actionNamed actions' name) := h.filter _

theorem eventNamed_perm (h : events.Perm events') (name : EventName) :
    (eventNamed events name).Perm (eventNamed events' name) := h.filter _

/-- The events of a trace are told apart by their ordinals. -/
abbrev Distinct (events : List Event) : Prop := (events.map Event.ordinal).Nodup

theorem Distinct.eq (h : Distinct events) :
    ∀ a ∈ events, ∀ b ∈ events, a.ordinal = b.ordinal → a = b :=
  fun _ ha _ hb => List.inj_on_of_nodup_map h ha hb

/-- A search for one ordinal among the events of a name. -/
theorem find?_named (hevents : events.Perm events') (hdistinct : Distinct events)
    (name : EventName) {P : Event → Bool} {ordinal : ℤ} (hP : ∀ e, P e = true → e.ordinal = ordinal) :
    (eventNamed events name).find? P = (eventNamed events' name).find? P :=
  find?_perm (eventNamed_perm hevents name) (atMostOne_of_key hdistinct hP).filter

/-! ### Interrupting a reply -/

theorem isInterruptStart_ordinal {i : Interrupt} (e : Event) (h : isInterruptStart i e = true) :
    e.ordinal = i.target := by
  simp only [isInterruptStart, Bool.and_eq_true, decide_eq_true_eq] at h
  exact h.1.1.1

theorem validateInterruptWindow_perm (hactions : actions.Perm actions') (hevents : events.Perm events')
    (hdistinct : Distinct events) (expectSuccess : Option Bool) :
    validateInterruptWindow events actions expectSuccess =
      validateInterruptWindow events' actions' expectSuccess := by
  have hstart : ∀ i, (eventNamed events .ttsSentenceStart).find? (isInterruptStart i) =
      (eventNamed events' .ttsSentenceStart).find? (isInterruptStart i) := fun i =>
    find?_named hevents hdistinct _ isInterruptStart_ordinal
  have hfirst : ∀ i start,
      (((eventNamed events .ttsEnded).filter (isInterruptTerminal i start)).map
        Event.receivedAtMs).min? =
      (((eventNamed events' .ttsEnded).filter (isInterruptTerminal i start)).map
        Event.receivedAtMs).min? := fun i start =>
    min?_perm (((eventNamed_perm hevents _).filter _).map _)
  have hstop := actionNamed_perm hactions .clientStopPlaybackApplied
  simp only [validateInterruptWindow, only_perm (actionNamed_perm hactions .clientInterruptSent),
    ne_nil_perm hstop, hstart, hfirst, only_perm (hstop.filter _), any_perm hevents]

/-! ### Sentences and their audio -/

theorem pairWindows_perm {audio audio' : List Event} (h : audio.Perm audio')
    (identities : List (Option (IdentityKind × ProviderEvents.Text))) (boundaries : List Event) :
    pairWindows audio identities boundaries = pairWindows audio' identities boundaries := by
  induction identities, boundaries using pairWindows.induct with
  | case1 identities start stop rest identity ih =>
    simp only [pairWindows, any_perm h]
    rw [ih]
  | case2 identities boundaries hshort => rw [pairWindows, pairWindows] <;> exact hshort

theorem validateMappingWindow_perm (hevents : events.Perm events') (hdistinct : Distinct events) :
    validateMappingWindow events = validateMappingWindow events' := by
  have hgroups : boundaryGroups events = boundaryGroups events' := by
    refine congrArg (List.foldl addBoundary []) (sortBy_eq
      ((eventNamed_perm hevents _).append (eventNamed_perm hevents _)) fun a ha b hb => ?_)
    have hmem : ∀ e ∈ eventNamed events .ttsSentenceStart ++ eventNamed events .ttsSentenceEnd,
        e ∈ events := fun e he =>
      (List.mem_append.mp he).elim List.mem_of_mem_filter List.mem_of_mem_filter
    exact hdistinct.eq a (hmem a ha) b (hmem b hb)
  have haudio := (eventNamed_perm hevents .ttsResponse).filter fun e =>
    e.isAudio && decide (e.payloadKind = .binary)
  simp only [validateMappingWindow, groupWindows, hgroups, pairWindows_perm haudio]

/-! ### The conclusions -/

/-- The same trace with its events and its actions listed otherwise. -/
def relisted (p : EvidencePayload) (events : List Event) (actions : List Action) : EvidencePayload :=
  { p with eventEvidence := events, actionEvidence := actions }

/-- The capabilities whose chains follow the order in which events are listed. -/
def readsListing (key : VoiceCapability) : Bool :=
  decide (key = .currentTurnRagGate ∨ key = .sessionReconnect)

section Relisted

variable {p : EvidencePayload} {key : VoiceCapability} {verdict : Verdict}

theorem contextWrite_perm (hactions : actions.Perm actions') (seed : Action) :
    validateReconnectContextWrite seed events actions =
      validateReconnectContextWrite seed events actions' := by
  simp only [validateReconnectContextWrite, only_perm (actionNamed_perm hactions _)]

theorem reconnect_actions (h : p.actionEvidence.Perm actions) :
    reconnectConclusion verdict (relisted p p.eventEvidence actions) =
      reconnectConclusion verdict p := by
  have hname := fun name => only_perm (actionNamed_perm h name)
  have hfailed := (actionNamed_perm h .providerReconnectFailed).length_eq
  simp only [reconnectConclusion, relisted, exposureConclusion, readHandshake, contextWritten,
    contextDenied, restoredChain, readReconnected, reconnectFailure, restoreFailed,
    lifecycleChanged, hasReason, hname, hfailed, contextWrite_perm h]
  rfl

theorem rag_actions (h : p.actionEvidence.Perm actions) :
    ragConclusion verdict (relisted p p.eventEvidence actions) = ragConclusion verdict p := by
  simp only [ragConclusion, relisted, hasReason, only_perm (actionNamed_perm h _)]
  rfl

theorem cancel_relisted (hevents : p.eventEvidence.Perm events)
    (hactions : p.actionEvidence.Perm actions) (hdistinct : Distinct p.eventEvidence) :
    cancelConclusion verdict (relisted p events actions) = cancelConclusion verdict p := by
  simp only [cancelConclusion, relisted, hasReason,
    validateInterruptWindow_perm hactions hevents hdistinct]
  rfl

theorem truncate_relisted (hevents : p.eventEvidence.Perm events)
    (hactions : p.actionEvidence.Perm actions) (hdistinct : Distinct p.eventEvidence) :
    truncateConclusion verdict (relisted p events actions) = truncateConclusion verdict p := by
  simp only [truncateConclusion, relisted, hasReason,
    validateInterruptWindow_perm hactions hevents hdistinct,
    isEmpty_perm (eventNamed_perm hevents _)]
  rfl

theorem mapping_relisted (hevents : p.eventEvidence.Perm events) (hdistinct : Distinct p.eventEvidence) :
    mappingConclusion verdict (relisted p events actions) = mappingConclusion verdict p := by
  cases verdict <;>
    simp only [mappingConclusion, relisted, hasReason, any_perm (eventNamed_perm hevents _),
      validateMappingWindow_perm hevents hdistinct] <;> rfl

theorem ack_relisted (hevents : p.eventEvidence.Perm events)
    (hactions : p.actionEvidence.Perm actions) (hdistinct : Distinct p.eventEvidence) :
    ackConclusion verdict (relisted p events actions) = ackConclusion verdict p := by
  have hacks := fun stop => only_perm
    ((actionNamed_perm hactions .clientSentencePlayed).filter (isSentenceAck stop))
  simp only [ackConclusion, relisted, hasReason, validateMappingWindow_perm hevents hdistinct, hacks]
  rfl

end Relisted

/-- A conclusion, or the cause for which it is refused, is the same for every order of the actions,
and for every order of the events where a chain does not follow their listing. -/
theorem conclusion_relisted (key : VoiceCapability) (verdict : Verdict) (p : EvidencePayload)
    (events : List Event) (actions : List Action) (hevents : p.eventEvidence.Perm events)
    (hactions : p.actionEvidence.Perm actions)
    (hlisting : readsListing key = true → events = p.eventEvidence) :
    validateCapabilityConclusion key verdict (relisted p events actions) =
      validateCapabilityConclusion key verdict p := by
  have hordinals : Distinct (relisted p events actions).eventEvidence ↔ Distinct p.eventEvidence :=
    (hevents.map _).symm.nodup_iff
  unfold validateCapabilityConclusion
  by_cases hdistinct : Distinct p.eventEvidence
  · rw [Runs.require_of_pos hdistinct, Runs.require_of_pos (hordinals.mpr hdistinct)]
    refine congrArg (Except.bind (.ok ())) (funext fun _ => ?_)
    cases key with
    | currentTurnRagGate => exact hlisting rfl ▸ rag_actions hactions
    | replyCancel => exact cancel_relisted hevents hactions hdistinct
    | contextTruncate => exact truncate_relisted hevents hactions hdistinct
    | playbackTextMapping => exact mapping_relisted hevents hdistinct
    | sentencePlaybackAck => exact ack_relisted hevents hactions hdistinct
    | sessionReconnect => exact hlisting rfl ▸ reconnect_actions hactions
  · simp only [Runs.require, if_neg hdistinct, if_neg (mt hordinals.mp hdistinct)]
    rfl

theorem reconnect_relisted :
    Accepted .sessionReconnect .passed
      (relisted sampleReconnect sampleReconnect.eventEvidence sampleReconnect.actionEvidence.reverse) :=
  (conclusion_relisted .sessionReconnect .passed sampleReconnect _ _ (List.Perm.refl _)
    (List.reverse_perm _).symm fun _ => rfl).trans (by decide)

end CompanionBackend.EvidenceConclusions
