import CompanionBackend.EvidenceConclusions

/-!
# One trace, two verdicts

Five of the capabilities are never accepted with both verdicts on the same events and actions. A
reconnect that passed is accepted as failed as well where its trace shows a sign of a failure that
the passed chain does not look at.
-/
namespace CompanionBackend.EvidenceConclusions

open Runs ProviderEvents Dictionaries CapabilityRules EvidenceTraces

/-- The same events and actions under another schema and reason. -/
def retold (p : EvidencePayload) (version : RecordSchema) (reason : Text) : EvidencePayload :=
  { p with schemaVersion := version, reasonCode := reason }

variable {p : EvidencePayload} {version : RecordSchema} {reason : Text}

theorem accepted_iff {key : VoiceCapability} {verdict : Verdict} :
    Accepted key verdict p ↔ (p.eventEvidence.map Event.ordinal).Nodup ∧
      (match key with
        | .currentTurnRagGate => ragConclusion verdict p
        | .replyCancel => cancelConclusion verdict p
        | .contextTruncate => truncateConclusion verdict p
        | .playbackTextMapping => mappingConclusion verdict p
        | .sentencePlaybackAck => ackConclusion verdict p
        | .sessionReconnect => reconnectConclusion verdict p) = .ok () := by
  unfold Accepted validateCapabilityConclusion
  constructor
  · intro h
    obtain ⟨_, hnodup, h⟩ := bind_eq_ok.mp h
    exact ⟨require_eq_ok.mp hnodup, h⟩
  · rintro ⟨hnodup, h⟩
    exact bind_eq_ok.mpr ⟨(), require_eq_ok.mpr hnodup, h⟩

/-! ### Five capabilities -/

theorem rag_exclusive (hpassed : ragConclusion .passed p = .ok ()) :
    ragConclusion .failed (retold p version reason) ≠ .ok () := by
  intro hfailed
  obtain ⟨_, -, hpassed⟩ := bind_eq_ok.mp hpassed
  obtain ⟨action, haction, hpassed⟩ := bind_eq_ok.mp hpassed
  obtain ⟨source, hsource, hpassed⟩ := bind_eq_ok.mp hpassed
  obtain ⟨_, -, hfailed⟩ := bind_eq_ok.mp hfailed
  obtain ⟨action', haction', hfailed⟩ := bind_eq_ok.mp hfailed
  obtain ⟨source', hsource', hfailed⟩ := bind_eq_ok.mp hfailed
  obtain rfl : action = action' := Except.ok.inj (haction.symm.trans haction')
  obtain rfl : source = source' := Except.ok.inj (hsource.symm.trans hsource')
  have hpass : ragPassed p.eventEvidence action source = true := require_eq_ok.mp hpassed
  have hfail : ragFailed p.eventEvidence action source = true := require_eq_ok.mp hfailed
  simp [ragFailed, hpass] at hfail

theorem provenFailure_of_success {i : Interrupt} {stopAck : Action} {terminal : ℤ}
    {lateAudio : Bool} (h : provenSuccess i stopAck terminal lateAudio = true) :
    provenFailure i stopAck terminal lateAudio = false := by
  simp only [provenSuccess, Bool.and_eq_true, decide_eq_true_eq, Bool.not_eq_true'] at h
  obtain ⟨⟨⟨hack, hterminal⟩, hgrace⟩, hlate⟩ := h
  simp [provenFailure, hack, hterminal, hgrace, hlate]

/-- A window that is a success is no failure. -/
theorem interrupt_exclusive {events : List Event} {actions : List Action}
    (hpassed : validateInterruptWindow events actions (some true) = .ok ()) :
    validateInterruptWindow events actions (some false) ≠ .ok () := by
  intro hfailed
  obtain ⟨interrupt, hinterrupt, hpassed⟩ := bind_eq_ok.mp hpassed
  obtain ⟨_, -, hpassed⟩ := bind_eq_ok.mp hpassed
  obtain ⟨i, hi, hpassed⟩ := bind_eq_ok.mp hpassed
  obtain ⟨start, hstart, hpassed⟩ := bind_eq_ok.mp hpassed
  obtain ⟨_, -, hpassed⟩ := bind_eq_ok.mp hpassed
  obtain ⟨stopAck, hack, hpassed⟩ := bind_eq_ok.mp hpassed
  obtain ⟨first, hfirst, hpassed⟩ := bind_eq_ok.mp hpassed
  obtain ⟨_, hsuccess, -⟩ := bind_eq_ok.mp hpassed
  obtain ⟨interrupt', hinterrupt', hfailed⟩ := bind_eq_ok.mp hfailed
  obtain rfl : interrupt = interrupt' := Except.ok.inj (hinterrupt.symm.trans hinterrupt')
  obtain ⟨_, -, hfailed⟩ := bind_eq_ok.mp hfailed
  obtain ⟨i', hi', hfailed⟩ := bind_eq_ok.mp hfailed
  obtain rfl : i = i' := Except.ok.inj (hi.symm.trans hi')
  obtain ⟨start', hstart', hfailed⟩ := bind_eq_ok.mp hfailed
  obtain rfl : start = start' := Except.ok.inj (hstart.symm.trans hstart')
  obtain ⟨_, -, hfailed⟩ := bind_eq_ok.mp hfailed
  obtain ⟨stopAck', hack', hfailed⟩ := bind_eq_ok.mp hfailed
  obtain rfl : stopAck = stopAck' := Except.ok.inj (hack.symm.trans hack')
  obtain ⟨first', hfirst', hfailed⟩ := bind_eq_ok.mp hfailed
  obtain rfl : first = first' := Except.ok.inj (hfirst.symm.trans hfirst')
  obtain ⟨_, -, hfailure⟩ := bind_eq_ok.mp hfailed
  have hfailure := require_eq_ok.mp hfailure rfl
  rw [provenFailure_of_success (require_eq_ok.mp hsuccess rfl)] at hfailure
  exact Bool.false_ne_true hfailure

theorem cancel_exclusive (hpassed : cancelConclusion .passed p = .ok ()) :
    cancelConclusion .failed (retold p version reason) ≠ .ok () := by
  intro hfailed
  obtain ⟨_, -, hpassed⟩ := bind_eq_ok.mp hpassed
  obtain ⟨_, -, hfailed⟩ := bind_eq_ok.mp hfailed
  exact interrupt_exclusive hpassed hfailed

theorem truncate_exclusive (hpassed : truncateConclusion .passed p = .ok ()) :
    truncateConclusion .failed (retold p version reason) ≠ .ok () := by
  intro hfailed
  obtain ⟨_, -, hpassed⟩ := bind_eq_ok.mp hpassed
  obtain ⟨_, -, hpassed⟩ := bind_eq_ok.mp hpassed
  obtain ⟨_, -, hfailed⟩ := bind_eq_ok.mp hfailed
  obtain ⟨_, -, hfailed⟩ := bind_eq_ok.mp hfailed
  have hsome : true = !(eventNamed p.eventEvidence .conversationTruncated).isEmpty :=
    require_eq_ok.mp hpassed
  have hnone : false = !(eventNamed p.eventEvidence .conversationTruncated).isEmpty :=
    require_eq_ok.mp hfailed
  exact Bool.false_ne_true (hnone.trans hsome.symm)

theorem mapping_exclusive (hpassed : mappingConclusion .passed p = .ok ()) :
    mappingConclusion .failed (retold p version reason) ≠ .ok () := by
  intro hfailed
  obtain ⟨_, -, hpassed⟩ := bind_eq_ok.mp hpassed
  obtain ⟨window, hwindow, -⟩ := bind_eq_ok.mp hpassed
  obtain ⟨_, -, hfailed⟩ := bind_eq_ok.mp hfailed
  obtain ⟨_, -, hfailed⟩ := bind_eq_ok.mp hfailed
  have hwindow' : validateMappingWindow (retold p version reason).eventEvidence = .ok window :=
    hwindow
  rw [hwindow'] at hfailed
  cases hfailed

theorem ack_exclusive (hpassed : ackConclusion .passed p = .ok ()) :
    ackConclusion .failed (retold p version reason) ≠ .ok () := by
  intro hfailed
  obtain ⟨_, -, hpassed⟩ := bind_eq_ok.mp hpassed
  obtain ⟨window, hwindow, hpassed⟩ := bind_eq_ok.mp hpassed
  obtain ⟨ack, hack, hpassed⟩ := bind_eq_ok.mp hpassed
  obtain ⟨_, -, hfailed⟩ := bind_eq_ok.mp hfailed
  obtain ⟨window', hwindow', hfailed⟩ := bind_eq_ok.mp hfailed
  obtain rfl : window = window' := Except.ok.inj (hwindow.symm.trans hwindow')
  obtain ⟨ack', hack', hfailed⟩ := bind_eq_ok.mp hfailed
  obtain rfl : ack = ack' := Except.ok.inj (hack.symm.trans hack')
  have hyes : ack.success = some true := require_eq_ok.mp hpassed
  have hno : ack.success = some false := require_eq_ok.mp hfailed
  cases hyes.symm.trans hno

/-! ### Reconnecting -/

/-- What is known of a reconnect that passed. -/
structure PassedReconnect (p : EvidencePayload) (h : Handshake) (r : Reconnected)
    (postStart : Event) : Prop where
  read : readHandshake p = .ok h
  written : contextWritten p h.seed = .ok ()
  answered : seedAnswered p.eventEvidence h = .ok ()
  confirmed : only (actionNamed p.actionEvidence .providerReconnectContextConfirmed) =
    some r.confirmation
  preserved : r.confirmation.success = some true
  succeeded : only (actionNamed p.actionEvidence .providerReconnectSucceeded) = some r.success
  starts : 2 ≤ (sessionStarts p.eventEvidence h.session).length
  started : (sessionStarts p.eventEvidence h.session).find? (isPostStart h r) = some postStart
  calm : (p.eventEvidence.any fun e => isLifecycle e &&
    decide (postStart.ordinal < e.ordinal ∧ e.ordinal ≤ watermark r.confirmation)) = false

theorem readReconnected_eq_ok {verdict : Verdict} {session : Text} {r : Reconnected}
    (hread : readReconnected verdict p session = .ok r) :
    only (actionNamed p.actionEvidence .providerReconnectSucceeded) = some r.success ∧
      only (actionNamed p.actionEvidence .providerReconnectContextConfirmed) =
        some r.confirmation ∧
      r.confirmation.success = some (decide (verdict = .passed)) := by
  obtain ⟨success, hsuccess, hread⟩ := bind_eq_ok.mp hread
  obtain ⟨question, -, hread⟩ := bind_eq_ok.mp hread
  obtain ⟨confirmation, hconfirmation, hread⟩ := bind_eq_ok.mp hread
  obtain ⟨_, hchain, hread⟩ := bind_eq_ok.mp hread
  obtain ⟨-, -, -, -, hverdict, -⟩ := require_eq_ok.mp hchain
  obtain rfl := Except.ok.inj hread
  exact ⟨orRaise_eq_ok.mp hsuccess, orRaise_eq_ok.mp hconfirmation, hverdict⟩

theorem passedReconnect (hpassed : reconnectConclusion .passed p = .ok ()) :
    ∃ h r postStart, PassedReconnect p h r postStart := by
  unfold reconnectConclusion at hpassed
  rw [if_neg (by simp)] at hpassed
  obtain ⟨h, hread, hpassed⟩ := bind_eq_ok.mp hpassed
  obtain ⟨_, hwritten, hpassed⟩ := bind_eq_ok.mp hpassed
  obtain ⟨_, hanswered, hpassed⟩ := bind_eq_ok.mp hpassed
  rw [if_pos (Or.inl rfl)] at hpassed
  obtain ⟨_, -, hpassed⟩ := bind_eq_ok.mp hpassed
  obtain ⟨r, hr, hpassed⟩ := bind_eq_ok.mp hpassed
  obtain ⟨_, hstarts, hpassed⟩ := bind_eq_ok.mp hpassed
  obtain ⟨postStart, hpost, hpassed⟩ := bind_eq_ok.mp hpassed
  obtain ⟨_, -, hpassed⟩ := bind_eq_ok.mp hpassed
  obtain ⟨_, -, hpassed⟩ := bind_eq_ok.mp hpassed
  obtain ⟨_, -, hpassed⟩ := bind_eq_ok.mp hpassed
  obtain ⟨_, -, hpassed⟩ := bind_eq_ok.mp hpassed
  obtain ⟨_, -, hpassed⟩ := bind_eq_ok.mp hpassed
  obtain ⟨_, -, hpassed⟩ := bind_eq_ok.mp hpassed
  obtain ⟨_, -, hpassed⟩ := bind_eq_ok.mp hpassed
  obtain ⟨hsuccess, hconfirmation, hverdict⟩ := readReconnected_eq_ok hr
  exact ⟨h, r, postStart,
    { read := hread
      written := hwritten
      answered := hanswered
      confirmed := hconfirmation
      preserved := hverdict
      succeeded := hsuccess
      starts := require_eq_ok.mp hstarts
      started := orRaise_eq_ok.mp hpost
      calm := require_eq_ok.mp hpassed rfl }⟩

/-- What a failed reconnect leaves in a trace, with the reason that names it. -/
inductive FailureSign (p : EvidencePayload) : Prop
  /-- The only exposure of the seed belongs to an event. -/
  | exposed (exposure : Action) (e : Event)
      (alone : actionNamed p.actionEvidence .providerReconnectSeedExposed = [exposure])
      (denied : exposure.success = some false) (listed : e ∈ p.eventEvidence)
      (bound : isExposed exposure e = true)
  /-- One action reports a failure, or one event does and at most one action. -/
  | reported (h : Handshake) (read : readHandshake p = .ok h)
      (few : (actionNamed p.actionEvidence .providerReconnectFailed).length ≤ 1)
      (proven : (∃ a, actionNamed p.actionEvidence .providerReconnectFailed = [a] ∧
          isFailureAction h a = true) ∨
        ((eventNamed p.eventEvidence .sessionFailed).filter (isSessionFailure h)).length = 1)
  /-- The first and the last start of any session name different dialogs. -/
  | dialogs (changed : dialogChanged (eventNamed p.eventEvidence .sessionStarted) = true)

theorem exposureConclusion_eq_ok : exposureConclusion p = .ok () ↔
    ∃ exposure, actionNamed p.actionEvidence .providerReconnectSeedExposed = [exposure] ∧
      exposure.success = some false ∧ ∃ e ∈ p.eventEvidence, isExposed exposure e = true := by
  unfold exposureConclusion
  constructor
  · intro h
    obtain ⟨exposure, hexposure, h⟩ := bind_eq_ok.mp h
    obtain ⟨hbound, hdenied⟩ := require_eq_ok.mp h
    exact ⟨exposure, only_eq_some.mp (orRaise_eq_ok.mp hexposure), hdenied,
      List.find?_isSome.mp hbound⟩
  · rintro ⟨exposure, halone, hdenied, hbound⟩
    exact bind_eq_ok.mpr ⟨exposure, orRaise_eq_ok.mpr (only_eq_some.mpr halone),
      require_eq_ok.mpr ⟨List.find?_isSome.mpr hbound, hdenied⟩⟩

theorem restoreFailed_eq_ok {h : Handshake} : restoreFailed p h = .ok () ↔
    (actionNamed p.actionEvidence .providerReconnectFailed).length ≤ 1 ∧
      ((∃ a, actionNamed p.actionEvidence .providerReconnectFailed = [a] ∧
          isFailureAction h a = true) ∨
        ((eventNamed p.eventEvidence .sessionFailed).filter (isSessionFailure h)).length = 1) := by
  unfold restoreFailed
  rw [require_eq_ok, Bool.or_eq_true, Option.any_eq_true, decide_eq_true_eq]
  simp only [only_eq_some]

/-- The new start that the passed chain found is the one of that ordinal in the whole trace. -/
theorem PassedReconnect.lifecycle_unchanged {h : Handshake} {r : Reconnected} {postStart : Event}
    (hpassed : PassedReconnect p h r postStart) (hnodup : (p.eventEvidence.map Event.ordinal).Nodup) :
    lifecycleChanged p (eventNamed p.eventEvidence .sessionStarted) ≠ .ok () := by
  intro hchanged
  obtain ⟨confirmation, hconfirmation, hchanged⟩ := bind_eq_ok.mp hchanged
  obtain rfl := Option.some.inj ((orRaise_eq_ok.mp hconfirmation).symm.trans hpassed.confirmed)
  obtain ⟨success, hsuccess, hchanged⟩ := bind_eq_ok.mp hchanged
  obtain rfl := Option.some.inj ((orRaise_eq_ok.mp hsuccess).symm.trans hpassed.succeeded)
  obtain ⟨start, hstart, hboundary⟩ := (Option.any_eq_true _ _).mp (require_eq_ok.mp hchanged)
  have hfound := List.find?_some hstart
  have hpost := List.find?_some hpassed.started
  simp only [isPostStart, decide_eq_true_eq] at hfound hpost
  have hlisted : start ∈ p.eventEvidence :=
    (List.mem_filter.mp (List.mem_of_find?_eq_some hstart)).1
  have hlisted' : postStart ∈ p.eventEvidence :=
    (List.mem_filter.mp (List.mem_filter.mp (List.mem_of_find?_eq_some hpassed.started)).1).1
  obtain rfl : start = postStart := List.inj_on_of_nodup_map hnodup hlisted hlisted'
    (Option.some.inj (hfound.symm.trans hpost.1))
  obtain ⟨e, he, hbound⟩ := List.any_eq_true.mp hboundary
  have hcalm := List.any_eq_false.mp hpassed.calm e he
  simp only [isBoundary, Bool.and_eq_true, decide_eq_true_eq] at hbound
  exact hcalm (Bool.and_eq_true_iff.mpr
    ⟨hbound.1, decide_eq_true ⟨hbound.2.1, hbound.2.2.1⟩⟩)

theorem hasReason_retold (options : List String) :
    hasReason (retold p version reason) options =
      options.any fun s => decide (reason = s.toList) := rfl

/-- The client confirmed the context, so it does not deny it. -/
theorem PassedReconnect.not_denied {h : Handshake} {r : Reconnected} {postStart : Event}
    (hpassed : PassedReconnect p h r postStart) :
    contextDenied .failed (retold p version reason) = false := by
  have hconfirmed : (only (actionNamed p.actionEvidence .providerReconnectContextConfirmed)).any
      (fun a => decide (a.success = some false)) = false := by
    rw [hpassed.confirmed]
    simp [hpassed.preserved]
  have hdenied : contextDenied .failed (retold p version reason) =
      (decide (Verdict.failed = .failed) && hasReason (retold p version reason) [restoreReason] &&
        (only (actionNamed p.actionEvidence .providerReconnectContextConfirmed)).any
          fun a => decide (a.success = some false)) := rfl
  rw [hdenied, hconfirmed, Bool.and_false]

/-- A failure told of a passed trace is accepted as soon as its own check is. -/
theorem PassedReconnect.failed_of_failure {h : Handshake} {r : Reconnected} {postStart : Event}
    (hpassed : PassedReconnect p h r postStart)
    (hother : hasReason (retold p p.schemaVersion reason) [exposedReason] = false)
    (hfailure : reconnectFailure (retold p p.schemaVersion reason) h = .ok ()) :
    reconnectConclusion .failed (retold p p.schemaVersion reason) = .ok () := by
  unfold reconnectConclusion
  rw [if_neg (by simp [hother])]
  refine bind_eq_ok.mpr ⟨h, hpassed.read, bind_eq_ok.mpr ⟨(), hpassed.written,
    bind_eq_ok.mpr ⟨(), hpassed.answered, ?_⟩⟩⟩
  rw [if_neg (by simp [hpassed.not_denied])]
  exact hfailure

theorem PassedReconnect.failed_of_sign {h : Handshake} {r : Reconnected} {postStart : Event}
    (hpassed : PassedReconnect p h r postStart) (hsign : FailureSign p) :
    ∃ reason, reconnectConclusion .failed (retold p p.schemaVersion reason) = .ok () := by
  cases hsign with
  | exposed exposure e alone denied listed bound =>
    refine ⟨exposedReason.toList, ?_⟩
    unfold reconnectConclusion
    rw [if_pos ⟨rfl, by rw [hasReason_retold]; decide⟩]
    exact exposureConclusion_eq_ok.mpr ⟨exposure, alone, denied, e, listed, bound⟩
  | reported h' read few proven =>
    obtain rfl : h = h' := Except.ok.inj (hpassed.read.symm.trans read)
    refine ⟨restoreReason.toList, hpassed.failed_of_failure
      (by rw [hasReason_retold]; decide) ?_⟩
    unfold reconnectFailure
    refine bind_eq_ok.mpr ⟨(), require_eq_ok.mpr (by rw [hasReason_retold]; decide), ?_⟩
    rw [if_pos (by rw [hasReason_retold]; decide)]
    exact restoreFailed_eq_ok.mpr ⟨few, proven⟩
  | dialogs changed =>
    refine ⟨dialogReason.toList, hpassed.failed_of_failure
      (by rw [hasReason_retold]; decide) ?_⟩
    unfold reconnectFailure
    refine bind_eq_ok.mpr ⟨(), require_eq_ok.mpr (by rw [hasReason_retold]; decide), ?_⟩
    rw [if_neg (by rw [hasReason_retold]; decide)]
    have hstarts : 2 ≤ (eventNamed p.eventEvidence .sessionStarted).length :=
      hpassed.starts.trans (List.length_filter_le _ _)
    refine bind_eq_ok.mpr ⟨(), require_eq_ok.mpr hstarts, ?_⟩
    rw [if_neg (by rw [hasReason_retold]; decide)]
    exact require_eq_ok.mpr changed

theorem PassedReconnect.sign_of_failure {h : Handshake} {r : Reconnected} {postStart : Event}
    (hpassed : PassedReconnect p h r postStart)
    (hnodup : (p.eventEvidence.map Event.ordinal).Nodup)
    (hfailure : reconnectFailure (retold p version reason) h = .ok ()) : FailureSign p := by
  obtain ⟨_, -, hfailure⟩ := bind_eq_ok.mp hfailure
  by_cases hrestore : hasReason (retold p version reason) [restoreReason] = true
  · rw [if_pos hrestore] at hfailure
    obtain ⟨few, proven⟩ := restoreFailed_eq_ok.mp hfailure
    exact .reported h hpassed.read few proven
  · rw [if_neg hrestore] at hfailure
    obtain ⟨_, -, hfailure⟩ := bind_eq_ok.mp hfailure
    by_cases hlifecycle : hasReason (retold p version reason) [lifecycleReason] = true
    · rw [if_pos hlifecycle] at hfailure
      exact absurd hfailure (hpassed.lifecycle_unchanged hnodup)
    · rw [if_neg hlifecycle] at hfailure
      exact .dialogs (require_eq_ok.mp hfailure)

theorem PassedReconnect.sign_of_failed {h : Handshake} {r : Reconnected} {postStart : Event}
    (hpassed : PassedReconnect p h r postStart)
    (hnodup : (p.eventEvidence.map Event.ordinal).Nodup)
    (hfailed : reconnectConclusion .failed (retold p version reason) = .ok ()) :
    FailureSign p := by
  unfold reconnectConclusion at hfailed
  by_cases hexposed : Verdict.failed = .failed ∧
      hasReason (retold p version reason) [exposedReason] = true
  · rw [if_pos hexposed] at hfailed
    obtain ⟨exposure, alone, denied, e, listed, bound⟩ := exposureConclusion_eq_ok.mp hfailed
    exact .exposed exposure e alone denied listed bound
  · rw [if_neg hexposed] at hfailed
    obtain ⟨h', hread, hfailed⟩ := bind_eq_ok.mp hfailed
    obtain rfl : h = h' := Except.ok.inj (hpassed.read.symm.trans hread)
    obtain ⟨_, -, hfailed⟩ := bind_eq_ok.mp hfailed
    obtain ⟨_, -, hfailed⟩ := bind_eq_ok.mp hfailed
    rw [if_neg (by simp [hpassed.not_denied])] at hfailed
    exact hpassed.sign_of_failure hnodup hfailed

/-- A trace accepted as passed is accepted as failed under no schema and no reason, if and only if
it is not the one of a reconnect that shows the sign of a failure. -/
theorem verdicts_exclusive (key : VoiceCapability) (p : EvidencePayload)
    (hpassed : Accepted key .passed p) :
    (∀ version reason, ¬ Accepted key .failed (retold p version reason)) ↔
      (key = .sessionReconnect → ¬ FailureSign p) := by
  obtain ⟨hnodup, hpassed⟩ := accepted_iff.mp hpassed
  have hfailed : ∀ version reason, Accepted key .failed (retold p version reason) ↔
      (match key with
        | .currentTurnRagGate => ragConclusion .failed (retold p version reason)
        | .replyCancel => cancelConclusion .failed (retold p version reason)
        | .contextTruncate => truncateConclusion .failed (retold p version reason)
        | .playbackTextMapping => mappingConclusion .failed (retold p version reason)
        | .sentencePlaybackAck => ackConclusion .failed (retold p version reason)
        | .sessionReconnect => reconnectConclusion .failed (retold p version reason)) = .ok () :=
    fun version reason => accepted_iff.trans (and_iff_right hnodup)
  simp only [hfailed]
  cases key with
  | currentTurnRagGate => exact iff_of_true (fun _ _ => rag_exclusive hpassed) nofun
  | replyCancel => exact iff_of_true (fun _ _ => cancel_exclusive hpassed) nofun
  | contextTruncate => exact iff_of_true (fun _ _ => truncate_exclusive hpassed) nofun
  | playbackTextMapping => exact iff_of_true (fun _ _ => mapping_exclusive hpassed) nofun
  | sentencePlaybackAck => exact iff_of_true (fun _ _ => ack_exclusive hpassed) nofun
  | sessionReconnect =>
    obtain ⟨h, r, postStart, hpassed⟩ := passedReconnect hpassed
    constructor
    · intro hexclusive _ hsign
      obtain ⟨reason, hfailed⟩ := hpassed.failed_of_sign hsign
      exact hexclusive _ _ hfailed
    · intro hclean version reason hfailed
      exact hclean rfl (hpassed.sign_of_failed hnodup hfailed)

/-! ### A recorded reconnect -/

def sampleToken (n : ℕ) : Text :=
  "hmac256:".toList ++ List.replicate 23 '0' ++ [Nat.digitChar n]

def sampleTokens (fields : List (String × ℕ)) : Dict Text Text :=
  fields.map fun f => (f.1.toList, sampleToken f.2)

def sampleEvent (ordinal eventId : ℤ) (name : EventName) (probeMatch : Bool)
    (fields : List (String × ℕ)) : Event :=
  { ordinal := ordinal, receivedAtMs := 100 * ordinal, eventId := some eventId
    eventName := name, messageType := .serverFullResponse, payloadKind := .object
    isAudio := false, parseError := false, probeMatch := probeMatch
    correlationTokens := sampleTokens (("frame.session_id", 1) :: fields)
    payloadShape := ⟨[], [], [], [], []⟩ }

def sampleAction (action : ActionName) (atMs : ℤ) (fields : List (String × ℕ)) : Action :=
  { action := action, atMs := atMs, replyActive := none, success := some true
    sentenceToken := none, stopToken := none, sessionToken := some (sampleToken 1)
    localStopAtMs := none, providerOrdinalAfterSend := none, providerOrdinalAfterAck := none
    providerOrdinalBeforeAttempt := none, providerOrdinalAfterReconnect := none
    providerEventOrdinal := none, sourceAsrOrdinal := none, contextAckOrdinal := none
    targetTtsStartOrdinal := none, targetReplyGeneration := none, sentenceBoundaryOrdinal := none
    correlationTokens := sampleTokens fields }

/-- A seed and its reply, a new start of the session, a question and its answer. -/
def sampleReconnect : EvidencePayload where
  schemaVersion := .phase0
  reasonCode := preservedReason.toList
  eventEvidence :=
    [sampleEvent 1 150 .sessionStarted false [("payload.dialog_id", 2)],
      sampleEvent 2 451 .asrResponse false [("payload.question_id", 3)],
      sampleEvent 3 550 .chatResponse false [("payload.question_id", 3), ("payload.reply_id", 4)],
      sampleEvent 4 559 .chatEnded false [("payload.question_id", 3), ("payload.reply_id", 4)],
      sampleEvent 5 150 .sessionStarted false [("payload.dialog_id", 2)],
      sampleEvent 6 451 .asrResponse false [("payload.question_id", 5)],
      sampleEvent 7 550 .chatResponse true [("payload.question_id", 5), ("payload.reply_id", 6)],
      sampleEvent 8 559 .chatEnded false [("payload.question_id", 5), ("payload.reply_id", 6)]]
  actionEvidence :=
    [{ sampleAction .providerReconnectSeedInjected 250
        [("payload.question_id", 3), ("payload.reply_id", 4)] with
          providerOrdinalAfterSend := some 2 },
      { sampleAction .providerReconnectAttempt 450 [("frame.session_id", 1)] with
          providerOrdinalBeforeAttempt := some 4 },
      { sampleAction .providerReconnectSucceeded 550 [("frame.session_id", 1)] with
          providerOrdinalAfterReconnect := some 5 },
      { sampleAction .providerReconnectQuestionObserved 650 [("frame.session_id", 1)] with
          providerEventOrdinal := some 6 },
      { sampleAction .providerReconnectContextConfirmed 850
        [("payload.question_id", 5), ("payload.reply_id", 6)] with
          providerOrdinalAfterAck := some 8 }]

theorem verdicts_exclusive_reconnect :
    (∀ version reason,
      ¬ Accepted .sessionReconnect .failed (retold sampleReconnect version reason)) ↔
      (VoiceCapability.sessionReconnect = .sessionReconnect → ¬ FailureSign sampleReconnect) :=
  verdicts_exclusive .sessionReconnect sampleReconnect (by decide)

/-- The client saw as well that the provider gave the seed away with its third event. -/
def sampleExposed : EvidencePayload :=
  { sampleReconnect with actionEvidence := sampleReconnect.actionEvidence ++
      [{ sampleAction .providerReconnectSeedExposed 350 [("frame.session_id", 1)] with
          success := some false, providerEventOrdinal := some 3 }] }

theorem verdicts_conflict :
    Accepted .sessionReconnect .passed sampleExposed ∧
      Accepted .sessionReconnect .failed
        (retold sampleExposed .phase0 exposedReason.toList) := by
  decide

end CompanionBackend.EvidenceConclusions
