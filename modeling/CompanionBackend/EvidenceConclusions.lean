import CompanionBackend.EvidenceTraces
import CompanionBackend.Rankings

/-!
# Conclusions from a trace

For each of the six capabilities there is a chain of events and actions that a test must have left
for it to be declared passed, and signs of a failure for it to be declared failed. Most links of a
chain are found by their ordinals; some are the first or the last of a list as it was handed in.
-/
namespace CompanionBackend.EvidenceConclusions

open Runs ProviderEvents Dictionaries CapabilityRules EvidenceTraces Rankings

def isHexLower (c : Char) : Bool := c.isDigit || decide ('a' ≤ c ∧ c ≤ 'f')

/-- `^hmac256:[0-9a-f]{24}$`. -/
def isHmacToken (t : Text) : Bool :=
  decide (t.take 8 = "hmac256:".toList) && decide (t.length = 32) && (t.drop 8).all isHexLower

/-- What counts as true of a token. -/
def present (t : Option Text) : Option Text := t.filter fun s => !s.isEmpty

/-! ### Sentences and their audio -/

inductive IdentityKind
  | sentenceId | exactText | adjacentEndText
  deriving DecidableEq, Repr

/-- `boundary_identity`. -/
def boundaryIdentity (start stop : Event) : Option (IdentityKind × Text) :=
  let sentence := (start.token "payload.sentence_id").filter isHmacToken
  let startText := Dict.get start.payloadShape.textFields "payload.text".toList
  let stopText := Dict.get stop.payloadShape.textFields "payload.text".toList
  if sentence.isSome ∧ sentence = stop.token "payload.sentence_id" then
    sentence.map fun id => (.sentenceId, id)
  else
    match startText with
    | none => none
    | some s =>
      if isHmacToken s.token = true ∧ 0 < s.chars ∧ stopText.map TextField.token = some s.token then
        some (.exactText, s.token)
      else
        match stopText with
        | none => none
        | some e =>
          if isHmacToken s.token = true ∧ s.chars = 0 ∧ isHmacToken e.token = true ∧ 0 < e.chars then
            some (.adjacentEndText, e.token)
          else none

/-- Session, question and reply of a boundary, if all of them are there. -/
def boundaryKey (e : Event) : Option (Text × Text × Text) := do
  let session ← present (e.token "frame.session_id")
  let question ← present (e.token "payload.question_id")
  let reply ← present (e.token "payload.reply_id")
  some (session, question, reply)

/-- `groups.setdefault(key, []).append(boundary)`. -/
def addBoundary (groups : Dict (Text × Text × Text) (List Event)) (e : Event) :
    Dict (Text × Text × Text) (List Event) :=
  match boundaryKey e with
  | some key => Dict.set groups key ((Dict.get groups key).getD [] ++ [e])
  | none => groups

def boundaryGroups (events : List Event) : Dict (Text × Text × Text) (List Event) :=
  (sortBy Event.ordinal (eventNamed events .ttsSentenceStart ++
    eventNamed events .ttsSentenceEnd)).foldl addBoundary []

def isWindowAudio (start stop audio : Event) : Bool :=
  decide (start.ordinal < audio.ordinal ∧ audio.ordinal < stop.ordinal ∧
    start.receivedAtMs ≤ audio.receivedAtMs ∧ audio.receivedAtMs ≤ stop.receivedAtMs) &&
  sameCorrelation start.correlationTokens audio.correlationTokens ["frame.session_id"]

/-- The loop over the pairs of a group. -/
def pairWindows (audio : List Event) : List (Option (IdentityKind × Text)) → List Event →
    Except Causal (List (Event × Event))
  | identities, start :: stop :: rest => do
    let identity := boundaryIdentity start stop
    require (start.eventName = .ttsSentenceStart ∧ stop.eventName = .ttsSentenceEnd ∧
      start.ordinal < stop.ordinal ∧ start.receivedAtMs ≤ stop.receivedAtMs ∧
      identity.isSome = true ∧ identity ∉ identities) .boundariesAmbiguous
    require (audio.any (isWindowAudio start stop) = true) .windowSilent
    let windows ← pairWindows audio (identity :: identities) rest
    .ok ((start, stop) :: windows)
  | _, _ => .ok []

def groupWindows (audio boundaries : List Event) : Except Causal (List (Event × Event)) :=
  if boundaries.any (fun e => decide (e.eventName = .ttsSentenceStart)) = true ∧
      boundaries.any (fun e => decide (e.eventName = .ttsSentenceEnd)) = true then do
    require (boundaries.length % 2 = 0) .boundariesUnpaired
    pairWindows audio [] boundaries
  else .ok []

/-- `_validate_mapping_window`: the first window there is. -/
def validateMappingWindow (events : List Event) : Except Causal (Event × Event) := do
  let audio := (eventNamed events .ttsResponse).filter fun e =>
    e.isAudio && decide (e.payloadKind = .binary)
  let windows ← (boundaryGroups events).mapM fun group => groupWindows audio group.2
  orRaise windows.flatten.head? .windowMissing

/-! ### Interrupting a reply -/

def replyFields : List String := ["payload.question_id", "payload.reply_id"]

/-- An interrupt that names its reply, its generation and the ordinals around it. -/
structure Interrupt where
  action : Action
  target : ℤ
  sent : ℤ
  generation : ℤ
  localStop : ℤ

def readInterrupt (a : Action) : Option Interrupt := do
  let target ← a.targetTtsStartOrdinal
  let sent ← a.providerOrdinalAfterSend
  let generation ← a.targetReplyGeneration
  let localStop ← a.localStopAtMs
  if a.success = some true ∧ a.replyActive = some true then
    some ⟨a, target, sent, generation, localStop⟩
  else none

def isInterruptStart (i : Interrupt) (e : Event) : Bool :=
  decide (e.ordinal = i.target ∧ e.ordinal ≤ i.sent ∧ e.receivedAtMs ≤ i.action.atMs) &&
  sameCorrelation e.correlationTokens i.action.correlationTokens replyFields &&
  (e.token "frame.session_id").isSome

def isStopAck (i : Interrupt) (start : Event) (a : Action) : Bool :=
  decide (a.stopToken = i.action.stopToken ∧ a.targetReplyGeneration = some i.generation ∧
    i.localStop ≤ a.atMs) &&
  a.providerOrdinalAfterAck.any fun watermark => decide (start.ordinal ≤ watermark)

def isInterruptTerminal (i : Interrupt) (start e : Event) : Bool :=
  decide (i.sent < e.ordinal ∧ i.action.atMs < e.receivedAtMs) &&
  sameCorrelation e.correlationTokens i.action.correlationTokens replyFields &&
  sameCorrelation e.correlationTokens start.correlationTokens ["frame.session_id"]

def isLateAudio (i : Interrupt) (start e : Event) : Bool :=
  decide (e.eventName = .ttsResponse) && e.isAudio &&
  decide (i.action.atMs + 350 < e.receivedAtMs) &&
  sameCorrelation e.correlationTokens start.correlationTokens ["frame.session_id"]

/-- The reply ended and the client stopped in time, and no audio came late. -/
def provenSuccess (i : Interrupt) (stopAck : Action) (terminal : ℤ) (lateAudio : Bool) : Bool :=
  decide (stopAck.success = some true) && decide (terminal ≤ i.action.atMs + 350) &&
  decide (stopAck.atMs ≤ i.localStop + 350) && !lateAudio

def provenFailure (i : Interrupt) (stopAck : Action) (terminal : ℤ) (lateAudio : Bool) : Bool :=
  decide (stopAck.success = some false) || !decide (terminal ≤ i.action.atMs + 350) ||
  !decide (stopAck.atMs ≤ i.localStop + 350) || lateAudio

/-- `_validate_interrupt_window`; without an expected success any outcome is fine. -/
def validateInterruptWindow (events : List Event) (actions : List Action)
    (expectSuccess : Option Bool) : Except Causal Unit := do
  let interrupt ← orRaise (only (actionNamed actions .clientInterruptSent)) .interruptMissing
  let stopAcks := actionNamed actions .clientStopPlaybackApplied
  require (stopAcks ≠ []) .interruptMissing
  let i ← orRaise (readInterrupt interrupt) .interruptUnanchored
  let start ← orRaise ((eventNamed events .ttsSentenceStart).find? (isInterruptStart i))
    .interruptUnbound
  require (start.receivedAtMs ≤ i.localStop ∧ i.localStop ≤ i.action.atMs) .interruptUnbound
  let stopAck ← orRaise (only (stopAcks.filter (isStopAck i start))) .stopAckUnbound
  let terminals := (eventNamed events .ttsEnded).filter (isInterruptTerminal i start)
  let first ← orRaise (terminals.map Event.receivedAtMs).min? .terminalMissing
  let lateAudio := events.any (isLateAudio i start)
  require (expectSuccess = some true → provenSuccess i stopAck first lateAudio = true)
    .cancelNotProven
  require (expectSuccess = some false → provenFailure i stopAck first lateAudio = true)
    .cancelFailureNotProven

/-! ### Writing a context before a reconnect -/

/-- A field of one of the two items that a context consists of. -/
def itemPath (index field : String) : Text := ("payload.items." ++ index ++ "." ++ field).toList

/-- One item of the context: its role of a known length, a text, an id and a timestamp. -/
def itemComplete (ack : Event) (index : String) (roleLength : ℤ) : Bool :=
  let shape := ack.payloadShape
  (Dict.get shape.textFields (itemPath index "role")).any (fun role =>
    decide (role.chars = roleLength) && isHmacToken role.token) &&
  (Dict.get shape.textFields (itemPath index "text")).any (fun body =>
    decide (0 < body.chars) && isHmacToken body.token) &&
  (Dict.get ack.correlationTokens (itemPath index "item_id")).any isHmacToken &&
  decide (Dict.get shape.numericFields (itemPath index "timestamp") = some .integer)

def contextObjectKeys : List Text :=
  "payload.items".toList :: ["0", "1"].flatMap fun i =>
    ["item_id", "role", "text", "timestamp"].map (itemPath i)

def turnNames : List EventName :=
  [.sessionStarted, .sessionFailed, .sessionFinished, .chatResponse, .chatEnded, .ttsSentenceStart]

/-- `_validate_reconnect_context_write`. -/
def validateReconnectContextWrite (seed : Action) (events : List Event) (actions : List Action) :
    Except Causal Unit := do
  let write ← orRaise (only (actionNamed actions .providerReconnectContextWritten))
    .contextWriteMissing
  require (write.success = some true) .contextWriteMissing
  let before ← orRaise write.providerOrdinalAfterSend .contextWriteMismatch
  let ackOrdinal ← orRaise seed.contextAckOrdinal .contextWriteMismatch
  let seedOrdinal ← orRaise seed.providerOrdinalAfterSend .contextWriteMismatch
  let session ← orRaise seed.sessionToken .contextWriteMismatch
  let nonce ← orRaise (seed.token "phase0.reconnect_seed") .contextWriteMismatch
  require (0 ≤ before ∧ before < ackOrdinal ∧ ackOrdinal < seedOrdinal ∧
    write.sessionToken = some session ∧ isHmacToken nonce = true ∧
    write.token "phase0.reconnect_seed" = some nonce) .contextWriteMismatch
  let window := events.filter fun e =>
    decide (before < e.ordinal ∧ e.ordinal < seedOrdinal ∧
      e.token "frame.session_id" = some session)
  let ack ← orRaise (only (window.filter fun e => decide (e.eventId = some 567)))
    .contextAckMissing
  require (ack.ordinal = ackOrdinal ∧ ack.eventName = .conversationCreated ∧
    ack.messageType = .serverFullResponse ∧ ack.parseError = false ∧ ack.isAudio = false ∧
    ack.payloadKind = .object ∧ write.atMs ≤ ack.receivedAtMs ∧ ack.receivedAtMs ≤ seed.atMs ∧
    ack.token "phase0.reconnect_seed" = some nonce) .contextAckUnconfirmed
  require (Dict.get ack.payloadShape.listLengths "payload.items".toList = some 2 ∧
    (contextObjectKeys.all fun k => decide (k ∈ ack.payloadShape.objectKeys)) = true)
    .contextFieldsMissing
  require (itemComplete ack "0" 4 = true ∧ itemComplete ack "1" 9 = true) .contextFieldsIncomplete
  require ((window.any fun e => decide (e.eventName ∈ turnNames ∨
    e.ordinal < ackOrdinal ∧ e.eventName ∈ [EventName.asrInfo, EventName.asrResponse])) = false)
    .contextDisturbed

/-! ### Answering with what was recalled -/

def hasReason (p : EvidencePayload) (options : List String) : Bool :=
  options.any fun s => decide (p.reasonCode = s.toList)

/-- Session, question and reply are those of the action. -/
def inReply (a : Action) (e : Event) : Bool :=
  sameCorrelation e.correlationTokens a.correlationTokens ["frame.session_id"] &&
  sameCorrelation e.correlationTokens a.correlationTokens replyFields

def isRagSource (a : Action) (e : Event) : Bool :=
  decide (a.success = some true ∧ a.sourceAsrOrdinal = some e.ordinal ∧
    a.providerOrdinalAfterSend = some e.ordinal ∧ e.receivedAtMs ≤ a.atMs) &&
  sameCorrelation e.correlationTokens a.correlationTokens ["frame.session_id"] &&
  ["phase0.asr_question", "payload.question_id"].any fun f =>
    sameCorrelation e.correlationTokens a.correlationTokens [f]

/-- Events behind the last listed one of some responses. -/
def behindLast (responses : List Event) (e : Event) : Bool :=
  responses.getLast?.any fun r => decide (r.ordinal < e.ordinal)

def ragResponses (events : List Event) (action : Action) (source : Event) : List Event :=
  (eventNamed events .chatResponse).filter fun e =>
    decide (source.ordinal < e.ordinal) && inReply action e

def ragEndings (events : List Event) (action : Action) (responses : List Event) : List Event :=
  (eventNamed events .chatEnded).filter fun e => behindLast responses e && inReply action e

/-- `window_has_other_reply`. -/
def otherReply (events : List Event) (action : Action) (source : Event) : Bool :=
  events.any fun e => decide (e.eventName ∈ [EventName.chatResponse, EventName.chatEnded] ∧
    source.ordinal < e.ordinal) && !inReply action e

def ragPassed (events : List Event) (action : Action) (source : Event) : Bool :=
  let responses := ragResponses events action source
  !responses.isEmpty && responses.any Event.probeMatch &&
    decide ((ragEndings events action responses).length = 1) && !otherReply events action source

def ragFailed (events : List Event) (action : Action) (source : Event) : Bool :=
  !(ragEndings events action (ragResponses events action source)).isEmpty &&
    !ragPassed events action source

def ragConclusion (verdict : Verdict) (p : EvidencePayload) : Except Causal Unit := do
  require (hasReason p [match verdict with
    | .passed => "same_turn_probe_matched_single_reply"
    | .failed => "same_turn_probe_not_confirmed_or_double_reply"] = true) .ragReason
  let action ← orRaise (only (actionNamed p.actionEvidence .ragProbeInjected)) .ragAttempts
  let source ← orRaise ((eventNamed p.eventEvidence .asrResponse).find? (isRagSource action))
    .ragSource
  require ((match verdict with
    | .passed => ragPassed p.eventEvidence action source
    | .failed => ragFailed p.eventEvidence action source) = true) .ragChain

/-! ### Cancelling, truncating, mapping, acknowledging -/

def cancelConclusion (verdict : Verdict) (p : EvidencePayload) : Except Causal Unit := do
  require (hasReason p [match verdict with
    | .passed => "active_reply_cancelled_and_local_stop_applied_within_grace"
    | .failed => "provider_cancel_or_local_stop_exceeded_grace"] = true) .cancelReason
  validateInterruptWindow p.eventEvidence p.actionEvidence (some (decide (verdict = .passed)))

/-- The id of a truncation is not among the names. -/
def truncateIdIsAuthoritative : Bool :=
  EventName.ofId.any fun e => decide (e.2 = .conversationTruncated)

def truncateConclusion (verdict : Verdict) (p : EvidencePayload) : Except Causal Unit := do
  require (hasReason p [match verdict with
    | .passed => "conversation_truncated_event_observed"
    | .failed => if truncateIdIsAuthoritative then "conversation_truncated_event_not_observed"
      else "conversation_truncated_event_id_not_authoritative"] = true) .truncateReason
  validateInterruptWindow p.eventEvidence p.actionEvidence none
  require (decide (verdict = .passed) = !(eventNamed p.eventEvidence .conversationTruncated).isEmpty)
    .truncatePresence

def mappingPassedReasons : List String :=
  ["adjacent_provider_sentence_end_text_reply_session_correlates_with_audio",
    "sentence_identity_reply_session_boundaries_correlate_with_audio"]

def ambiguousReason : String := "provider_sentence_boundary_sequence_is_ambiguous"
def noAudioReason : String := "correlated_sentence_window_contains_no_audio"

def mappingConclusion (verdict : Verdict) (p : EvidencePayload) : Except Causal Unit := do
  require (hasReason p (match verdict with
    | .passed => mappingPassedReasons
    | .failed => [ambiguousReason, noAudioReason]) = true) .mappingReason
  match verdict with
  | .passed =>
    let _ ← validateMappingWindow p.eventEvidence
    .ok ()
  | .failed =>
    let probe := (eventNamed p.eventEvidence .ttsSentenceStart).any fun start =>
      (eventNamed p.eventEvidence .ttsSentenceEnd).any fun stop =>
        decide (start.ordinal < stop.ordinal) &&
        sameCorrelation start.correlationTokens stop.correlationTokens
          ("frame.session_id" :: replyFields)
    require (probe = true) .mappingProbe
    match validateMappingWindow p.eventEvidence with
    | .error failure => do
      require (hasReason p [noAudioReason] = true → failure.saysSilence = true) .mappingSilence
      require (hasReason p [ambiguousReason] = true → failure.saysSilence = false)
        .mappingAmbiguity
    | .ok _ => .error .mappingComplete

def isSentenceAck (stop : Event) (a : Action) : Bool :=
  decide (a.sentenceBoundaryOrdinal = some stop.ordinal ∧
    stop.ordinal ≤ a.providerOrdinalAfterAck.getD (-1) ∧ stop.receivedAtMs ≤ a.atMs ∧
    a.sentenceToken = stop.token "phase0.sentence_boundary")

def ackConclusion (verdict : Verdict) (p : EvidencePayload) : Except Causal Unit := do
  require (hasReason p [match verdict with
    | .passed => "client_confirmed_exact_provider_sentence_played"
    | .failed => "client_sentence_ack_failed_for_correlated_boundary"] = true) .ackReason
  let window ← validateMappingWindow p.eventEvidence
  let ack ← orRaise (only ((actionNamed p.actionEvidence .clientSentencePlayed).filter
    (isSentenceAck window.2))) .ackUnbound
  require (ack.success = some (decide (verdict = .passed))) .ackUnbound

/-! ### Reconnecting a session -/

def exposedReason : String := "reconnect_seed_exposed_before_disconnect"
def preservedReason : String := "hidden_seed_preserved_across_same_session_reconnect"
def lifecycleReason : String := "same_session_reconnect_lifecycle_changed_after_handshake"
def dialogReason : String := "same_session_reconnect_dialog_id_changed"
def restoreReason : String := "same_session_reconnect_or_hidden_context_restore_failed"

def isExposed (exposure : Action) (e : Event) : Bool :=
  decide (exposure.providerEventOrdinal = some e.ordinal ∧ e.receivedAtMs ≤ exposure.atMs) &&
  sameCorrelation e.correlationTokens exposure.correlationTokens ["frame.session_id"]

/-- A seed that the provider gave away before the connection was cut. -/
def exposureConclusion (p : EvidencePayload) : Except Causal Unit := do
  let exposure ← orRaise (only (actionNamed p.actionEvidence .providerReconnectSeedExposed))
    .exposureMissing
  require ((p.eventEvidence.find? (isExposed exposure)).isSome = true ∧
    exposure.success = some false) .exposureUnbound

/-- The seed, the attempt to reconnect and what they agree on. -/
structure Handshake where
  seed : Action
  attempt : Action
  session : Text
  seedAsr : Event

def beforeAttempt (a : Action) : ℤ := a.providerOrdinalBeforeAttempt.getD (-1)

def inSession (session : Text) (e : Event) : Bool :=
  decide (e.token "frame.session_id" = some session)

def isSeedAsr (seed : Action) (session : Text) (e : Event) : Bool :=
  decide (seed.providerOrdinalAfterSend = some e.ordinal ∧ e.receivedAtMs ≤ seed.atMs) &&
  inSession session e

def readHandshake (p : EvidencePayload) : Except Causal Handshake := do
  let seed ← orRaise (only (actionNamed p.actionEvidence .providerReconnectSeedInjected))
    .reconnectActions
  let attempt ← orRaise (only (actionNamed p.actionEvidence .providerReconnectAttempt))
    .reconnectActions
  let session ← orRaise seed.sessionToken .reconnectSession
  require (seed.success = some true ∧ attempt.success = some true ∧
    attempt.sessionToken = some session) .reconnectSession
  let seedAsr ← orRaise ((eventNamed p.eventEvidence .asrResponse).find? (isSeedAsr seed session))
    .reconnectSeedChain
  require (seedAsr.ordinal ≤ beforeAttempt attempt) .reconnectSeedChain
  .ok ⟨seed, attempt, session, seedAsr⟩

/-- An event of the reply that an action belongs to, in a session. -/
def inSessionReply (session : Text) (a : Action) (e : Event) : Bool :=
  inSession session e && sameCorrelation e.correlationTokens a.correlationTokens replyFields

def seedResponses (events : List Event) (h : Handshake) : List Event :=
  (eventNamed events .chatResponse).filter fun e =>
    decide (h.seedAsr.ordinal < e.ordinal ∧ e.ordinal ≤ beforeAttempt h.attempt) &&
    inSessionReply h.session h.seed e

def seedEndings (events : List Event) (h : Handshake) (responses : List Event) : List Event :=
  (eventNamed events .chatEnded).filter fun e =>
    behindLast responses e && decide (e.ordinal ≤ beforeAttempt h.attempt) &&
    inSessionReply h.session h.seed e

/-- Records of the second schema show as well how the context was written. -/
def contextWritten (p : EvidencePayload) (seed : Action) : Except Causal Unit :=
  if p.schemaVersion = .context then
    validateReconnectContextWrite seed p.eventEvidence p.actionEvidence
  else .ok ()

/-- The seed was answered before the connection was cut. -/
def seedAnswered (events : List Event) (h : Handshake) : Except Causal Unit :=
  let responses := seedResponses events h
  require (responses ≠ [] ∧ (seedEndings events h responses).length = 1) .reconnectSeedReply

/-- What a client does once it is connected again. -/
structure Reconnected where
  success : Action
  question : Action
  confirmation : Action

def readReconnected (verdict : Verdict) (p : EvidencePayload) (session : Text) :
    Except Causal Reconnected := do
  let success ← orRaise (only (actionNamed p.actionEvidence .providerReconnectSucceeded))
    .reconnectActionChain
  let question ← orRaise (only (actionNamed p.actionEvidence .providerReconnectQuestionObserved))
    .reconnectActionChain
  let confirmation ← orRaise
    (only (actionNamed p.actionEvidence .providerReconnectContextConfirmed)) .reconnectActionChain
  require (success.success = some true ∧ success.sessionToken = some session ∧
    question.success = some true ∧ question.sessionToken = some session ∧
    confirmation.success = some (decide (verdict = .passed)) ∧
    confirmation.sessionToken = some session) .reconnectActionChain
  .ok ⟨success, question, confirmation⟩

def sessionStarts (events : List Event) (session : Text) : List Event :=
  (eventNamed events .sessionStarted).filter (inSession session)

def isPostStart (h : Handshake) (r : Reconnected) (e : Event) : Bool :=
  decide (r.success.providerOrdinalAfterReconnect = some e.ordinal ∧
    beforeAttempt h.attempt < e.ordinal)

def isQuestionAsr (h : Handshake) (r : Reconnected) (postStart e : Event) : Bool :=
  decide (r.question.providerEventOrdinal = some e.ordinal ∧ postStart.ordinal < e.ordinal) &&
  inSession h.session e

def answers (events : List Event) (h : Handshake) (r : Reconnected) (questionAsr : Event) :
    List Event :=
  (eventNamed events .chatResponse).filter fun e =>
    decide (questionAsr.ordinal < e.ordinal) && inSessionReply h.session r.confirmation e

def answerEndings (events : List Event) (h : Handshake) (r : Reconnected)
    (responses : List Event) : List Event :=
  (eventNamed events .chatEnded).filter fun e =>
    behindLast responses e && inSessionReply h.session r.confirmation e

def inputNames : List EventName :=
  [.asrInfo, .asrResponse, .asrEnded, .chatResponse, .chatEnded, .ttsSentenceStart,
    .ttsSentenceEnd, .ttsResponse, .ttsEnded]

/-- What lies between the new start and the question, besides what does not matter. -/
def questionPrefix (events : List Event) (postStart questionAsr : Event) : List Event :=
  sortBy Event.ordinal (events.filter fun e =>
    decide (postStart.ordinal < e.ordinal ∧ e.ordinal < questionAsr.ordinal) &&
    (e.parseError || decide (e.eventName ∈ inputNames)))

def questionIdentity (e : Event) : Option Text :=
  (present (e.token "payload.question_id")).or (present (e.token "phase0.asr_question"))

/-- Nothing was said before the question but the question itself. -/
def prefixClean (h : Handshake) (r : Reconnected) (questionAsr : Event) : List Event → Bool
  | [] => true
  | first :: rest =>
    decide (first.eventName = .asrInfo) &&
    (rest.all fun e => decide (e.eventName = .asrResponse)) &&
    (questionIdentity questionAsr).isSome &&
    (first :: rest).all fun e =>
      decide (e.parseError = false ∧ e.messageType = .serverFullResponse ∧
        questionIdentity e = questionIdentity questionAsr ∧ r.success.atMs ≤ e.receivedAtMs ∧
        e.receivedAtMs ≤ questionAsr.receivedAtMs) && inSession h.session e

def isLifecycle (e : Event) : Bool :=
  decide (e.eventName ∈ [EventName.sessionStarted, EventName.sessionFinished,
    EventName.sessionFailed])

def dialogOf (e : Event) : Option Text := present (e.token "payload.dialog_id")

def watermark (a : Action) : ℤ := a.providerOrdinalAfterAck.getD (-1)

/-- The session, the question and its answer after the connection was made again. -/
def restoredChain (verdict : Verdict) (p : EvidencePayload) (h : Handshake) : Except Causal Unit := do
  require (verdict = .passed → hasReason p [preservedReason] = true) .reconnectPassedReason
  let r ← readReconnected verdict p h.session
  let starts := sessionStarts p.eventEvidence h.session
  require (2 ≤ starts.length) .reconnectQuestionChain
  let postStart ← orRaise (starts.find? (isPostStart h r)) .reconnectQuestionChain
  let questionAsr ← orRaise
    ((eventNamed p.eventEvidence .asrResponse).find? (isQuestionAsr h r postStart))
    .reconnectQuestionChain
  let responses := answers p.eventEvidence h r questionAsr
  let ending ← orRaise (only (answerEndings p.eventEvidence h r responses)) .reconnectQuestionChain
  require (ending.ordinal ≤ watermark r.confirmation ∧
    ending.receivedAtMs ≤ r.confirmation.atMs) .reconnectQuestionChain
  require (verdict = .passed → responses.any Event.probeMatch = true) .reconnectProbe
  require (prefixClean h r questionAsr (questionPrefix p.eventEvidence postStart questionAsr) = true)
    .reconnectPrefix
  let initialDialog ← orRaise (starts.head?.bind dialogOf) .reconnectDialog
  require (postStart.token "payload.dialog_id" = some initialDialog) .reconnectDialog
  require (verdict = .passed → (p.eventEvidence.any fun e => isLifecycle e &&
    decide (postStart.ordinal < e.ordinal ∧ e.ordinal ≤ watermark r.confirmation)) = false)
    .reconnectBoundary

def isSessionFailure (h : Handshake) (e : Event) : Bool :=
  decide (beforeAttempt h.attempt < e.ordinal ∧ h.attempt.atMs ≤ e.receivedAtMs) &&
  inSession h.session e

def isFailureAction (h : Handshake) (a : Action) : Bool :=
  decide (a.success = some false ∧ a.sessionToken = some h.session ∧
    beforeAttempt h.attempt ≤ a.providerOrdinalAfterReconnect.getD (-1) ∧ h.attempt.atMs ≤ a.atMs)

/-- One failure is reported, by an action or by an event. -/
def restoreFailed (p : EvidencePayload) (h : Handshake) : Except Causal Unit :=
  let failures := actionNamed p.actionEvidence .providerReconnectFailed
  let failedEvents := (eventNamed p.eventEvidence .sessionFailed).filter (isSessionFailure h)
  let actionProven := (only failures).any (isFailureAction h)
  let eventProven := decide (failedEvents.length = 1)
  require (failures.length ≤ 1 ∧ (actionProven || eventProven) = true) .restoreUnanchored

def isBoundary (confirmation : Action) (postStart e : Event) : Bool :=
  isLifecycle e && decide (postStart.ordinal < e.ordinal ∧
    e.ordinal ≤ watermark confirmation ∧ e.receivedAtMs ≤ confirmation.atMs)

def lifecycleChanged (p : EvidencePayload) (starts : List Event) : Except Causal Unit := do
  let confirmation ← orRaise
    (only (actionNamed p.actionEvidence .providerReconnectContextConfirmed)) .lifecycleActions
  let success ← orRaise (only (actionNamed p.actionEvidence .providerReconnectSucceeded))
    .lifecycleActions
  let postStart := starts.find? fun e =>
    decide (success.providerOrdinalAfterReconnect = some e.ordinal)
  require ((postStart.any fun s => p.eventEvidence.any (isBoundary confirmation s)) = true)
    .lifecycleBoundary

/-- The first and the last listed start name different dialogs. -/
def dialogChanged (starts : List Event) : Bool :=
  (starts.head?.bind dialogOf).any fun first =>
    (starts.getLast?.bind dialogOf).any fun last => decide (first ≠ last)

/-- A failure that is told apart from a wrong answer by its reason. -/
def reconnectFailure (p : EvidencePayload) (h : Handshake) : Except Causal Unit := do
  require (hasReason p [lifecycleReason, dialogReason, restoreReason] = true)
    .reconnectFailedReason
  if hasReason p [restoreReason] then restoreFailed p h
  else do
    let starts := eventNamed p.eventEvidence .sessionStarted
    require (2 ≤ starts.length) .lifecycleStarts
    if hasReason p [lifecycleReason] then lifecycleChanged p starts
    else require (dialogChanged starts = true) .dialogUnchanged

/-- `failed_context_confirmation`: the client itself denies that the context was kept. -/
def contextDenied (verdict : Verdict) (p : EvidencePayload) : Bool :=
  decide (verdict = .failed) && hasReason p [restoreReason] &&
  (only (actionNamed p.actionEvidence .providerReconnectContextConfirmed)).any fun a =>
    decide (a.success = some false)

def reconnectConclusion (verdict : Verdict) (p : EvidencePayload) : Except Causal Unit :=
  if verdict = .failed ∧ hasReason p [exposedReason] = true then exposureConclusion p
  else do
    let h ← readHandshake p
    contextWritten p h.seed
    seedAnswered p.eventEvidence h
    if verdict = .passed ∨ contextDenied verdict p = true then restoredChain verdict p h
    else reconnectFailure p h

/-- `_validate_capability_conclusion`. -/
def validateCapabilityConclusion (key : VoiceCapability) (verdict : Verdict) (p : EvidencePayload) :
    Except Causal Unit := do
  require ((p.eventEvidence.map Event.ordinal).Nodup) .ordinalsRepeated
  match key with
  | .currentTurnRagGate => ragConclusion verdict p
  | .replyCancel => cancelConclusion verdict p
  | .contextTruncate => truncateConclusion verdict p
  | .playbackTextMapping => mappingConclusion verdict p
  | .sentencePlaybackAck => ackConclusion verdict p
  | .sessionReconnect => reconnectConclusion verdict p

/-- The trace is accepted as evidence of the verdict. -/
def Accepted (key : VoiceCapability) (verdict : Verdict) (p : EvidencePayload) : Prop :=
  validateCapabilityConclusion key verdict p = .ok ()

instance (key : VoiceCapability) (verdict : Verdict) (p : EvidencePayload) :
    Decidable (Accepted key verdict p) :=
  match h : validateCapabilityConclusion key verdict p with
  | .ok _ => .isTrue h
  | .error _ => .isFalse fun h' => by
      rw [Accepted, h] at h'
      cases h'

end CompanionBackend.EvidenceConclusions
