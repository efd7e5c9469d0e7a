import Mathlib.Data.List.AList
import CompanionBackend.TurnRecords

/-!
# The playback service

What a client reports of the audio it has played is checked against the audio that
was sent to it, and turned into the text the user has heard. The client names
positions and sentences; texts and boundaries come from the provider alone. Metrics
and the instants of reports are left out.
-/
namespace CompanionBackend.PlaybackService

open ProviderEvents TurnRecords
open VoiceModels (TextEvidence)

structure Sentence where
  text : Text
  startBytes : ℕ
  endBytes : Option ℕ
  acked : Bool
  deriving DecidableEq, Repr

structure Reply where
  questionId : Ident
  text : Text
  audioBytes : ℕ
  playedMs : ℕ
  ackFloorMs : ℕ
  progressSeen : Bool
  /-- In the order in which they were started. -/
  sentences : List (Ident × Sentence)
  currentSentence : Option Ident
  textFinished : Bool
  ttsFinished : Bool
  audioCompleted : Bool
  completed : Bool
  interrupted : Bool
  deriving DecidableEq, Repr

/-- `Reply(question_id)`. -/
def Reply.new (question : Ident) : Reply :=
  ⟨question, [], 0, 0, 0, false, [], none, false, false, false, false, false⟩

def Reply.stopped (r : Reply) : Bool := r.interrupted || r.completed

structure PlaybackEvidence where
  callId : Ident
  replies : AList fun _ : Ident => Reply
  clientSequence : ℕ
  providerSequence : AList fun _ : Ident => ℕ

inductive PlaybackError
  | callMismatch | replyIdentityInvalid | questionMismatch | textInvalid | audioInvalid
  | sentenceOverlap | sentenceInvalid | eventInvalid | audioNotFinished | positionInvalid
  | sentenceNotSent | replyNotFinished
  deriving DecidableEq, Repr

def PlaybackEvidence.new (callId : Ident) : PlaybackEvidence := ⟨callId, ∅, 0, ∅⟩

/-- `seen`. -/
def PlaybackEvidence.seen (s : PlaybackEvidence) (e : ProviderEvent) : Bool :=
  e.sequence ≤ (s.providerSequence.lookup e.sessionId).getD 0

def PlaybackEvidence.putReply (s : PlaybackEvidence) (reply : Ident) (r : Reply) :
    PlaybackEvidence :=
  { s with replies := s.replies.insert reply r }

/-! ### Provider events -/

/-- `payload.get('text', '')` of a started sentence. -/
def sentenceText : Payload → SentenceText
  | .data .absent => .str []
  | .data text => text
  | _ => .str []

/-- The end of the sentence with the given identity. -/
def Reply.endSentence (r : Reply) (sid : Ident) : Reply :=
  { r with
    sentences := r.sentences.map fun p =>
      if p.1 = sid then (p.1, { p.2 with endBytes := some r.audioBytes }) else p
    currentSentence := none }

/-- What an event does to a reply that has not stopped; `sid` is the identity a new sentence gets,
and the identity of a sentence that starts or ends is returned. -/
def Reply.feed (r : Reply) (e : ProviderEvent) (sid : Ident) :
    Except PlaybackError (Reply × Option Ident) :=
  match e.kind with
  | .chatText =>
    match e.payload with
    | .text text =>
      if 131072 < r.text.length + text.length then .error .textInvalid
      else .ok ({ r with text := r.text ++ text }, none)
    | _ => .error .textInvalid
  | .ttsAudio =>
    match e.payload with
    | .audio bytes =>
      if bytes = 0 ∨ bytes % 2 ≠ 0 then .error .audioInvalid
      else .ok ({ r with audioBytes := r.audioBytes + bytes }, none)
    | _ => .error .audioInvalid
  | .sentenceStarted =>
    if r.currentSentence.isSome then .error .sentenceOverlap
    else
      match sentenceText e.payload with
      | .str text =>
        if 131072 < text.length then .error .sentenceInvalid
        else
          .ok ({ r with
            sentences := r.sentences ++ [(sid, ⟨text, r.audioBytes, none, false⟩)]
            currentSentence := some sid }, some sid)
      | _ => .error .sentenceInvalid
  | .sentenceFinished =>
    match r.currentSentence with
    | none => .ok (r, none)
    | some sid => .ok (r.endSentence sid, some sid)
  | .textFinished => .ok ({ r with textFinished := true }, none)
  | .ttsFinished => .ok ({ r with ttsFinished := true }, none)
  | _ => .ok (r, none)

/-- The reply of an event, made on its first event. -/
def PlaybackEvidence.openReply (s : PlaybackEvidence) (e : ProviderEvent) (reply : Ident) :
    Except PlaybackError (PlaybackEvidence × Reply) :=
  match s.replies.lookup reply with
  | some r => .ok (s, r)
  | none =>
    match e.questionId with
    | some (c :: cs) =>
      if 4096 ≤ s.replies.keys.length then .error .replyIdentityInvalid
      else .ok (s.putReply reply (.new (c :: cs)), .new (c :: cs))
    | _ => .error .replyIdentityInvalid

/-- `feed`; the state is left also when it raises. -/
def PlaybackEvidence.feed (s : PlaybackEvidence) (e : ProviderEvent) (allowBuffered : Bool)
    (sid : Ident) : PlaybackEvidence × Except PlaybackError (Option Ident) :=
  if e.callId ≠ s.callId then (s, .error .callMismatch)
  else if !allowBuffered && s.seen e then (s, .ok none)
  else
    let s := { s with
      providerSequence := s.providerSequence.insert e.sessionId
        (max e.sequence ((s.providerSequence.lookup e.sessionId).getD 0)) }
    match e.replyId with
    | none => (s, .ok none)
    | some [] => (s, .ok none)
    | some (c :: cs) =>
      match s.openReply e (c :: cs) with
      | .error err => (s, .error err)
      | .ok (s, r) =>
        if some r.questionId ≠ e.questionId then (s, .error .questionMismatch)
        else if r.stopped then (s, .ok none)
        else
          match r.feed e sid with
          | .error err => (s, .error err)
          | .ok (r, boundary) => (s.putReply (c :: cs) r, .ok boundary)

/-- `release_text`. -/
def PlaybackEvidence.releaseText (s : PlaybackEvidence) (reply : Ident) : PlaybackEvidence :=
  match s.replies.lookup reply with
  | none => s
  | some r => s.putReply reply
    { r with text := [], sentences := r.sentences.map fun p => (p.1, { p.2 with text := [] }) }

/-! ### Client frames -/

/-- A value of a frame; a Boolean is not an integer here. -/
inductive FrameValue
  | int (n : ℤ)
  | str (s : Text)
  | other
  deriving DecidableEq, Repr

inductive ClientKind
  | playbackProgress | sentencePlayed | replyPlaybackCompleted | bargeIn | audioPlaybackCompleted
  deriving DecidableEq, Repr

/-- A frame as the client sends it: any entry may be missing or of any type, and there may be
others. -/
structure ClientFrame where
  kind : Option ClientKind
  callId : Option FrameValue
  replyId : Option FrameValue
  eventSeq : Option FrameValue
  playedAudioMs : Option FrameValue
  sentenceId : Option FrameValue
  others : Bool
  deriving DecidableEq, Repr

/-- `CLIENT_FIELDS`: whether the frames of a kind have `played_audio_ms` and `sentence_id`. -/
def ClientKind.fields : ClientKind → Bool × Bool
  | .playbackProgress => (true, false)
  | .sentencePlayed => (false, true)
  | .replyPlaybackCompleted => (false, false)
  | .bargeIn => (true, false)
  | .audioPlaybackCompleted => (true, false)

/-- What a well-formed frame says. -/
structure CheckedFrame where
  kind : ClientKind
  reply : Ident
  seq : ℕ
  played : FrameValue
  sentence : FrameValue
  deriving DecidableEq, Repr

/-- The checks at the head of `client`. -/
def PlaybackEvidence.checked (s : PlaybackEvidence) (f : ClientFrame) : Option CheckedFrame :=
  match f.kind, f.replyId, f.eventSeq with
  | some kind, some (.str reply), some (.int n) =>
    if f.callId = some (.str s.callId) ∧ reply ∈ s.replies ∧ 1 ≤ n ∧ f.others = false ∧
        (f.playedAudioMs.isSome, f.sentenceId.isSome) = kind.fields then
      some ⟨kind, reply, n.toNat, f.playedAudioMs.getD .other, f.sentenceId.getD .other⟩
    else none
  | _, _, _ => none

/-- The sentence a client has named, when all of it was sent. -/
def Reply.sentSentence (r : Reply) : FrameValue → Option (Ident × ℕ)
  | .str sid =>
    match r.sentences.lookup sid with
    | some ⟨_, start, some stop, _⟩ => if start < stop then some (sid, stop) else none
    | _ => none
  | _ => none

def Reply.ackSentence (r : Reply) (sid : Ident) (stop : ℕ) : Reply :=
  { r with
    sentences := r.sentences.map fun p => if p.1 = sid then (p.1, { p.2 with acked := true }) else p
    ackFloorMs := max r.ackFloorMs (stop / 48) }

/-- A position the client may report. -/
def Reply.position (r : Reply) : FrameValue → Option ℕ
  | .int n =>
    if (max r.playedMs r.ackFloorMs : ℕ) ≤ n ∧ n ≤ (r.audioBytes / 48 : ℕ) then some n.toNat
    else none
  | _ => none

/-- What a frame does to a reply that has not stopped; nothing when its audio is already known to
have been played. -/
def Reply.client (r : Reply) (f : CheckedFrame) : Except PlaybackError (Option Reply) :=
  match f.kind with
  | .audioPlaybackCompleted =>
    if !r.ttsFinished ∨ r.audioBytes = 0 ∨ f.played ≠ .int (r.audioBytes / 48 : ℕ) then
      .error .audioNotFinished
    else if r.audioCompleted then .ok none
    else
      .ok (some { r with audioCompleted := true, playedMs := r.audioBytes / 48, progressSeen := true })
  | .playbackProgress =>
    match r.position f.played with
    | none => .error .positionInvalid
    | some played => .ok (some { r with playedMs := played, progressSeen := true })
  | .bargeIn =>
    match r.position f.played with
    | none => .error .positionInvalid
    | some played =>
      .ok (some { r with playedMs := played, progressSeen := true, interrupted := true })
  | .sentencePlayed =>
    match r.sentSentence f.sentence with
    | none => .error .sentenceNotSent
    | some (sid, stop) => .ok (some (r.ackSentence sid stop))
  | .replyPlaybackCompleted =>
    if !r.ttsFinished ∨ !r.textFinished ∨ r.audioBytes = 0 ∨ r.text = [] then
      .error .replyNotFinished
    else
      .ok (some { r with
        completed := true, audioCompleted := true, playedMs := r.audioBytes / 48,
        progressSeen := true })

/-! ### What the user has heard -/

/-- The texts of the leading sentences that lie within the played bytes, while they make up a
prefix of the reply's text; `best` is the longest such prefix so far. -/
def exactPrefix (text : Text) (playedBytes : ℕ) : Text → Text → List Sentence → Text
  | _, best, [] => best
  | start, best, s :: rest =>
    match s.endBytes with
    | none => best
    | some stop =>
      if s.text.isEmpty then best
      else
        let whole := start ++ s.text
        exactPrefix text playedBytes whole
          (if stop ≤ playedBytes ∧ s.startBytes < stop ∧ whole.isPrefixOf text then whole else best)
          rest

def Reply.exactText (r : Reply) : Text :=
  exactPrefix r.text (r.playedMs * 48) [] [] (r.sentences.map (·.2))

def Reply.confirmedText (r : Reply) : Text :=
  ((r.sentences.map (·.2)).filter (·.acked)).flatMap (·.text)

/-- What the provider's adapter can do at the moment. -/
structure PlaybackCapabilities where
  mapping : Bool
  ack : Bool
  deriving DecidableEq, Repr

/-- `_snapshot`. -/
def Reply.snapshot (r : Reply) (c : PlaybackCapabilities) : EffectiveText :=
  let position := if r.progressSeen then some r.playedMs else none
  if r.completed then ⟨r.text, .full, position, true, false⟩
  else if c.mapping && r.progressSeen && !r.exactText.isEmpty then
    ⟨r.exactText, .exactPlayed, position, false, r.interrupted⟩
  else if c.ack && !r.confirmedText.isEmpty then
    ⟨r.confirmedText, .confirmedSentences, position, false, r.interrupted⟩
  else ⟨[], .none, position, false, r.interrupted⟩

/-- `client`; the state is left also when it raises. -/
def PlaybackEvidence.client (s : PlaybackEvidence) (f : ClientFrame) (c : PlaybackCapabilities) :
    PlaybackEvidence × Except PlaybackError (Option (Ident × EffectiveText)) :=
  match s.checked f with
  | none => (s, .error .eventInvalid)
  | some frame =>
    if frame.seq ≤ s.clientSequence then (s, .ok none)
    else
      match s.replies.lookup frame.reply with
      | none => (s, .error .eventInvalid)
      | some r =>
        if r.stopped then (s, .ok none)
        else
          match r.client frame with
          | .error err => (s, .error err)
          | .ok none => ({ s with clientSequence := frame.seq }, .ok none)
          | .ok (some r) =>
            ({ s.putReply frame.reply r with clientSequence := frame.seq },
              .ok (some (frame.reply, r.snapshot c)))

end CompanionBackend.PlaybackService
