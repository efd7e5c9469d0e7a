import Mathlib.Data.List.AList
import CompanionBackend.ProviderEvents

/-!
# The backchannel filter

While a reply is playing, what the user says may be a mere acknowledgement. Until
that is known the output of the new question is held, for a bounded time and a
bounded number of events. Each operation runs under the lock of the filter, so it
is one step; what it hands over is returned in order. Deletions are only recorded;
telemetry is left out.
-/
namespace CompanionBackend.BackchannelService

open ProviderEvents

inductive QuestionState
  | candidate | valid | blocked
  deriving DecidableEq, Repr

structure BackchannelFilter where
  /-- `weak_acknowledgements`. -/
  words : List Text
  states : AList fun _ : Ident => QuestionState
  /-- In the order in which the buffers were opened. -/
  buffers : List (Ident × List ProviderEvent)
  finished : List Ident
  deleted : List Ident
  sid : Option Ident
  closed : Bool

/-- What the filter does with an event. -/
inductive Output
  | deliver (e : ProviderEvent)
  | discard (e : ProviderEvent)
  deriving DecidableEq, Repr

def Output.event : Output → ProviderEvent
  | .deliver e => e
  | .discard e => e

/-- `backchannel_turn_limit`. -/
inductive BackchannelError
  | turnLimit
  deriving DecidableEq, Repr

/-! ### Acknowledgements -/

/-- `[0-9A-Za-z㐀-鿿]`. -/
def isWordChar (c : Char) : Bool :=
  c.isDigit || c.isAlpha || (0x3400 ≤ c.toNat && c.toNat ≤ 0x9fff)

/-- The word characters in lower case, which is case folding on them. -/
def normalized (text : Text) : Text := (text.filter isWordChar).map Char.toLower

/-- The text is made of tokens; the fuel is its length. -/
def madeOf (tokens : List Text) : ℕ → Text → Bool
  | _, [] => true
  | 0, _ => false
  | fuel + 1, text =>
    tokens.any fun t => t.isPrefixOf text && madeOf tokens fuel (text.drop t.length)

/-- `pure_ack`. -/
def pureAck (text : Text) (words : List Text) : Bool :=
  let tokens := (words.map normalized).filter fun t => !t.isEmpty
  !(normalized text).isEmpty && !tokens.isEmpty &&
    madeOf tokens (normalized text).length (normalized text)

/-! ### Buffers -/

namespace BackchannelFilter

def new (words : List Text) : BackchannelFilter := ⟨words, ∅, [], [], [], none, false⟩

/-- The state of a question. -/
def state (s : BackchannelFilter) (question : Option Ident) : Option QuestionState :=
  question.bind s.states.lookup

/-- The held frames of a question. -/
def frames (s : BackchannelFilter) (question : Ident) : List ProviderEvent :=
  (s.buffers.lookup question).getD []

def dropBuffer (s : BackchannelFilter) (question : Ident) : BackchannelFilter :=
  { s with buffers := s.buffers.filter fun p => p.1 ≠ question }

/-- `buffers.setdefault(q, []).append(event)`. -/
def hold (s : BackchannelFilter) (question : Ident) (e : ProviderEvent) : BackchannelFilter :=
  { s with
    buffers :=
      if (s.buffers.lookup question).isSome then
        s.buffers.map fun p => if p.1 = question then (p.1, p.2 ++ [e]) else p
      else s.buffers ++ [(question, [e])] }

def mark (s : BackchannelFilter) (question : Ident) (state : QuestionState) : BackchannelFilter :=
  { s with states := s.states.insert question state }

/-! ### Operations -/

/-- `release`. -/
def release (s : BackchannelFilter) (question : Ident) : BackchannelFilter × List Output :=
  ((s.mark question .valid).dropBuffer question, (s.frames question).map .deliver)

/-- The end of `timeout`, after its two seconds. -/
def timeout (s : BackchannelFilter) (question : Ident) : BackchannelFilter × List Output :=
  if !s.closed && s.state (some question) = some .candidate then s.release question else (s, [])

/-- `close`, once its tasks are cancelled. -/
def close (s : BackchannelFilter) : BackchannelFilter := { s with closed := true, buffers := [] }

/-- `schedule_delete`. -/
def scheduleDelete (s : BackchannelFilter) (question : Ident) : BackchannelFilter :=
  if question ∈ s.finished ∧ question ∉ s.deleted then
    { s with deleted := question :: s.deleted }
  else s

/-- What is left when another session begins. -/
def enter (s : BackchannelFilter) (session : Ident) : BackchannelFilter :=
  if s.sid.any fun sid => sid ≠ session then
    { s with states := ∅, buffers := [], finished := [], deleted := [], sid := some session }
  else { s with sid := some session }

/-- The frames are held for too long when an event with the given number arrives. -/
def outdated (sequence : ℕ) (frames : List ProviderEvent) : Bool :=
  frames.head?.any fun f => f.sequence + 64 ≤ sequence

/-- The buffers whose first frame lies too far back are released. -/
def releaseOutdated (sequence : ℕ) (s : BackchannelFilter) :
    List (Ident × List ProviderEvent) → BackchannelFilter × List Output
  | [] => (s, [])
  | (question, frames) :: rest =>
    if outdated sequence frames then
      let r := s.release question
      let r' := releaseOutdated sequence r.1 rest
      (r'.1, r.2 ++ r'.2)
    else releaseOutdated sequence s rest

/-- The question the user starts while another one is playing. -/
def startedQuestion (e : ProviderEvent) (playing : Option Ident) : Option Ident :=
  match e.kind, playing, e.questionId with
  | .userSpeechStarted, some (p :: ps), some (c :: cs) =>
    if c :: cs ≠ p :: ps then some (c :: cs) else none
  | _, _, _ => none

/-- A question the user starts becomes a candidate. -/
def nominate (s : BackchannelFilter) (e : ProviderEvent) (playing : Option Ident) :
    Except BackchannelError BackchannelFilter :=
  match startedQuestion e playing with
  | none => .ok s
  | some question =>
    if 4096 ≤ s.states.keys.length then .error .turnLimit
    else if (s.states.lookup question).isSome then .ok s
    else .ok (s.mark question .candidate)

/-- A final transcript decides about its candidate. -/
def classify (s : BackchannelFilter) (e : ProviderEvent) : BackchannelFilter × List Output :=
  match e.kind, e.questionId, e.payload with
  | .asrFinal, some question, payload =>
    if s.state (some question) = some .candidate then
      let acknowledged := match payload with
        | .text text => pureAck text s.words
        | _ => false
      if acknowledged then
        (((s.mark question .blocked).dropBuffer question).scheduleDelete question,
          (s.frames question).map .discard)
      else s.release question
    else (s, [])
  | _, _, _ => (s, [])

end BackchannelFilter

/-- `output`. -/
def isOutput : EventKind → Bool
  | .chatText | .sentenceStarted | .sentenceFinished | .textFinished | .ttsAudio | .ttsFinished => true
  | _ => false

/-- The transcripts that go with a blocked question. -/
def isTranscript : EventKind → Bool
  | .asrInterim | .asrFinal | .userSpeechFinished => true
  | _ => false

namespace BackchannelFilter

/-- `finished.add(q)`, when the event ends a reply. -/
def noteFinished (s : BackchannelFilter) (e : ProviderEvent) : BackchannelFilter :=
  match e.kind, e.questionId with
  | .ttsFinished, some question => { s with finished := question :: s.finished }
  | _, _ => s

/-- The event itself is held, discarded or delivered. -/
def place (s : BackchannelFilter) (e : ProviderEvent) : BackchannelFilter × List Output :=
  match e.questionId with
  | none => (s, [.deliver e])
  | some question =>
    if isOutput e.kind ∧ s.state (some question) = some .candidate then
      let s := s.hold question e
      if 64 ≤ (s.frames question).length then s.release question else (s, [])
    else if s.state (some question) = some .blocked ∧ (isOutput e.kind ∨ isTranscript e.kind) then
      (if e.kind = .ttsFinished then s.scheduleDelete question else s, [.discard e])
    else (s, [.deliver e])

/-- `consume`; what has been handed over before it raises is returned as well. -/
def consume (s : BackchannelFilter) (e : ProviderEvent) (playing : Option Ident) :
    BackchannelFilter × List Output × Option BackchannelError :=
  if s.closed then (s, [], none)
  else
    let old := releaseOutdated e.sequence (s.enter e.sessionId) (s.enter e.sessionId).buffers
    match old.1.nominate e playing with
    | .error err => (old.1, old.2, some err)
    | .ok s =>
      let decided := s.classify e
      let placed := (decided.1.noteFinished e).place e
      (placed.1, old.2 ++ decided.2 ++ placed.2, none)

end BackchannelFilter

end CompanionBackend.BackchannelService
