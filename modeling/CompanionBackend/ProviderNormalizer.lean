import Mathlib.Data.Char
import Mathlib.Data.List.Basic
import Mathlib.Data.List.Lex
import CompanionBackend.Runs
import CompanionBackend.ProviderEvents
import CompanionBackend.Dictionaries

/-!
# The normaliser of the provider adapter

Decoded frames of the provider become numbered events under local question and reply
ids. The maps from provider ids to local ids are filled by many kinds of frames in the
order the provider chooses. Ids are drawn from `uuid4`; the digest of a boundary frame
and whether a capability is enabled at the moment are parameters.
-/
namespace CompanionBackend.ProviderNormalizer

open Runs ProviderEvents Dictionaries

inductive ProviderError
  | protocolError | upstreamUnavailable | evidenceInvalid
  deriving DecidableEq

/-- The body of a frame: raw bytes, of which the number counts here, or a JSON object. -/
inductive FramePayload
  | bytes (n : ℕ)
  | object (fields : Dict Text Json)

structure Frame where
  audio : Bool
  session : Text
  event : ℕ
  sequence : Option ℕ
  errorCode : Option ℕ
  payload : FramePayload

inductive EventPayload
  | absent
  | bytes (n : ℕ)
  | json (v : Json)

/-- A `ProviderEvent` with its whole payload. -/
structure NormalizedEvent where
  kind : EventKind
  callId : Ident
  sessionId : Ident
  sequence : ℕ
  questionId : Option Ident
  replyId : Option Ident
  payload : EventPayload
  asrConfidence : Option Json

/-- What one adapter instance is made with. -/
structure Adapter where
  callId : Ident
  purpose : Text
  diagnosticCapability : Option Text

/-- The generator of ids and the digest of a boundary frame. -/
structure Host (D : Type) where
  uuid4 : ℕ → Ident
  digest : ℕ → Dict Text Json → Option Ident → D

structure ControlPending where
  kind : Text
  token : Text
  question : Option Ident
  deriving DecidableEq

structure ProviderSession (D : Type) where
  sessionId : Ident
  dialogId : Text
  wire : Bool
  ready : Bool
  events : List NormalizedEvent
  sequence : ℕ
  question : Option Ident
  reply : Option Ident
  audioReply : Option Ident
  /-- Provider question id to local question. -/
  questions : Dict Text Ident
  /-- Provider reply id to local reply. -/
  replies : Dict Text Ident
  /-- Local reply to local question. -/
  replyQuestions : Dict Ident Ident
  textStarted : List Ident
  ragQuestions : List Ident
  /-- The provider reply kept for a question after an injection. -/
  ragReply : Dict Ident Text
  finished : List Ident
  preservedQuestions : List Ident
  seen : List D
  seenOrder : List D
  lastVendorSequence : Dict (ℕ × Option Text × Option Text) ℕ
  usage : Option Json
  greetingSession : Option Ident
  greetingPending : Bool
  controlPending : Option ControlPending
  /-- How many ids were drawn. -/
  minted : ℕ

def initialSession {D : Type} (minted : ℕ) : ProviderSession D :=
  { sessionId := [], dialogId := [], wire := false, ready := false, events := [], sequence := 0
    question := none, reply := none, audioReply := none, questions := [], replies := []
    replyQuestions := [], textStarted := [], ragQuestions := [], ragReply := [], finished := []
    preservedQuestions := [], seen := [], seenOrder := [], lastVendorSequence := [], usage := none
    greetingSession := none, greetingPending := false, controlPending := none, minted := minted }

/-- The session and the event emitted, if any. -/
abbrev Normalized (D : Type) := ProviderSession D × Option NormalizedEvent

section Normalize

variable {D : Type} [DecidableEq D] (h : Host D) (a : Adapter)

/-- `_event`: the next number of the session. -/
def event (s : ProviderSession D) (kind : EventKind) (payload : EventPayload)
    (question reply : Option Ident) (confidence : Option Json) : Normalized D :=
  ({ s with sequence := s.sequence + 1 },
    some ⟨kind, a.callId, s.sessionId, s.sequence + 1, question, reply, payload, confidence⟩)

/-- `question_id` and `reply_id` of a payload. -/
def identifier (fields : Dict Text Json) (key : String) : Except ProviderError (Option Text) :=
  match Dict.get fields key.toList with
  | none => .ok none
  | some .null => .ok none
  | some (.str t) => if t = [] ∨ 255 < t.length then .error .protocolError else .ok (some t)
  | some _ => .error .protocolError

/-- `payload.get('sequence', msg.get('sequence'))`. -/
def vendorSequence (fields : Dict Text Json) (sequence : Option ℕ) :
    Except ProviderError (Option ℕ) :=
  match Dict.get fields "sequence".toList with
  | none => .ok sequence
  | some .null => .ok none
  | some (.int n) => if n < 0 then .error .protocolError else .ok (some n.toNat)
  | some _ => .error .protocolError

/-- A frame not newer than the last of its kind is dropped. -/
def takeSequence (s : ProviderSession D) (key : ℕ × Option Text × Option Text) :
    Option ℕ → Option (ProviderSession D)
  | none => some s
  | some seq =>
    if ∃ last, Dict.get s.lastVendorSequence key = some last ∧ seq ≤ last then none
    else some { s with lastVendorSequence := Dict.set s.lastVendorSequence key seq }

def boundaryEvents : List ℕ := [150, 152, 351, 359, 459, 559, 567, 570]

/-- A semantic boundary is taken once; the newest 4096 digests are kept. -/
def takeBoundary (s : ProviderSession D) (event : ℕ) (fields : Dict Text Json) :
    Option (ProviderSession D) :=
  if event ∈ boundaryEvents then
    let digest := h.digest event fields (if event = 459 then s.question else none)
    if digest ∈ s.seen then none
    else
      let seen := digest :: s.seen
      let order := s.seenOrder ++ [digest]
      if 4096 < order.length then
        some { s with
          seen := seen.filter fun d => decide (some d ≠ order.head?)
          seenOrder := order.tail }
      else some { s with seen := seen, seenOrder := order }
  else some s

/-- `self._question = self._questions.setdefault(qid, str(uuid4()))`. -/
def bindQuestion (s : ProviderSession D) (qid : Text) : ProviderSession D :=
  let r := Dict.setDefault s.questions qid (h.uuid4 s.minted)
  { s with questions := r.1, question := some r.2, minted := s.minted + 1 }

/-- Frame 553. -/
def controlConfirmed (s : ProviderSession D) (qid : Option Text) : Normalized D :=
  let pending := s.controlPending
  let s := { s with controlPending := none }
  match qid, pending with
  | some qid, some pending =>
    if pending.question ≠ s.question then (s, none)
    else
      let s := bindQuestion h s qid
      event a s .controlConfirmed (.json (.obj [("control_kind".toList, .str pending.kind),
        ("control_token".toList, .str pending.token)])) s.question none none
  | _, _ => (s, none)

/-- `confidence` is absent, or a number between 0 and 1. -/
def confidenceValid : Option Json → Bool
  | none => true
  | some .null => true
  | some (.int n) => decide (0 ≤ n ∧ n ≤ 1)
  | some (.float (.finite q)) => decide (0 ≤ q ∧ q ≤ 1)
  | some _ => false

/-- `results[-1]`, an object. -/
def lastResult (fields : Dict Text Json) : Except ProviderError (Dict Text Json) :=
  match (Dict.get fields "results".toList).getD (.arr []) with
  | .arr items =>
    match items.getLast? with
    | some (.obj result) => .ok result
    | _ => .error .protocolError
  | .str _ => .error .protocolError
  | results => if results.truthy then .error .upstreamUnavailable else .error .protocolError

def isLiteralTrue : Option Json → Bool
  | some (.bool true) => true
  | _ => false

/-- Frames 450, 451 and 459. -/
def userSpeech (s : ProviderSession D) (frame : ℕ) (fields : Dict Text Json) (qid : Option Text) :
    Except ProviderError (Normalized D) :=
  if frame = 450 then
    match qid with
    | none => .ok (s, none)
    | some qid =>
      let s := bindQuestion h { s with greetingPending := false } qid
      .ok (event a s .userSpeechStarted .absent s.question none none)
  else if s.question = none ∨ ∃ q, qid = some q ∧ Dict.get s.questions q ≠ s.question then
    .ok (s, none)
  else if frame = 451 then do
    let result ← lastResult fields
    let confidence := Dict.get result "confidence".toList
    require (confidenceValid confidence = true) .protocolError
    let kind := if isLiteralTrue (Dict.get result "is_interim".toList) then EventKind.asrInterim
      else .asrFinal
    .ok (event a s kind (.json ((Dict.get result "text".toList).getD (.str []))) s.question none
      confidence)
  else .ok (event a s .userSpeechFinished .absent s.question none none)

/-- `payload.get('content', payload.get('text', ''))`. -/
def textContent (fields : Dict Text Json) : Json :=
  (Dict.get fields "content".toList).getD ((Dict.get fields "text".toList).getD (.str []))

/-- The entries of a payload an event keeps. -/
def pick (keys : List String) (fields : Dict Text Json) : List (Text × Json) :=
  keys.filterMap fun key => (Dict.get fields key.toList).map fun v => (key.toList, v)

def replyData (frame : ℕ) (fields : Dict Text Json) : Json :=
  if frame = 550 then textContent fields
  else if frame = 359 then
    .obj (pick ["sentence_id", "start_time", "end_time", "text", "status_code"] fields)
  else .obj (pick ["sentence_id", "start_time", "end_time", "text"] fields)

def replyKind (frame : ℕ) : EventKind :=
  if frame = 350 then .sentenceStarted
  else if frame = 351 then .sentenceFinished
  else if frame = 359 then .ttsFinished
  else if frame = 550 then .chatText
  else .textFinished

/-- A greeting has no speech before it: its first sentence binds the question. -/
def bindGreeting (s : ProviderSession D) (frame : ℕ) (qid rid : Option Text) : ProviderSession D :=
  match qid, rid with
  | some qid, some _ =>
    if frame = 350 ∧ s.greetingPending = true ∧ s.question = none then
      { bindQuestion h s qid with greetingPending := false }
    else s
  | _, _ => s

/-- The local question a reply frame belongs to. -/
def frameQuestion (s : ProviderSession D) (qid rid : Option Text) : Option Ident :=
  match qid with
  | some qid => Dict.get s.questions qid
  | none => (rid.bind (Dict.get s.replies)).bind (Dict.get s.replyQuestions)

/-- After an injection only the first reply observed for its question passes. -/
def ragGuard (s : ProviderSession D) (frame : ℕ) (fields : Dict Text Json) (question : Ident)
    (rid : Text) : ProviderSession D × Bool :=
  if a.purpose = "call".toList ∧ question ∈ s.ragQuestions then
    match Dict.get s.ragReply question with
    | none =>
      if frame ≠ 350 ∧ ¬ (frame = 550 ∧ (textContent fields).truthy = true) then (s, false)
      else ({ s with ragReply := Dict.set s.ragReply question rid }, true)
    | some selected =>
      if selected ≠ rid then
        ({ s with audioReply := if frame = 350 then none else s.audioReply }, false)
      else (s, true)
  else (s, true)

/-- A reply frame of a question the guard let pass. -/
def replyEvent (s : ProviderSession D) (frame : ℕ) (fields : Dict Text Json) (question : Ident)
    (rid : Text) : Normalized D :=
  let r := Dict.setDefault s.replies rid (h.uuid4 s.minted)
  let known := Dict.setDefault s.replyQuestions r.2 question
  let s := { s with replies := r.1, replyQuestions := known.1, minted := s.minted + 1 }
  if known.2 ≠ question ∨ r.2 ∈ s.finished then (s, none)
  else
    let s := { s with
      reply := some r.2
      audioReply := if frame = 350 then some r.2 else s.audioReply
      textStarted := if frame = 350 ∨ frame = 550 then question :: s.textStarted else s.textStarted
      finished := if frame = 359 then r.2 :: s.finished else s.finished }
    event a s (replyKind frame) (.json (replyData frame fields)) (some question) (some r.2) none

/-- Frames 350, 351, 359, 550 and 559. -/
def replyFrame (s : ProviderSession D) (frame : ℕ) (fields : Dict Text Json)
    (qid rid : Option Text) : Normalized D :=
  let s := bindGreeting h s frame qid rid
  match frameQuestion s qid rid, rid with
  | some question, some rid =>
    if some question ≠ s.question ∧ question ∉ s.preservedQuestions then (s, none)
    else
      let g := ragGuard a s frame fields question rid
      if g.2 then replyEvent h a g.1 frame fields question rid else (g.1, none)
  | _, _ => (s, none)

/-- `type(v) in (int, float) and v >= 0`. -/
def usageNumber : Json → Bool
  | .int n => decide (0 ≤ n)
  | .float (.finite q) => decide (0 ≤ q)
  | .float .infinity => true
  | _ => false

def usageFields (fields : Dict Text Json) : Json :=
  .obj (fields.filter fun e => decide (e.1 ∈ ["input_tokens".toList, "output_tokens".toList,
    "audio_duration".toList]) && usageNumber e.2)

/-- The item ids of frame 571; an item that is not hashable or a list that is none raises. -/
def deletedItems (fields : Dict Text Json) : Except ProviderError (List Text) :=
  let itemId : Json → Except ProviderError (Option Text)
    | .obj item =>
      match Dict.get item "item_id".toList with
      | some (.str t) => .ok (some t)
      | some (.arr _) => .error .upstreamUnavailable
      | some (.obj _) => .error .upstreamUnavailable
      | _ => .ok none
    | _ => .ok none
  match (Dict.get fields "items".toList).getD (.arr []) with
  | .arr items => (items.mapM itemId).map fun ids => ids.filterMap id
  | .str _ => .ok []
  | .obj _ => .ok []
  | _ => .error .upstreamUnavailable

def deletedQuestions (s : ProviderSession D) (ids : List Text) : List Ident :=
  let direct := (s.questions.filter fun e => decide (e.1 ∈ ids)).map Prod.snd
  let replied := (s.replies.filter fun e => decide (e.1 ∈ ids)).filterMap fun e =>
    Dict.get s.replyQuestions e.2
  ((direct ++ replied).dedup).mergeSort fun x y => decide (x ≤ y)

/-- Frames without a reply. -/
def sessionFrame (s : ProviderSession D) (frame : ℕ) (fields : Dict Text Json) :
    Except ProviderError (Normalized D) :=
  if frame = 154 then
    let usage := usageFields fields
    .ok (event a { s with usage := some usage } .usage (.json usage) none none none)
  else if frame = 152 then
    .ok (event a { s with ready := false } .sessionFinished .absent none none none)
  else if frame = 571 then do
    let ids ← deletedItems fields
    let questions := (deletedQuestions s ids).map Json.str
    .ok (event a s .contextDeleted (.json (.obj [("question_ids".toList, .arr questions)])) none none
      none)
  else if frame = 567 ∨ frame = 570 then
    .ok (event a s (if frame = 567 then .contextCreated else .contextTruncated)
      (.json (.obj (pick ["item_id", "audio_end_ms"] fields))) none none none)
  else .ok (s, none)

/-- The audio of the reply whose sentence started last. -/
def audioFrame (s : ProviderSession D) (payload : FramePayload) :
    Except ProviderError (Normalized D) :=
  match s.audioReply with
  | none => .ok (s, none)
  | some reply =>
    if reply ∈ s.finished then .ok (s, none)
    else
      match Dict.get s.replyQuestions reply with
      | none => .error .upstreamUnavailable
      | some question =>
        let content := match payload with
          | .bytes n => EventPayload.bytes n
          | .object fields => .json (.obj fields)
        .ok (event a s .ttsAudio content (some question) (some reply) none)

/-- What a frame with an object as its payload is, past the two duplicate checks. -/
def dispatch (s : ProviderSession D) (frame : ℕ) (fields : Dict Text Json) (qid rid : Option Text) :
    Except ProviderError (Normalized D) :=
  if frame = 553 then .ok (controlConfirmed h a s qid)
  else if frame ∈ [450, 451, 459] then userSpeech h a s frame fields qid
  else if frame ∈ [350, 351, 359, 550, 559] then .ok (replyFrame h a s frame fields qid rid)
  else sessionFrame a s frame fields

def normalizeObject (s : ProviderSession D) (msg : Frame) (fields : Dict Text Json) :
    Except ProviderError (Normalized D) := do
  let qid ← identifier fields "question_id"
  let rid ← identifier fields "reply_id"
  let seq ← vendorSequence fields msg.sequence
  match takeSequence s (msg.event, qid, rid) seq with
  | none => .ok (s, none)
  | some s =>
    match takeBoundary h s msg.event fields with
    | none => .ok (s, none)
    | some s => dispatch h a s msg.event fields qid rid

/-- `_normalize`. -/
def normalize (s : ProviderSession D) (msg : Frame) : Except ProviderError (Normalized D) :=
  if msg.errorCode.getD 0 ≠ 0 ∨ msg.event ∈ [51, 153, 599] then .error .upstreamUnavailable
  else if msg.session ≠ s.sessionId then .ok (s, none)
  else if msg.audio then audioFrame a s msg.payload
  else
    match msg.payload with
    | .bytes _ => .error .upstreamUnavailable
    | .object fields => normalizeObject h a s msg fields

end Normalize

/-- The adapter with a history no code reads: the events handed out since the session began,
those since it was last started or resumed, and for each question an injection was claimed for
how many events had been handed out. -/
structure ProviderRun (D : Type) where
  session : ProviderSession D
  /-- Questions whose injection waits for the send lock. -/
  injections : List Ident
  history : List NormalizedEvent
  current : List NormalizedEvent
  claims : List (Ident × ℕ)

inductive ProviderInput
  /-- `create_connection` succeeds. -/
  | createConnection
  /-- `start_session` without a session to resume; what the provider answers. -/
  | startSession (answer : Option Text)
  /-- `reconnect_session`; whether session reconnection is enabled before and after connecting,
  whether the connection is made, and the answer. -/
  | reconnectSession (enabled enabledAfter connected : Bool) (answer : Option Text)
  | finishSession
  /-- `receive_event` returns what was queued. -/
  | receiveQueued
  /-- `receive_event` reads a frame. -/
  | receive (msg : Frame)
  | injectRag (question : Ident) (content : Text) (enabled : Bool)
  /-- A waiting injection gets the send lock. -/
  | claimRag (k : ℕ)
  | controlQuery (content kind token : Text)
  /-- The control query could not be sent. -/
  | controlFailed
  | sayHello (content : Text)
  | preservePlayingQuestion (question : Ident)

section Steps

variable {D : Type} [DecidableEq D] (h : Host D) (a : Adapter)

/-- `_operation_allowed`. -/
def operationAllowed (key : String) (enabled : Bool) : Bool :=
  (decide (a.purpose = "admin_test".toList) &&
    decide (a.diagnosticCapability = some key.toList)) || enabled

def finishSession (s : ProviderSession D) : ProviderSession D :=
  { s with wire := false, ready := false, greetingPending := false, controlPending := none }

/-- Vendor ids and sequences may restart in a new session. -/
def clearSession (s : ProviderSession D) : ProviderSession D :=
  { s with
    questions := [], replies := [], replyQuestions := [], textStarted := [], ragQuestions := []
    ragReply := [], finished := [], preservedQuestions := [], seen := [], seenOrder := []
    lastVendorSequence := [], events := [], question := none, reply := none, audioReply := none
    controlPending := none, sequence := 0, usage := none }

/-- The answer to a started session: it is ready and its first event is queued. -/
def sessionStarted (s : ProviderSession D) : Option Text → ProviderSession D
  | none => finishSession s
  | some dialog =>
    let r := event a { s with dialogId := dialog, ready := true } .sessionReady .absent none none
      none
    { r.1 with events := r.1.events ++ r.2.toList }

def startFresh (w : ProviderRun D) (answer : Option Text) : ProviderRun D :=
  let s := clearSession w.session
  let s := { s with sessionId := h.uuid4 s.minted, minted := s.minted + 1 }
  { w with session := sessionStarted a s answer, history := [], current := [], claims := [] }

/-- Transport and question are gone; maps and guards stay for a resumed session. -/
def dropTransport (s : ProviderSession D) : ProviderSession D :=
  { s with
    wire := false, ready := false, events := [], preservedQuestions := [], sequence := 0, controlPending := none
    question := none, reply := none, audioReply := none }

def reconnectSession (w : ProviderRun D) (enabled enabledAfter connected : Bool)
    (answer : Option Text) : ProviderRun D :=
  let s := w.session
  let reuse := operationAllowed a "supports_session_reconnect" enabled && !s.dialogId.isEmpty
  let s := if reuse then s else finishSession s
  let w := { w with session := dropTransport s, current := [] }
  if connected = false then { w with session := finishSession w.session }
  else
    let w := { w with session := { w.session with wire := true } }
    if reuse then
      if operationAllowed a "supports_session_reconnect" enabledAfter then
        let r := sessionStarted a w.session answer
        { w with session := if r.dialogId = s.dialogId then r else finishSession r }
      else w
    else startFresh h a w answer

/-- An event is handed out. -/
def ProviderRun.handOut (w : ProviderRun D) (r : Normalized D) : ProviderRun D :=
  { w with session := r.1, history := w.history ++ r.2.toList, current := w.current ++ r.2.toList }

def receiveQueued (w : ProviderRun D) : Option (ProviderRun D) :=
  match w.session.events with
  | [] => none
  | e :: rest => some (w.handOut ({ w.session with events := rest }, some e))

def receive (w : ProviderRun D) (msg : Frame) : Option (ProviderRun D) :=
  if w.session.events = [] ∧ w.session.wire = true then
    match normalize h a w.session msg with
    | .ok r => some (w.handOut r)
    | .error _ => none
  else none

/-- The checks of `inject_rag` before it asks for the send lock. -/
def injectRag (w : ProviderRun D) (question : Ident) (content : Text) (enabled : Bool) :
    Option (ProviderRun D) :=
  let s := w.session
  if some question ≠ s.question ∨ 2000 < content.length then none
  else if operationAllowed a "supports_current_turn_rag_gate" enabled = false ∨
      question ∈ s.textStarted ∨ question ∈ s.ragQuestions then some w
  else some { w with injections := w.injections ++ [question] }

/-- The claim of an injection, made under the send lock. -/
def claimRag (w : ProviderRun D) (k : ℕ) : Option (ProviderRun D) :=
  match w.injections[k]? with
  | none => none
  | some question =>
    let w := { w with injections := w.injections.eraseIdx k }
    let s := w.session
    if s.wire = false ∨ s.ready = false then some w
    else if some question ≠ s.question ∨ question ∈ s.textStarted ∨ question ∈ s.ragQuestions then
      some w
    else some { w with
      session := { s with ragQuestions := question :: s.ragQuestions }
      claims := w.claims ++ [(question, w.history.length)] }

def controlKinds : List String := ["time_low", "silence_confirm", "goodbye"]

/-- `content.strip()` is empty. -/
def blank (t : Text) : Bool := t.all Char.isWhitespace

def controlQuery (w : ProviderRun D) (content kind token : Text) : Option (ProviderRun D) :=
  let s := w.session
  if kind ∉ controlKinds.map String.toList ∨ blank content = true ∨ 2000 < content.length ∨
      token = [] ∨ 64 < token.length then none
  else if s.wire = false ∨ s.ready = false then
    some { w with session := { s with controlPending := none } }
  else
    match s.controlPending with
    | some _ => some w
    | none => some { w with session := { s with controlPending := some ⟨kind, token, s.question⟩ } }

def sayHello (w : ProviderRun D) (content : Text) : Option (ProviderRun D) :=
  let s := w.session
  if blank content = true ∨ 200 < content.length ∨ s.wire = false ∨ s.ready = false then none
  else if s.greetingSession = some s.sessionId then some w
  else some { w with
    session := { s with greetingSession := some s.sessionId, greetingPending := true } }

def preservePlayingQuestion (s : ProviderSession D) (question : Ident) : ProviderSession D :=
  if question ∈ s.questions.map Prod.snd then
    { s with preservedQuestions := question :: s.preservedQuestions }
  else s

def step (w : ProviderRun D) : ProviderInput → Option (ProviderRun D)
  | .createConnection =>
    if w.session.wire then none else some { w with session := { w.session with wire := true } }
  | .startSession answer =>
    if w.session.wire = false ∨ w.session.ready = true then none else some (startFresh h a w answer)
  | .reconnectSession enabled enabledAfter connected answer =>
    some (reconnectSession h a w enabled enabledAfter connected answer)
  | .finishSession => some { w with session := finishSession w.session }
  | .receiveQueued => receiveQueued w
  | .receive msg => receive h a w msg
  | .injectRag question content enabled => injectRag a w question content enabled
  | .claimRag k => claimRag w k
  | .controlQuery content kind token => controlQuery w content kind token
  | .controlFailed => some { w with session := { w.session with controlPending := none } }
  | .sayHello content => sayHello w content
  | .preservePlayingQuestion question =>
    some { w with session := preservePlayingQuestion w.session question }

def machine : Machine (ProviderRun D) ProviderInput where
  start w := ∃ minted, w = ⟨initialSession minted, [], [], [], []⟩
  step := step h a

end Steps

end CompanionBackend.ProviderNormalizer
