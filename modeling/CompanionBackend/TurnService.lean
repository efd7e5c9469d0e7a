import CompanionBackend.EventReordering
import CompanionBackend.TurnRecords

/-!
# The turn service

One service records the turns of one provider session. It keeps a draft of every
question in memory, hands provider events to the drafts in the order of their
numbers, and writes a row when a final transcript or a playback result arrives.
Everything happens under the service's lock, so an operation is one step. Metrics
and clocks are left out.
-/
namespace CompanionBackend.TurnService

open ProviderEvents TurnRecords EventReordering

structure VoiceTurnService where
  callId : Ident
  sessionId : Ident
  /-- There is a `memory_job_writer`. -/
  hasJobs : Bool
  frozen : Bool
  drafts : List TurnDraft
  replies : List (Ident × Ident)
  pendingEffective : List (Ident × EffectiveText)
  deriving DecidableEq, Repr

/-- The service and the rows it writes. -/
structure TurnState where
  service : VoiceTurnService
  db : TurnDb

/-- How a transaction ended: whether it took effect, and whether it raised nevertheless. -/
structure CommitAnswer where
  persisted : Bool
  raised : Bool
  deriving DecidableEq, Repr

/-- What is decided outside the service while it handles one event. -/
structure EventAnswers where
  gate : GateAnswers
  commit : CommitAnswer
  deriving DecidableEq, Repr

namespace VoiceTurnService

/-- A service that has just been made for a session. -/
def new (callId sessionId : Ident) (hasJobs : Bool) : VoiceTurnService :=
  ⟨callId, sessionId, hasJobs, false, [], [], []⟩

def draft (s : VoiceTurnService) (question : Ident) : Option TurnDraft :=
  s.drafts.find? fun d => d.questionId = question

def putDraft (s : VoiceTurnService) (d : TurnDraft) : VoiceTurnService :=
  { s with drafts := s.drafts.map fun d' => if d'.questionId = d.questionId then d else d' }

def dropDraft (s : VoiceTurnService) (question : Ident) : VoiceTurnService :=
  { s with drafts := s.drafts.filter fun d => d.questionId ≠ question }

/-- The question of a reply. -/
def question (s : VoiceTurnService) (reply : Ident) : Option Ident := s.replies.lookup reply

/-- `_draft`: the service with a draft of the question. -/
def openDraft (s : VoiceTurnService) (question : Option Ident) :
    Except TurnError (VoiceTurnService × TurnDraft) :=
  match question with
  | none => .error .questionMissing
  | some [] => .error .questionMissing
  | some (c :: cs) =>
    match s.draft (c :: cs) with
    | some d => .ok (s, d)
    | none =>
      if 4096 ≤ s.drafts.length then .error .turnLimit
      else .ok ({ s with drafts := s.drafts ++ [.new (c :: cs)] }, .new (c :: cs))

/-- The reply is known for another question. -/
def misplaced (s : VoiceTurnService) (e : ProviderEvent) : Bool :=
  e.replyId.any fun reply => (s.question reply).any fun q => e.questionId ≠ some q

/-- The draft and the table of replies with the event's reply. -/
def bindReply (s : VoiceTurnService) (d : TurnDraft) (reply : Option Ident) :
    Except TurnError (VoiceTurnService × TurnDraft) :=
  match reply with
  | none => .ok (s, d)
  | some [] => .ok (s, d)
  | some (c :: cs) =>
    if (s.question (c :: cs)).any (fun q => q ≠ d.questionId) ||
        d.replyId.any (fun r => r ≠ c :: cs) then .error .replyIdentityConflict
    else
      let d := { d with replyId := some (c :: cs) }
      .ok ({ s.putDraft d with
        replies := if (s.question (c :: cs)).isSome then s.replies
          else s.replies ++ [(c :: cs, d.questionId)] }, d)

/-- A filtered event takes away a draft nothing has been recorded in. -/
def filterDraft (s : VoiceTurnService) (question : Option Ident) : VoiceTurnService :=
  match question.bind s.draft with
  | none => s
  | some d =>
    if !d.finalSeen && d.generated.isEmpty && d.replyId.isNone then s.dropDraft d.questionId else s

end VoiceTurnService

/-- The kinds `_handle` looks at. -/
def recorded : EventKind → Bool
  | .userSpeechStarted | .asrInterim | .asrFinal | .userSpeechFinished | .chatText
  | .sentenceStarted | .sentenceFinished | .textFinished | .ttsFinished => true
  | _ => false

/-- The confidence the row takes. -/
def checkedConfidence : Option Confidence → Except TurnError (Option ℚ)
  | none => .ok none
  | some .other => .error .asrConfidenceInvalid
  | some (.number q) => if 0 ≤ q ∧ q ≤ 1 then .ok (some q) else .error .asrConfidenceInvalid

/-- The transaction of a final transcript. -/
def writeFinal (db : TurnDb) (d : TurnDraft) (text : Text) (confidence : Option Confidence)
    (g : GateAnswers) : Except TurnError TurnDb :=
  (writeText db d .user text g).bind fun w =>
    (checkedConfidence confidence).map fun c =>
      if c.isSome then w.db.putRow { w.row with userAsrConfidence := c } else w.db

/-- The rows after a transaction. -/
def committed (db : TurnDb) (tx : Except TurnError TurnDb) (a : CommitAnswer) : TurnDb :=
  match tx with
  | .ok db' => if a.persisted then db' else db
  | .error _ => db

/-- The transaction raised or could not be committed. -/
def failedTx (tx : Except TurnError TurnDb) (a : CommitAnswer) : Bool :=
  !tx.toOption.isSome || !a.persisted || a.raised

/-- A final transcript. A failed transaction is only logged. When the task is cancelled in the
transaction, the transcript does not count as seen. -/
def asrFinal (s : TurnState) (d : TurnDraft) (e : ProviderEvent) (a : EventAnswers)
    (cancelled : Bool) : TurnState × Option TurnError :=
  if d.finalSeen then (s, none)
  else
    match e.payload with
    | .text text =>
      if 65536 < text.length then (s, some .finalInvalid)
      else
        let db := committed s.db (writeFinal s.db d text e.asrConfidence a.gate) a.commit
        if cancelled then ({ s with db }, some .cancelled)
        else
          ({ service := s.service.putDraft { d with userFinal := none, finalSeen := true }, db }, none)
    | _ => (s, some .finalInvalid)

/-- Generated text. -/
def chatText (s : TurnState) (d : TurnDraft) (e : ProviderEvent) : TurnState × Option TurnError :=
  match e.replyId, e.payload with
  | some (_ :: _), .text text =>
    if 131072 < d.generated.length + text.length then (s, some .generatedInvalid)
    else if d.assistantIsolated then (s, none)
    else
      ({ s with service := s.service.putDraft { d with generated := d.generated ++ text } }, none)
  | _, _ => (s, some .generatedInvalid)

/-- What the event does to its draft. -/
def recordEvent (s : TurnState) (d : TurnDraft) (e : ProviderEvent) (a : EventAnswers)
    (cancelled : Bool) : TurnState × Option TurnError :=
  match e.kind with
  | .asrFinal => asrFinal s d e a cancelled
  | .chatText => chatText s d e
  | .ttsFinished => ({ s with service := s.service.putDraft { d with ttsFinished := true } }, none)
  | .textFinished => ({ s with service := s.service.putDraft { d with textFinished := true } }, none)
  | _ => (s, none)

/-- The part of `_handle` that finds the draft. -/
def handleQuestion (a : EventAnswers) (cancelled : Bool) (s : TurnState) (e : ProviderEvent) :
    TurnState × Option TurnError :=
  match s.service.openDraft e.questionId with
  | .error err => (s, some err)
  | .ok (service, d) =>
    if d.closed then ({ s with service }, none)
    else
      match service.bindReply d e.replyId with
      | .error err => ({ s with service }, some err)
      | .ok (service, d) => recordEvent { s with service } d e a cancelled

/-- `_handle`. -/
def handle (a : EventAnswers) (cancelled : Bool) (s : TurnState) (e : ProviderEvent) :
    TurnState × Option TurnError :=
  if e.kind = .backchannelFiltered then
    ({ s with service := s.service.filterDraft e.questionId }, none)
  else if !recorded e.kind then (s, none)
  else if s.service.misplaced e then (s, some .replyIdentityConflict)
  else handleQuestion a cancelled s e

/-- `isinstance(identity, str) and 1 <= len(identity) <= 64`, where there is one. -/
def identityOk (identity : Option Ident) : Bool :=
  identity.all fun i => 1 ≤ i.length && i.length ≤ 64

/-- The checks of `consume` before it takes the lock. -/
def vet (callId sessionId : Ident) (e : ProviderEvent) : Option TurnError :=
  if e.callId ≠ callId ∨ e.sessionId ≠ sessionId then some .eventIdentityMismatch
  else if e.sequence < 1 then some .eventSequenceInvalid
  else if !(identityOk e.questionId && identityOk e.replyId) then some .eventIdentityInvalid
  else none

/-- The reordering of `consume`, while events are handled with the given answers. -/
def turnReorderer (callId sessionId : Ident) (answers : ℕ → EventAnswers) (cancelled : ℕ → Bool) :
    Reorderer TurnState ProviderEvent TurnError where
  window := 128
  limitError := .eventReorderLimit
  vet := vet callId sessionId
  closed s := s.service.frozen
  handle s e := handle (answers e.sequence) (cancelled e.sequence) s e

/-! ### Playback results and the end of the call -/

/-- What is decided outside the service while it stages one playback result. -/
structure ApplyAnswers where
  gate : GateAnswers
  job : JobAnswer
  commit : CommitAnswer
  deriving DecidableEq, Repr

/-- A result that contradicts its own evidence. -/
def mismatched (result : EffectiveText) : Bool :=
  (result.evidence = .none && !result.text.isEmpty) || (result.evidence = .full && !result.completed)

/-- The result cannot be applied to the draft. -/
def refused (d : TurnDraft) (result : EffectiveText) : Option TurnError :=
  if result.completed && !d.ttsFinished then some .replyAudioUnfinished
  else if result.evidence = .full && !d.assistantIsolated && result.text ≠ d.generated then
    some .fullTextMismatch
  else none

/-- The draft of a reply; a reply is only ever recorded together with one. -/
def VoiceTurnService.replyDraft (s : VoiceTurnService) (reply : Ident) :
    Except TurnError TurnDraft :=
  match s.question reply with
  | none => .error .replyUnknown
  | some question =>
    match s.draft question with
    | none => .error .draftMissing
    | some d => .ok d

/-- The draft after its result has been staged: a failed transaction closes it, and so does the end
of the reply. -/
def afterEffective (d : TurnDraft) (result : EffectiveText) (failed : Bool) : TurnDraft :=
  if failed || result.completed || result.interrupted then { d with generated := [], closed := true }
  else d

/-- `apply_effective`. A cancelled task leaves the result for the final flush. -/
def applyEffective (s : TurnState) (reply : Ident) (result : EffectiveText) (a : ApplyAnswers)
    (cancelled : Bool) : TurnState × Except TurnError Bool :=
  if mismatched result then (s, .error .effectiveEvidenceMismatch)
  else if s.service.frozen then (s, .ok false)
  else
    match s.service.replyDraft reply with
    | .error err => (s, .error err)
    | .ok d =>
      if d.closed then (s, .ok false)
      else
        match refused d result with
        | some err => (s, .error err)
        | none =>
          let staged := stageEffective s.service.hasJobs s.db d result a.gate a.job
          let db := committed s.db staged.2 a.commit
          if cancelled then
            ({ service := { s.service.putDraft staged.1 with
                pendingEffective :=
                  (s.service.pendingEffective.filter fun p : Ident × EffectiveText => p.1 ≠ reply) ++ [(reply, result)] },
               db }, .error .cancelled)
          else
            ({ service := { s.service.putDraft
                  (afterEffective staged.1 result (failedTx staged.2 a.commit)) with
                pendingEffective := s.service.pendingEffective.filter fun p : Ident × EffectiveText => p.1 ≠ reply },
               db }, .ok true)

/-- `freeze`, on the service. -/
def VoiceTurnService.freeze (s : VoiceTurnService) : VoiceTurnService := { s with frozen := true }

/-- The pending results are staged. -/
def flushPending (answers : Ident → ApplyAnswers) (service : VoiceTurnService) (db : TurnDb) :
    List (Ident × EffectiveText) → VoiceTurnService × Except TurnError TurnDb
  | [] => (service, .ok db)
  | (reply, result) :: rest =>
    match service.replyDraft reply with
    | .error err => (service, .error err)
    | .ok d =>
      let staged :=
        stageEffective service.hasJobs db d result (answers reply).gate (answers reply).job
      match staged.2 with
      | .error err => (service.putDraft staged.1, .error err)
      | .ok db => flushPending answers (service.putDraft staged.1) db rest

/-- A turn that is still collecting is aborted. -/
def abort (db : TurnDb) (row : VoiceCallTurn) : TurnDb :=
  if row.turnStatus = .collecting then
    db.putRow { row with turnStatus := .aborted, memoryStatus := .skipped }
  else db

/-- The drafts that are still open are aborted. -/
def flushDrafts (answers : Ident → GateAnswers) (db : TurnDb) : List TurnDraft → Except TurnError TurnDb
  | [] => .ok db
  | d :: rest =>
    if d.closed then flushDrafts answers db rest
    else
      let written : Except TurnError TurnDb := match d.userFinal with
        | none => .ok db
        | some text => (writeText db d .user text (answers d.questionId)).map Written.db
      written.bind fun db => (turn db d).bind fun (db, row) =>
        flushDrafts answers (abort db row) rest

/-- `final_flush`, in the transaction of the caller. Its results are dropped whether it raises or
not. -/
def finalFlush (s : TurnState) (effective : Ident → ApplyAnswers) (final : Ident → GateAnswers)
    (commit : CommitAnswer) : TurnState × Option TurnError :=
  if !s.service.frozen then (s, some .turnProducerNotFrozen)
  else
    let pending := flushPending effective s.service s.db s.service.pendingEffective
    let tx := pending.2.bind fun db => flushDrafts final db pending.1.drafts
    let service := { pending.1 with
      drafts := pending.1.drafts.map fun d => { d with userFinal := none, generated := [] }
      pendingEffective := [] }
    ({ service, db := committed s.db tx commit },
      match tx with
      | .ok _ => none
      | .error err => some err)

end CompanionBackend.TurnService
