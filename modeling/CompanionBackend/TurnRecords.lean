import Mathlib.Data.List.Range
import Mathlib.Data.List.Nodup
import CompanionBackend.ProviderEvents
import CompanionBackend.Runs
import CompanionBackend.VoiceModels

/-!
# Turn records

The rows a call's turns are kept in and the transactions that write them: the row
of a question is made on its first write, each side is assessed by the gate before
its text is stored, and what playback proves decides what of a reply is kept. The
gate is not part of the model: its answers are an argument of each write. Crisis
records and timestamps are left out.
-/
namespace CompanionBackend.TurnRecords

open ProviderEvents Runs
open VoiceModels (CallStatus TurnStatus TextEvidence)

inductive SafetyStatus
  | pending | passed | matched | errorAllowed
  deriving DecidableEq, Repr

inductive CrisisStatus
  | pending | passed | matched | suspected | isolationFailed
  deriving DecidableEq, Repr

inductive MemoryStatus
  | skipped | pending | processing | success | failed | cancelled
  deriving DecidableEq, Repr

inductive Direction
  | user | assistant
  deriving DecidableEq, Repr

structure GateDecision where
  safety : SafetyStatus
  crisis : CrisisStatus
  deriving DecidableEq, Repr

/-- `permits_text`. -/
def GateDecision.permitsText (d : GateDecision) : Bool :=
  d.crisis = .passed && d.safety != .pending

structure EffectiveText where
  text : Text
  evidence : TextEvidence
  playedMs : Option ℕ
  completed : Bool
  interrupted : Bool
  deriving DecidableEq, Repr

structure TurnDraft where
  questionId : Ident
  replyId : Option Ident
  userFinal : Option Text
  finalSeen : Bool
  generated : Text
  ttsFinished : Bool
  textFinished : Bool
  closed : Bool
  assistantIsolated : Bool
  deriving DecidableEq, Repr

/-- `TurnDraft(question_id)`. -/
def TurnDraft.new (question : Ident) : TurnDraft :=
  ⟨question, none, none, false, [], false, false, false, false⟩

structure VoiceCallTurn where
  turnIndex : ℕ
  questionId : Ident
  replyId : Option Ident
  userTextFinal : Option Text
  userAsrConfidence : Option ℚ
  assistantTextGenerated : Option Text
  assistantTextEffective : Option Text
  effectiveTextEvidence : TextEvidence
  assistantInterrupted : Bool
  playedAudioMs : Option ℕ
  turnStatus : TurnStatus
  memoryStatus : MemoryStatus
  contentSafetyStatus : Direction → SafetyStatus
  crisisStatus : Direction → CrisisStatus

/-- The call's row as the turn service reads it. -/
structure CallState where
  status : CallStatus
  deletionFence : Bool
  deriving DecidableEq, Repr

/-- The rows of one call. -/
structure TurnDb where
  call : Option CallState
  turns : List VoiceCallTurn
  /-- The turns that have a memory job. -/
  jobs : List ℕ

inductive TurnError
  | eventIdentityMismatch | eventSequenceInvalid | eventIdentityInvalid | eventReorderLimit
  | questionMissing | turnLimit | replyIdentityConflict | finalInvalid | generatedInvalid
  | callNotWritable | asrConfidenceInvalid | gateRecordFailed | memoryJobFailed
  | effectiveEvidenceMismatch | replyUnknown | replyAudioUnfinished | fullTextMismatch
  | turnProducerNotFrozen | draftMissing | cancelled
  deriving DecidableEq, Repr

/-- What the gate answers during one write: its decision, if it made one, and whether the record,
the isolation and the generated text went through. -/
structure GateAnswers where
  decision : Option GateDecision
  recorded : Bool
  isolated : Bool
  permitsGenerated : Bool
  deriving DecidableEq, Repr

/-! ### The row of a question -/

/-- `lock_call` and the check that follows it. -/
def TurnDb.writable (db : TurnDb) : Bool :=
  match db.call with
  | none => false
  | some call => !call.status.terminal && !call.deletionFence

def TurnDb.row (db : TurnDb) (question : Ident) : Option VoiceCallTurn :=
  db.turns.find? fun row => row.questionId = question

def TurnDb.putRow (db : TurnDb) (row : VoiceCallTurn) : TurnDb :=
  { db with turns := db.turns.map fun r => if r.questionId = row.questionId then row else r }

/-- The greatest index of a turn, zero when there is none. -/
def TurnDb.lastIndex (db : TurnDb) : ℕ := (db.turns.map (·.turnIndex)).foldr max 0

def VoiceCallTurn.new (index : ℕ) (draft : TurnDraft) : VoiceCallTurn where
  turnIndex := index
  questionId := draft.questionId
  replyId := draft.replyId
  userTextFinal := none
  userAsrConfidence := none
  assistantTextGenerated := none
  assistantTextEffective := none
  effectiveTextEvidence := .none
  assistantInterrupted := false
  playedAudioMs := none
  turnStatus := .collecting
  memoryStatus := .skipped
  contentSafetyStatus _ := .pending
  crisisStatus _ := .pending

/-- `_turn`. -/
def turn (db : TurnDb) (draft : TurnDraft) : Except TurnError (TurnDb × VoiceCallTurn) :=
  if !db.writable then .error .callNotWritable
  else
    match db.row draft.questionId with
    | none =>
      let row := VoiceCallTurn.new (db.lastIndex + 1) draft
      .ok ({ db with turns := db.turns ++ [row] }, row)
    | some row =>
      match draft.replyId with
      | none => .ok (db, row)
      | some reply =>
        if row.replyId.any fun r => r ≠ reply then .error .replyIdentityConflict
        else .ok (db.putRow { row with replyId := some reply }, { row with replyId := some reply })

/-! ### One side of a turn -/

/-- A match and an allowed error stay. -/
def mergeSafety (previous decided : SafetyStatus) : SafetyStatus :=
  if previous = .matched ∨ decided = .matched then .matched
  else if previous = .errorAllowed ∨ decided = .errorAllowed then .errorAllowed
  else decided

def CrisisStatus.hit : CrisisStatus → Bool
  | .matched | .suspected => true
  | _ => false

/-- The row after an assessment. A hit that could not be isolated is marked so. -/
def VoiceCallTurn.assessed (row : VoiceCallTurn) (dir : Direction) (d : GateDecision)
    (isolated : Bool) : VoiceCallTurn :=
  { row with
    contentSafetyStatus := Function.update row.contentSafetyStatus dir
      (mergeSafety (row.contentSafetyStatus dir) d.safety)
    crisisStatus := Function.update row.crisisStatus dir
      (if d.crisis.hit && !isolated then .isolationFailed else d.crisis)
    memoryStatus := .skipped }

def VoiceCallTurn.withoutAssistantText (row : VoiceCallTurn) : VoiceCallTurn :=
  { row with assistantTextGenerated := none, assistantTextEffective := none }

def TurnDraft.isolate (draft : TurnDraft) : TurnDraft :=
  { draft with generated := [], assistantIsolated := true }

/-- The row takes nothing more for this side. -/
def VoiceCallTurn.settled (row : VoiceCallTurn) (dir : Direction) : Bool :=
  row.turnStatus != .collecting ||
    match dir with
    | .user => row.userTextFinal.isSome || row.crisisStatus .user != .pending
    | .assistant =>
      -- The second disjunct only updates the crisis record of the earlier hit.
      row.crisisStatus .assistant = .isolationFailed || (row.crisisStatus .assistant).hit

/-- `text or None`. -/
def nonempty (text : Text) : Option Text := if text.isEmpty then none else some text

/-- What a decision leaves of a side's text. -/
def store (row : VoiceCallTurn) (draft : TurnDraft) (dir : Direction) (text : Text)
    (d : GateDecision) (permitsGenerated : Bool) : TurnDraft × VoiceCallTurn × Bool :=
  match dir with
  | .user =>
    if d.crisis.hit then (draft, { row with userTextFinal := none }, false)
    else if d.permitsText then (draft, { row with userTextFinal := some text }, true)
    else (draft, row, false)
  | .assistant =>
    if d.crisis.hit || !d.permitsText then (draft.isolate, row.withoutAssistantText, false)
    else
      (draft, { row with
        assistantTextEffective := nonempty text
        assistantTextGenerated := if permitsGenerated then nonempty draft.generated else none },
        true)

/-- What a write leaves: the rows, the draft, the row of the question and whether its text may be
kept. -/
structure Written where
  db : TurnDb
  draft : TurnDraft
  row : VoiceCallTurn
  allowed : Bool

/-- `_write_text`. -/
def writeText (db : TurnDb) (draft : TurnDraft) (dir : Direction) (text : Text) (g : GateAnswers) :
    Except TurnError Written :=
  (turn db draft).bind fun (db, row) =>
    if row.settled dir then .ok ⟨db, draft, row, false⟩
    else if !g.recorded then .error .gateRecordFailed
    else
      let d := g.decision.getD ⟨.pending, .isolationFailed⟩
      let (draft, row, allowed) :=
        store (row.assessed dir d g.isolated) draft dir text d g.permitsGenerated
      .ok ⟨db.putRow row, draft, row, allowed⟩

/-! ### What playback proves -/

/-- `MIN_ASR_CONFIDENCE`. -/
def minAsrConfidence : ℚ := 1 / 2

/-- `\s` of a Python pattern. -/
def isBlank (c : Char) : Bool :=
  c.toNat ∈ [0x9, 0xa, 0xb, 0xc, 0xd, 0x1c, 0x1d, 0x1e, 0x1f, 0x20, 0x85, 0xa0, 0x1680, 0x2028,
    0x2029, 0x202f, 0x205f, 0x3000] || (0x2000 ≤ c.toNat && c.toNat ≤ 0x200a)

def isMark (c : Char) : Bool :=
  c ∈ ['，', '。', '！', '？', '、', ',', '.', '!', '?', '～', '~', '…']

def isFiller (c : Char) : Bool :=
  c ∈ ['嗯', '啊', '哦', '噢', '对', '是', '好', '哈', '呵', '诶', '唉', '呃']

def compact (text : Text) : Text := text.filter fun c => !(isBlank c || isMark c)

/-- Both sides passed both checks. -/
def VoiceCallTurn.passedAll (row : VoiceCallTurn) : Bool :=
  row.contentSafetyStatus .user = .passed && row.contentSafetyStatus .assistant = .passed &&
    row.crisisStatus .user = .passed && row.crisisStatus .assistant = .passed

/-- `eligible_turn`. -/
def eligibleTurn (row : VoiceCallTurn) : Bool :=
  (row.userAsrConfidence.all fun q => minAsrConfidence ≤ q && q ≤ 1) &&
    !(compact (row.userTextFinal.getD [])).isEmpty &&
    !(compact (row.userTextFinal.getD [])).all isFiller &&
    !(row.assistantTextEffective.getD []).isEmpty &&
    (row.turnStatus = .finalized || row.turnStatus = .interrupted) &&
    row.effectiveTextEvidence != .none && row.passedAll

/-- The memory job of a turn: its row may be locked by another worker, or the database fail. -/
inductive JobAnswer
  | free | locked | failed
  deriving DecidableEq, Repr

/-- `VoiceMemoryService.stage_job`. -/
def stageJob (db : TurnDb) (row : VoiceCallTurn) : JobAnswer → Except TurnError (TurnDb × VoiceCallTurn)
  | .failed => .error .memoryJobFailed
  | .locked => .ok (db, row)
  | .free =>
    if row.turnIndex ∈ db.jobs then .ok (db, row)
    else
      let status := if db.call.any (·.deletionFence) then MemoryStatus.cancelled
        else if eligibleTurn row then .pending else .skipped
      .ok ({ db with jobs := row.turnIndex :: db.jobs }, { row with memoryStatus := status })

/-- The row with what playback has proved. -/
def VoiceCallTurn.proved (row : VoiceCallTurn) (result : EffectiveText) (allowed : Bool) :
    VoiceCallTurn :=
  { row with
    effectiveTextEvidence := if allowed then result.evidence else .none
    playedAudioMs := result.playedMs
    assistantInterrupted := result.interrupted }

/-- The row of a reply that has ended. -/
def VoiceCallTurn.ended (row : VoiceCallTurn) (result : EffectiveText) : VoiceCallTurn :=
  { row with
    turnStatus := if result.interrupted then .interrupted else .finalized
    memoryStatus :=
      if !(row.userTextFinal.getD []).isEmpty && !(row.assistantTextEffective.getD []).isEmpty &&
        row.passedAll then .pending
      else row.memoryStatus }

/-- `_stage_effective`; the draft is left also when a later step raises. `hasJobs` tells whether the
service has a `memory_job_writer`. -/
def stageEffective (hasJobs : Bool) (db : TurnDb) (draft : TurnDraft) (result : EffectiveText)
    (g : GateAnswers) (job : JobAnswer) : TurnDraft × Except TurnError TurnDb :=
  match writeText db draft .assistant result.text g with
  | .error e => (draft, .error e)
  | .ok w =>
    if w.row.turnStatus ≠ .collecting then (w.draft, .ok w.db)
    else
      let row := w.row.proved result w.allowed
      if result.completed || result.interrupted then
        if hasJobs then
          (w.draft, (stageJob w.db (row.ended result) job).map fun (db, row) => db.putRow row)
        else (w.draft, .ok (w.db.putRow (row.ended result)))
      else (w.draft, .ok (w.db.putRow row))

end CompanionBackend.TurnRecords
