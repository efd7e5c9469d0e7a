import Mathlib.Data.List.Basic
import CompanionBackend.Runs
import CompanionBackend.TurnRecords
import CompanionBackend.Dictionaries

/-!
# Retention of a call's contents

One sweep of a call clears the texts whose deadline has passed and cancels the jobs
that needed them; an administrator's deletion clears all of them. Instants are
microseconds of UTC. A step outside the database, the deletion of a cached context,
comes before the commit, and any step may fail.
-/
namespace CompanionBackend.VoiceRetention

open Runs ProviderEvents Dictionaries
open TurnRecords (MemoryStatus)

/-- Microseconds since 1970. -/
abbrev Instant := ℤ

def microsPerDay : ℤ := 86400000000

/-- The instants of `datetime`, years 1 to 9999. -/
def minInstant : Instant := -62135596800000000
def maxInstant : Instant := 253402300799999999

/-- `timedelta(days=days)` added to an instant; `none` is an `OverflowError`. -/
def addDays (t : Instant) (days : ℤ) : Option Instant :=
  let sum := t + days * microsPerDay
  if -999999999 ≤ days ∧ days ≤ 999999999 ∧ minInstant ≤ sum ∧ sum ≤ maxInstant then some sum
  else none

/-- `_due`. -/
def due (expiry : Option Instant) (now : Instant) : Bool :=
  match expiry with
  | some t => decide (t ≤ now)
  | none => false

inductive ClearReason
  | expired | adminDeleted
  deriving DecidableEq

inductive JobStatus
  | pending | processing | failed | success | sent | skipped | cancelled
  deriving DecidableEq

structure VoiceCallTurn where
  id : ℤ
  callId : Ident
  userTextFinal : Option Text
  assistantTextEffective : Option Text
  assistantTextGenerated : Option Text
  memoryStatus : MemoryStatus
  effectiveTextExpiresAt : Option Instant
  generatedTextExpiresAt : Option Instant
  effectiveTextClearedAt : Option Instant
  generatedTextClearedAt : Option Instant
  contentClearReason : Option ClearReason

structure VoiceCall where
  id : ℤ
  sortSeq : Option ℤ
  callSummary : Option Text
  userEmotion : Option Text
  assistantEmotion : Option Text
  unfinishedTopics : Option Json
  summaryReasoning : Option Text
  configSnapshot : Json
  transcriptExpiresAt : Option Instant
  generatedTextExpiresAt : Option Instant
  reasoningExpiresAt : Option Instant
  deletionFenceAt : Option Instant
  deletedAt : Option Instant
  deletedBy : Option ℤ

/-- What the three kinds of jobs share. -/
structure JobRow where
  id : ℤ
  callId : Ident
  status : JobStatus
  nextRetryAt : Option Instant
  leaseOwner : Option Text
  leaseExpiresAt : Option Instant
  failReason : Option Text
  createdAt : Instant

structure VoiceMemoryJob extends JobRow where
  turnId : ℤ
  extractionSnapshot : Option Json

abbrev VoicePostprocessJob := JobRow

structure VoiceFollowupJob extends JobRow where
  content : Text
  cancelReason : Option Text
  agentMessageId : Option ℤ

structure VoiceCrisisRecord where
  id : ℤ
  callId : Ident
  contentPlaintext : Option Text
  matchedKeyword : Option Text
  expiresAt : Instant
  clearedAt : Option Instant

/-- A sent message; a follow-up job refers to it. -/
structure AgentMessage where
  id : ℤ
  content : Text
  deriving DecidableEq

/-- A memory that was written, under its stable key. -/
structure VoiceMemoryTrace where
  id : ℤ
  callId : Ident
  stableKey : Text
  deriving DecidableEq

structure AdminOperationLog where
  adminId : ℤ
  module : Text
  action : Text
  target : Text
  deriving DecidableEq

@[ext] structure Tables where
  /-- The calls under their `call_id`. -/
  calls : Dict Ident VoiceCall
  turns : List VoiceCallTurn
  memoryJobs : List VoiceMemoryJob
  postprocessJobs : List VoicePostprocessJob
  followupJobs : List VoiceFollowupJob
  crisisRecords : List VoiceCrisisRecord
  messages : List AgentMessage
  traces : List VoiceMemoryTrace
  operationLog : List AdminOperationLog

/-- A memory job is made for a turn of its own call. -/
def Tables.Linked (s : Tables) : Prop :=
  ∀ j ∈ s.memoryJobs, ∀ t ∈ s.turns, t.id = j.turnId → t.callId = j.callId

/-- The database: its jobs are linked to turns of their call, and a turn has one id. -/
structure Database extends Tables where
  linked : toTables.Linked
  turnKeys : (turns.map VoiceCallTurn.id).Nodup

/-- The default of `job_log_days`. -/
def defaultJobLogDays : ℤ := 90

/-- `_job_days`: what the frozen configuration says, when it is a positive integer. -/
def jobDays (call : VoiceCall) : ℤ :=
  match ((call.configSnapshot.get "resolved_config").bind fun c =>
      (c.get "retention").bind fun r => r.get "job_log_days") with
  | some (.int days) => if 0 < days then days else defaultJobLogDays
  | _ => defaultJobLogDays

inductive PurgeError
  | overflow | callNotFound | database | cache | audit | commit
  deriving DecidableEq

/-- `_has_due_content`. -/
def hasDueContent (s : Tables) (callId : Ident) (now : Instant) : Except PurgeError Bool :=
  match Dict.get s.calls callId with
  | none => .ok false
  | some call =>
    if call.deletionFenceAt ≠ none ∨ call.deletedAt ≠ none then .ok true
    else if due call.transcriptExpiresAt now || due call.generatedTextExpiresAt now ||
        due call.reasoningExpiresAt now then .ok true
    else if s.turns.any fun t => decide (t.callId = callId) &&
        (due t.effectiveTextExpiresAt now || due t.generatedTextExpiresAt now) then .ok true
    else if s.crisisRecords.any fun r => decide (r.callId = callId) && decide (r.expiresAt ≤ now) then
      .ok true
    else
      match addDays now (-jobDays call) with
      | none => .error .overflow
      | some cutoff =>
        .ok (s.memoryJobs.any (fun j => decide (j.callId = callId) && decide (j.createdAt ≤ cutoff)) ||
          s.postprocessJobs.any (fun j => decide (j.callId = callId) && decide (j.createdAt ≤ cutoff)) ||
          s.followupJobs.any (fun j => decide (j.callId = callId) && decide (j.createdAt ≤ cutoff)))

/-- What one sweep works with once the call is locked. -/
structure Sweep where
  now : Instant
  days : ℤ
  fenced : Bool
  callExpired : Bool
  generatedExpired : Bool
  reasoningExpired : Bool

structure Change where
  table : String
  id : ℤ
  fields : List String
  deriving DecidableEq

def active (status : JobStatus) : Bool :=
  decide (status = .pending ∨ status = .processing ∨ status = .failed)

def fieldIf (set : Bool) (field : String) : List String := if set then [field] else []

/-- The texts whose deadline is the transcript's. -/
def Sweep.clearsEffective (p : Sweep) (t : VoiceCallTurn) : Bool :=
  p.fenced || p.callExpired || due t.effectiveTextExpiresAt p.now

def Sweep.clearsGenerated (p : Sweep) (t : VoiceCallTurn) : Bool :=
  p.fenced || p.generatedExpired || due t.generatedTextExpiresAt p.now

def Sweep.clearReason (p : Sweep) : ClearReason := if p.fenced then .adminDeleted else .expired

def clearEffective (p : Sweep) (t : VoiceCallTurn) : VoiceCallTurn × List String :=
  if p.clearsEffective t then
    ({ t with
        userTextFinal := none
        assistantTextEffective := none
        effectiveTextClearedAt := t.effectiveTextClearedAt.or (some p.now)
        contentClearReason := some p.clearReason },
      fieldIf t.userTextFinal.isSome "user_text_final" ++
        fieldIf t.assistantTextEffective.isSome "assistant_text_effective")
  else (t, [])

def clearGenerated (p : Sweep) (t : VoiceCallTurn) : VoiceCallTurn × List String :=
  if p.clearsGenerated t then
    ({ t with
        assistantTextGenerated := none
        generatedTextClearedAt := t.generatedTextClearedAt.or (some p.now)
        contentClearReason :=
          if t.contentClearReason = some .adminDeleted then t.contentClearReason
          else some p.clearReason },
      fieldIf t.assistantTextGenerated.isSome "assistant_text_generated")
  else (t, [])

def purgeTurn (p : Sweep) (t : VoiceCallTurn) : VoiceCallTurn × List String :=
  let e := clearEffective p t
  let g := clearGenerated p e.1
  (g.1, e.2 ++ g.2)

/-- `job.status='cancelled'` with its lease dropped. -/
def JobRow.cancel (j : JobRow) : JobRow :=
  { j with status := .cancelled, nextRetryAt := none, leaseOwner := none, leaseExpiresAt := none }

def Sweep.aged (p : Sweep) (j : JobRow) : Bool :=
  decide (j.createdAt + p.days * microsPerDay ≤ p.now)

def Sweep.cancelReason (p : Sweep) (expired : Bool) : Text :=
  if p.fenced then "deletion_fence".toList
  else if expired then "source_expired".toList
  else "retention_expired".toList

/-- The transcript deadline of a job's turn. -/
def turnExpiry (turns : List VoiceCallTurn) (turnId : ℤ) : Option Instant :=
  (turns.find? fun t => decide (t.id = turnId)).bind VoiceCallTurn.effectiveTextExpiresAt

/-- The source of a memory job has gone. -/
def Sweep.memoryExpired (p : Sweep) (turns : List VoiceCallTurn) (j : VoiceMemoryJob) : Bool :=
  p.fenced || p.callExpired || due (turnExpiry turns j.turnId) p.now

def purgeMemoryJob (p : Sweep) (turns : List VoiceCallTurn) (j : VoiceMemoryJob) :
    VoiceMemoryJob × List String :=
  let expired := p.memoryExpired turns j
  if p.aged j.toJobRow || expired then
    let row := if active j.status then
        { j.toJobRow.cancel with failReason := some (p.cancelReason expired) }
      else j.toJobRow
    ({ row with turnId := j.turnId, extractionSnapshot := none },
      fieldIf j.extractionSnapshot.isSome "extraction_snapshot")
  else (j, [])

def purgePostprocessJob (p : Sweep) (j : VoicePostprocessJob) : VoicePostprocessJob :=
  let expired := p.fenced || p.callExpired
  if (p.aged j || expired) && active j.status then
    { j.cancel with failReason := some (p.cancelReason expired) }
  else j

def purgeFollowupJob (p : Sweep) (j : VoiceFollowupJob) : VoiceFollowupJob × List String :=
  let expired := p.fenced || p.callExpired
  if p.aged j.toJobRow || expired then
    let row := if active j.status then j.toJobRow.cancel else j.toJobRow
    ({ row with
        content := []
        cancelReason := if active j.status then some (p.cancelReason expired) else j.cancelReason
        agentMessageId := j.agentMessageId },
      fieldIf (!j.content.isEmpty) "content")
  else (j, [])

def purgeCrisis (p : Sweep) (r : VoiceCrisisRecord) : VoiceCrisisRecord × List String :=
  if p.fenced || decide (r.expiresAt ≤ p.now) then
    ({ r with
        contentPlaintext := none
        matchedKeyword := none
        clearedAt := r.clearedAt.or (some p.now) },
      fieldIf r.contentPlaintext.isSome "content_plaintext" ++
        fieldIf r.matchedKeyword.isSome "matched_keyword")
  else (r, [])

/-- The turns whose memory job a sweep cancels. -/
def cancelledTurns (p : Sweep) (turns : List VoiceCallTurn) (jobs : List VoiceMemoryJob) : List ℤ :=
  (jobs.filter fun j => (p.aged j.toJobRow || p.memoryExpired turns j) && active j.status).map
    VoiceMemoryJob.turnId

def cancelMemory (ids : List ℤ) (t : VoiceCallTurn) : VoiceCallTurn :=
  if t.id ∈ ids ∧ t.memoryStatus ≠ .success then { t with memoryStatus := .cancelled } else t

/-- A memory job of the call a fence cancels. -/
def stopped (callId : Ident) (j : VoiceMemoryJob) : Bool :=
  decide (j.callId = callId) && active j.status

def fenceJob (callId : Ident) (j : VoiceMemoryJob) : VoiceMemoryJob :=
  if stopped callId j then
    { j.toJobRow.cancel with
        failReason := some "deletion_fence".toList
        turnId := j.turnId
        extractionSnapshot := none }
  else j

def stoppedTurns (jobs : List VoiceMemoryJob) (callId : Ident) : List ℤ :=
  (jobs.filter (stopped callId)).map VoiceMemoryJob.turnId

/-- The turn a sweep leaves. -/
def sweptTurn (p : Sweep) (ids : List ℤ) (t : VoiceCallTurn) : VoiceCallTurn :=
  cancelMemory ids (purgeTurn p t).1

/-- `stage_deletion_fence`: the call is fenced and its unfinished memory jobs are cancelled. -/
def stageDeletionFence (s : Tables) (callId : Ident) (call : VoiceCall) (utcnow : Instant) :
    Tables × VoiceCall :=
  ({ s with
      memoryJobs := s.memoryJobs.map (fenceJob callId)
      turns := s.turns.map (cancelMemory (stoppedTurns s.memoryJobs callId)) },
    { call with deletionFenceAt := call.deletionFenceAt.or (some utcnow) })

structure AdminUser where
  id : ℤ
  deriving DecidableEq

structure Report where
  callId : Ident
  changed : List Change
  cacheKeys : List Ident
  deletedAt : Option Instant
  deriving DecidableEq

/-- A row of this call is replaced, any other row kept. -/
def ofCall {α : Type} (callId : Ident) (owner : α → Ident) (f : α → α) (row : α) : α :=
  if owner row = callId then f row else row

/-- The changes reported of the rows of this call. -/
def changesOf {α : Type} (table : String) (callId : Ident) (owner : α → Ident) (id : α → ℤ)
    (fields : α → List String) (rows : List α) : List Change :=
  (rows.filter fun row => decide (owner row = callId) && !(fields row).isEmpty).map fun row =>
    ⟨table, id row, fields row⟩

def sweepOf (call : VoiceCall) (now : Instant) : Sweep where
  now := now
  days := jobDays call
  fenced := decide (call.deletionFenceAt ≠ none ∨ call.deletedAt ≠ none)
  callExpired := due call.transcriptExpiresAt now
  generatedExpired := due call.generatedTextExpiresAt now
  reasoningExpired := due call.reasoningExpiresAt now

/-- Every job of the call is asked for its age. -/
def agesFit (s : Tables) (callId : Ident) (days : ℤ) : Bool :=
  let fits (j : JobRow) : Bool := decide (j.callId ≠ callId) || (addDays j.createdAt days).isSome
  (s.memoryJobs.all fun j => fits j.toJobRow) && s.postprocessJobs.all fits &&
    s.followupJobs.all fun j => fits j.toJobRow

/-- The rows of the call after a sweep. -/
def sweepTables (p : Sweep) (s : Tables) (callId : Ident) : Tables :=
  let turns := s.turns.filter fun t => decide (t.callId = callId)
  let jobs := s.memoryJobs.filter fun j => decide (j.callId = callId)
  { s with
    turns := s.turns.map (ofCall callId VoiceCallTurn.callId
      (sweptTurn p (cancelledTurns p turns jobs)))
    memoryJobs := s.memoryJobs.map (ofCall callId (fun j => j.callId) fun j =>
      (purgeMemoryJob p turns j).1)
    postprocessJobs := s.postprocessJobs.map (ofCall callId JobRow.callId (purgePostprocessJob p))
    followupJobs := s.followupJobs.map (ofCall callId (fun j => j.callId) fun j =>
      (purgeFollowupJob p j).1)
    crisisRecords := s.crisisRecords.map (ofCall callId VoiceCrisisRecord.callId fun r =>
      (purgeCrisis p r).1) }

def sweepChanges (p : Sweep) (s : Tables) (callId : Ident) (call : VoiceCall) : List Change :=
  let turns := s.turns.filter fun t => decide (t.callId = callId)
  changesOf "voice_call_turn" callId VoiceCallTurn.callId VoiceCallTurn.id
      (fun t => (purgeTurn p t).2) s.turns ++
    (if (p.fenced || p.reasoningExpired) && call.summaryReasoning.isSome then
      [⟨"voice_call", call.id, ["summary_reasoning"]⟩] else []) ++
    changesOf "voice_memory_job" callId (fun j => j.callId) (fun j => j.id)
      (fun j => (purgeMemoryJob p turns j).2) s.memoryJobs ++
    changesOf "voice_followup_job" callId (fun j => j.callId) (fun j => j.id)
      (fun j => (purgeFollowupJob p j).2) s.followupJobs ++
    changesOf "voice_crisis_record" callId VoiceCrisisRecord.callId VoiceCrisisRecord.id
      (fun r => (purgeCrisis p r).2) s.crisisRecords

def sweepCall (p : Sweep) (call : VoiceCall) : VoiceCall :=
  { call with
    summaryReasoning := if p.fenced || p.reasoningExpired then none else call.summaryReasoning }

/-- What only an administrator's deletion clears, and its mark. -/
def deleteCall (call : VoiceCall) (admin : AdminUser) (now : Instant) : VoiceCall × List String :=
  ({ call with
      sortSeq := none, callSummary := none, summaryReasoning := none, unfinishedTopics := none
      userEmotion := none, assistantEmotion := none
      deletedAt := call.deletedAt.or (some now)
      deletedBy := if call.deletedAt = none then some admin.id else call.deletedBy },
    fieldIf call.sortSeq.isSome "sort_seq" ++ fieldIf call.callSummary.isSome "call_summary" ++
      fieldIf call.summaryReasoning.isSome "summary_reasoning" ++
      fieldIf call.unfinishedTopics.isSome "unfinished_topics" ++
      fieldIf call.userEmotion.isSome "user_emotion" ++
      fieldIf call.assistantEmotion.isSome "assistant_emotion")

def cacheDue (p : Sweep) (s : Tables) (callId : Ident) : Bool :=
  p.callExpired || p.fenced ||
    s.turns.any fun t => decide (t.callId = callId) && p.clearsEffective t

/-- The transaction of a sweep up to its commit, with the audit row of an administrator. -/
def purgeTransaction (s : Tables) (callId : Ident) (call : VoiceCall) (now utcnow : Instant)
    (admin : Option AdminUser) : Except PurgeError (Tables × Report) := do
  let f := match admin with
    | some _ => stageDeletionFence s callId call utcnow
    | none => (s, call)
  let p := sweepOf f.2 now
  require (agesFit f.1 callId p.days = true) .overflow
  let swept := sweepCall p f.2
  let final := match admin with
    | some a => deleteCall swept a now
    | none => (swept, [])
  let log := match admin with
    | some a => [⟨a.id, "voice_calls".toList, "delete".toList, callId⟩]
    | none => []
  let tables := sweepTables p f.1 callId
  .ok ({ tables with
      calls := Dict.set s.calls callId final.1
      operationLog := s.operationLog ++ log },
    { callId := callId
      changed := sweepChanges p f.1 callId f.2 ++
        (if final.2 = [] then [] else [⟨"voice_call", call.id, final.2⟩])
      cacheKeys := if cacheDue p f.1 callId then [callId] else []
      deletedAt := if admin.isSome then final.1.deletedAt else none })

/-- Database and cached session contexts. -/
structure Storage where
  tables : Tables
  contexts : List Ident

/-- A failure at one step of a purge; a failed cache request may have erased its key. -/
inductive Fault
  | database
  | cache (erased : Bool)
  | audit
  | commit
  deriving DecidableEq

def eraseContexts (contexts : List Ident) (keys : List Ident) : List Ident :=
  contexts.filter fun key => decide (key ∉ keys)

def emptyReport (callId : Ident) : Report := ⟨callId, [], [], none⟩

/-- What is left of the storage and what the caller gets once the transaction is prepared. -/
def finish (w : Storage) (r : Tables × Report) (admin : Option AdminUser) (fault : Option Fault) :
    Storage × Except PurgeError Report :=
  let erased : Storage := { w with contexts := eraseContexts w.contexts r.2.cacheKeys }
  match fault with
  | some .database => (w, .error .database)
  | some (.cache gone) =>
    if r.2.cacheKeys = [] then ({ erased with tables := r.1 }, .ok r.2)
    else (if gone then erased else w, .error .cache)
  | some .audit =>
    if admin.isSome then (erased, .error .audit) else ({ erased with tables := r.1 }, .ok r.2)
  | some .commit => (erased, .error .commit)
  | none => ({ erased with tables := r.1 }, .ok r.2)

/-- `_purge_call` under the locks of the call. -/
def purgeLocked (w : Storage) (callId : Ident) (now utcnow : Instant) (admin : Option AdminUser)
    (fault : Option Fault) : Storage × Except PurgeError Report :=
  match Dict.get w.tables.calls callId with
  | none => (w, if admin.isSome then .error .callNotFound else .ok (emptyReport callId))
  | some call =>
    match purgeTransaction w.tables callId call now utcnow admin with
    | .error e => (w, .error e)
    | .ok r => finish w r admin fault

/-- `_purge_call`. -/
def purgeCall (w : Storage) (callId : Ident) (now utcnow : Instant) (admin : Option AdminUser)
    (fault : Option Fault) : Storage × Except PurgeError Report :=
  if admin.isSome then purgeLocked w callId now utcnow admin fault
  else
    match hasDueContent w.tables callId now with
    | .error e => (w, .error e)
    | .ok false => (w, .ok (emptyReport callId))
    | .ok true => purgeLocked w callId now utcnow admin fault

end CompanionBackend.VoiceRetention
