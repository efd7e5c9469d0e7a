import Mathlib.Data.List.Basic
import Mathlib.Logic.Function.Basic
import CompanionBackend.TaskSystems
import CompanionBackend.TurnRecords
import CompanionBackend.Dictionaries

/-!
# Memory jobs

A job extracts the memory items of one turn and writes them to the vector store. A
worker claims the job for a lease, releases every lock during the model call, and
takes the lock of a document and of the job's row around each write. Transactions
that hold the call's row are one step each; the worker's first read of a claim comes
before that lock and fixes what it later selects. Tables are partial functions of
their primary keys. The safety gate, the model and the vector store answer from
outside, and any step may fail.
-/
namespace CompanionBackend.MemoryJobs

open Runs ProviderEvents Dictionaries TaskSystems
open TurnRecords (MemoryStatus VoiceCallTurn eligibleTurn)
open VoiceModels (CallStatus TurnStatus)

/-- Microseconds since 1970. -/
abbrev Instant := ℤ

/-- A `uuid4`, in the order in which the workers drew them. -/
abbrev Token := ℕ

/-- `MEMORY_JOB_LEASE_SECONDS`. -/
def memoryJobLease : ℤ := 210 * 1000000

/-- `success`, `skipped` and `cancelled`. -/
def settled : MemoryStatus → Bool
  | .success | .skipped | .cancelled => true
  | .pending | .processing | .failed => false

inductive MemoryKind
  | user | characterPrivate
  deriving DecidableEq, Repr

def MemoryKind.name : MemoryKind → Text
  | .user => "user".toList
  | .characterPrivate => "character_private".toList

structure MemoryItem where
  memoryType : MemoryKind
  stableKey : Text
  content : Text
  deriving DecidableEq, Repr

/-- `build_doc_id` of a user's item; `hash` is `hash_key`. -/
def buildDocId (hash : Text → Text) (kind : MemoryKind) (key : Text) (user : ℕ) : Text :=
  kind.name ++ '_' :: (hash key ++ '_' :: Nat.toDigits 10 user)

/-- `extraction_snapshot`; what the checks of a claim reject is `unreadable`. -/
inductive Snapshot
  | extracting
  | ready (items : List MemoryItem) (dropped : ℕ)
  | unreadable
  deriving DecidableEq, Repr

inductive FailReason
  | deletionFence | sourceExpired | retentionExpired
  | recoverySnapshotRequired | leaseExpired | snapshotInvalid
  | extractUnavailable | writeUnavailable
  | safetyFiltered | skipped | invalidOutput | droppedItems
  deriving DecidableEq, Repr

structure MemoryCall where
  id : ℕ
  userId : ℕ
  status : CallStatus
  deletionFenceAt : Option Instant
  transcriptExpiresAt : Option Instant
  /-- `config_snapshot['resolved_script']['memory']`. -/
  script : Dict Text Json

structure MemoryTurn where
  callId : Ident
  row : VoiceCallTurn
  effectiveTextExpiresAt : Option Instant

structure VoiceMemoryJob where
  callId : Ident
  turnId : ℕ
  turnIndex : ℕ
  status : MemoryStatus
  attemptCount : ℕ
  nextRetryAt : Option Instant
  extractionSnapshot : Option Snapshot
  failReason : Option FailReason
  leaseOwner : Option Token
  leaseExpiresAt : Option Instant
  createdAt : Instant
  deriving DecidableEq, Repr

structure VoiceMemoryTrace where
  callId : Ident
  turnIndex : ℕ
  docId : Text
  memoryType : MemoryKind
  stableKey : Text
  writtenAt : Instant
  deriving DecidableEq, Repr

structure Db where
  calls : Ident → Option MemoryCall
  turns : ℕ → Option MemoryTurn
  jobs : ℕ → Option VoiceMemoryJob
  nextJobId : ℕ
  traces : List VoiceMemoryTrace
  /-- The jobs of the logged operations `voice_job` / `retry`. -/
  operations : List ℕ

inductive MemoryError
  | retryPolicyInvalid | indexError | rowMissing | notRetryable | jobBusy
  deriving DecidableEq, Repr

/-! ### The retry policy -/

def asInt : Json → Option ℤ
  | .int n => some n
  | _ => none

/-- `retry_policy`; delays are in milliseconds. -/
def retryPolicy (script : Dict Text Json) : Except MemoryError (ℕ × List ℤ) :=
  let retries := (Dict.get script "max_retries".toList).getD (.int 2)
  let delays := (Dict.get script "retry_backoff_ms".toList).getD (.arr [.int 1000, .int 5000])
  match retries, delays with
  | .int retries, .arr delays =>
    match delays.mapM asInt with
    | some delays =>
      if 0 ≤ retries ∧ retries ≤ 5 ∧ (delays.length : ℤ) = retries ∧
          (∀ delay ∈ delays, 100 ≤ delay ∧ delay ≤ 60000) ∧ delays.Pairwise (· ≤ ·) then
        .ok (retries.toNat, delays)
      else .error .retryPolicyInvalid
    | none => .error .retryPolicyInvalid
  | _, _ => .error .retryPolicyInvalid

/-- `delays[attempt - 1]`; the index minus one is the last entry. -/
def backoffAt (delays : List ℤ) : ℕ → Except MemoryError ℤ
  | 0 => orRaise delays.getLast? .indexError
  | attempt + 1 => orRaise delays[attempt]? .indexError

/-- `now + timedelta(milliseconds=delay)`. -/
def addMillis (now : Instant) (delay : ℤ) : Instant := now + delay * 1000

/-! ### Reading and writing the rows -/

/-- The texts of the turn have expired, or nothing says until when they are kept. -/
def sourceExpired (call : MemoryCall) (turn : MemoryTurn) (now : Instant) : Bool :=
  match call.transcriptExpiresAt <|> turn.effectiveTextExpiresAt with
  | none => true
  | some expiry => decide (expiry ≤ now)

/-- The lease a worker needs: in its own name and not over. -/
def VoiceMemoryJob.ownedBy (job : VoiceMemoryJob) (token : Token) (now : Instant) : Bool :=
  job.status = .processing && job.leaseOwner = some token &&
    match job.leaseExpiresAt with
    | none => false
    | some expiry => decide (now < expiry)

def Db.putJob (db : Db) (id : ℕ) (job : VoiceMemoryJob) : Db :=
  { db with jobs := Function.update db.jobs id (some job) }

/-- `turn.memory_status = status`. -/
def Db.setMemoryStatus (db : Db) (turnId : ℕ) (status : MemoryStatus) : Db :=
  match db.turns turnId with
  | none => db
  | some turn =>
    { db with
      turns := Function.update db.turns turnId
        (some { turn with row := { turn.row with memoryStatus := status } }) }

/-- A job's row with the status of its turn, as most transactions write them. -/
def Db.putOutcome (db : Db) (id : ℕ) (job : VoiceMemoryJob) : Db :=
  (db.putJob id job).setMemoryStatus job.turnId job.status

def VoiceMemoryJob.cancelled (job : VoiceMemoryJob) (reason : FailReason) : VoiceMemoryJob :=
  { job with
    status := .cancelled, failReason := some reason, extractionSnapshot := none
    nextRetryAt := none, leaseOwner := none, leaseExpiresAt := none }

/-- The row, its call and its turn. -/
def Db.jobRows (db : Db) (id : ℕ) :
    Except MemoryError (VoiceMemoryJob × MemoryCall × MemoryTurn) := do
  let job ← orRaise (db.jobs id) .rowMissing
  let call ← orRaise (db.calls job.callId) .rowMissing
  let turn ← orRaise (db.turns job.turnId) .rowMissing
  .ok (job, call, turn)

/-! ### Making jobs -/

/-- The job of the turn. -/
def Db.jobOf (db : Db) (turnId : ℕ) : Option ℕ :=
  (List.range db.nextJobId).find? fun id =>
    match db.jobs id with
    | none => false
    | some job => job.turnId = turnId

/-- `stage_job`, when no other worker has the row of an existing job. -/
def Db.stageJob (db : Db) (call : MemoryCall) (turnId : ℕ) (turn : MemoryTurn) (now : Instant) :
    Db :=
  match db.jobOf turnId with
  | some _ => db
  | none =>
    let status : MemoryStatus :=
      if call.deletionFenceAt.isSome then .cancelled
      else if eligibleTurn turn.row then .pending else .skipped
    { (db.setMemoryStatus turnId status) with
      jobs := Function.update db.jobs db.nextJobId
        (some ⟨turn.callId, turnId, turn.row.turnIndex, status, 0, none, none, none, none, none, now⟩)
      nextJobId := db.nextJobId + 1 }

def closedTurn (turn : MemoryTurn) : Bool :=
  turn.row.turnStatus = .finalized || turn.row.turnStatus = .interrupted

/-- `enqueue`. -/
def Db.enqueue (db : Db) (turnId : ℕ) (now : Instant) : Db :=
  match db.turns turnId with
  | none => db
  | some turn =>
    match db.calls turn.callId with
    | none => db
    | some call => if closedTurn turn then db.stageJob call turnId turn now else db

/-- `compensate`, for the turns of an ended call that is not being deleted. -/
def Db.compensate (db : Db) (callId : Ident) (turnIds : List ℕ) (now : Instant) : Db :=
  match db.calls callId with
  | none => db
  | some call =>
    if call.deletionFenceAt.isSome || !call.status.terminal then db
    else turnIds.foldl (fun db turnId =>
      match db.turns turnId with
      | none => db
      | some turn =>
        if turn.callId = callId && closedTurn turn then db.stageJob call turnId turn now else db) db

/-! ### Claiming a job -/

/-- The first select of `process_next` that is not a locking read finds this job, when one is due. -/
def VoiceMemoryJob.candidate (job : VoiceMemoryJob) (callId : Ident) : Bool :=
  job.callId = callId &&
    (job.status = .pending || job.status = .processing ||
      job.status = .failed && job.nextRetryAt.isSome)

/-- The candidate with the least turn. -/
def Db.candidate (db : Db) (callId : Ident) : Option ℕ :=
  (List.range db.nextJobId).foldl (fun best id =>
    match db.jobs id with
    | none => best
    | some job =>
      if job.candidate callId then
        match best.bind db.jobs with
        | none => some id
        | some other => if job.turnIndex < other.turnIndex then some id else best
      else best) none

inductive Claimed
  | cancelled | failed | busy | skipped
  | processing (snapshot : Snapshot)
  deriving DecidableEq, Repr

/-- The lease of the job is over. -/
def VoiceMemoryJob.expired (job : VoiceMemoryJob) (now : Instant) : Bool :=
  job.status = .processing &&
    match job.leaseExpiresAt with
    | none => true
    | some expiry => decide (expiry ≤ now)

/-- When a job whose lease is over is tried again. -/
def leaseRetryAt (policy : ℕ × List ℤ) (attempt : ℕ) (now : Instant) :
    Except MemoryError (Option Instant) :=
  if 1 ≤ attempt ∧ attempt ≤ policy.1 then do
    let delay ← backoffAt policy.2 attempt
    .ok (some (addMillis now delay))
  else .ok none

def VoiceMemoryJob.dueRetry (job : VoiceMemoryJob) (now : Instant) : Bool :=
  job.status = .failed &&
    match job.nextRetryAt with
    | none => false
    | some due => decide (due ≤ now)

/-- `process_next` from the lock of the call to its commit. -/
def Db.claim (db : Db) (id : ℕ) (token : Token) (now : Instant) : Except MemoryError (Db × Claimed) := do
  let (job, call, turn) ← db.jobRows id
  if call.deletionFenceAt.isSome then
    .ok (db.putOutcome id
      { job with
        status := .cancelled, extractionSnapshot := none
        nextRetryAt := none, leaseOwner := none, leaseExpiresAt := none }, .cancelled)
  else
    let policy ← retryPolicy call.script
    if (job.expired now || job.status = .failed) && job.extractionSnapshot.isNone then
      .ok (db.putOutcome id
        { job with
          status := .failed, failReason := some .recoverySnapshotRequired
          leaseOwner := none, leaseExpiresAt := none, nextRetryAt := none }, .failed)
    else if job.expired now then
      let retryAt ← leaseRetryAt policy job.attemptCount now
      .ok (db.putOutcome id
        { job with
          status := .failed, failReason := some .leaseExpired
          leaseOwner := none, leaseExpiresAt := none, nextRetryAt := retryAt }, .failed)
    else if job.status != .pending && !job.dueRetry now then .ok (db, .busy)
    else if sourceExpired call turn now then
      .ok (db.putOutcome id
        { job with
          status := .cancelled, failReason := some .sourceExpired
          extractionSnapshot := none, nextRetryAt := none }, .cancelled)
    else if !eligibleTurn turn.row then
      .ok (db.putOutcome id { job with status := .skipped, extractionSnapshot := none }, .skipped)
    else
      let snapshot := job.extractionSnapshot.getD .extracting
      .ok (db.putOutcome id
        { job with
          status := .processing, extractionSnapshot := some snapshot, nextRetryAt := none
          leaseOwner := some token, leaseExpiresAt := some (now + memoryJobLease)
          attemptCount := job.attemptCount + 1 }, .processing snapshot)

/-! ### The transactions of a worker -/

/-- `_save_snapshot`; `none` when the worker has lost the job. -/
def Db.saveSnapshot (db : Db) (id : ℕ) (token : Token) (items : List MemoryItem) (dropped : ℕ)
    (now : Instant) : Except MemoryError (Option Db) := do
  let (job, call, turn) ← db.jobRows id
  if call.deletionFenceAt.isSome || sourceExpired call turn now || !job.ownedBy token now ||
      job.extractionSnapshot != some .extracting then
    .ok none
  else
    .ok (some (db.putJob id { job with extractionSnapshot := some (.ready items dropped) }))

/-- The trace is of an item of the same user written under the document by a later turn. -/
def VoiceMemoryTrace.newer (db : Db) (trace : VoiceMemoryTrace) (doc : Text) (call : MemoryCall)
    (user index : ℕ) : Bool :=
  trace.docId = doc &&
    match db.calls trace.callId with
    | none => false
    | some other => other.userId = user &&
        (call.id < other.id || other.id = call.id && index < trace.turnIndex)

inductive WriteCheck
  | cancelled | superseded | existing
  /-- The upsert is sent, with the number of the call's row. -/
  | send (callRow : ℕ)
  deriving DecidableEq, Repr

/-- What `_write_atom` does before the upsert. -/
def Db.checkWrite (db : Db) (id : ℕ) (token : Token) (callId : Ident) (user index : ℕ) (doc : Text)
    (now : Instant) : Except MemoryError (Db × WriteCheck) := do
  let job ← orRaise (db.jobs id) .rowMissing
  let call ← orRaise (db.calls callId) .rowMissing
  let turn ← orRaise (db.turns job.turnId) .rowMissing
  if call.deletionFenceAt.isSome || !job.ownedBy token now then
    if call.deletionFenceAt.isSome && !settled job.status then
      .ok (db.putOutcome id { job with status := .cancelled, extractionSnapshot := none }, .cancelled)
    else .ok (db, .cancelled)
  else if sourceExpired call turn now then
    .ok (db.putOutcome id (job.cancelled .sourceExpired), .cancelled)
  else if db.traces.any fun trace => trace.newer db doc call user index then .ok (db, .superseded)
  else if db.traces.any fun trace =>
      trace.callId = callId && trace.turnIndex = index && trace.docId = doc then .ok (db, .existing)
  else .ok (db, .send call.id)

/-- The trace of a write that was acknowledged. -/
def Db.addTrace (db : Db) (trace : VoiceMemoryTrace) : Db :=
  { db with traces := db.traces ++ [trace] }

/-- When a failed job is tried again. -/
def finishRetryAt (call : MemoryCall) (status : MemoryStatus) (reason : Option FailReason)
    (attempt : ℕ) (now : Instant) : Except MemoryError (Option Instant) :=
  if status = .failed ∧ (reason = some .extractUnavailable ∨ reason = some .writeUnavailable) then do
    let policy ← retryPolicy call.script
    if attempt ≤ policy.1 then
      let delay ← backoffAt policy.2 attempt
      .ok (some (addMillis now delay))
    else .ok none
  else .ok none

/-- `_finish`. -/
def Db.finish (db : Db) (id : ℕ) (token : Token) (status : MemoryStatus)
    (reason : Option FailReason) (now : Instant) : Except MemoryError Db := do
  let (job, call, _) ← db.jobRows id
  if !job.ownedBy token now then .ok db
  else
    let status := if call.deletionFenceAt.isSome then MemoryStatus.cancelled else status
    let reason := if call.deletionFenceAt.isSome then some .deletionFence else reason
    let retryAt ← finishRetryAt call status reason job.attemptCount now
    .ok (db.putOutcome id
      { job with
        status := status, failReason := reason, nextRetryAt := retryAt
        extractionSnapshot := if settled status then none else job.extractionSnapshot
        leaseOwner := none, leaseExpiresAt := none })

/-! ### Fences, purges and administrators -/

/-- `turn.memory_status` of the jobs that a fence or a sweep cancels. -/
def Db.cancelTurns (db : Db) (cancels : ℕ → Bool) : ℕ → Option MemoryTurn := fun turnId =>
  (db.turns turnId).map fun turn =>
    if turn.row.memoryStatus != .success && (List.range db.nextJobId).any fun id =>
        match db.jobs id with
        | none => false
        | some job => job.turnId = turnId && cancels id then
      { turn with row := { turn.row with memoryStatus := .cancelled } }
    else turn

/-- The jobs of the call that have not settled. -/
def Db.openJob (db : Db) (callId : Ident) (id : ℕ) : Bool :=
  match db.jobs id with
  | none => false
  | some job => job.callId = callId && !settled job.status

/-- `stage_deletion_fence`. -/
def Db.fence (db : Db) (callId : Ident) (now : Instant) : Db :=
  match db.calls callId with
  | none => db
  | some call =>
    { db with
      calls := Function.update db.calls callId
        (some { call with deletionFenceAt := call.deletionFenceAt <|> some now })
      jobs := fun id => (db.jobs id).map fun job =>
        if db.openJob callId id then job.cancelled .deletionFence else job
      turns := db.cancelTurns (db.openJob callId) }

/-- One round of `purge_expired_snapshots`. -/
def Db.purgeSnapshot (db : Db) (id : ℕ) (now : Instant) : Except MemoryError Db := do
  let (job, call, turn) ← db.jobRows id
  if call.deletionFenceAt.isNone && !sourceExpired call turn now then .ok db
  else if settled job.status then .ok (db.putJob id { job with extractionSnapshot := none })
  else
    .ok (db.putOutcome id
      (job.cancelled (if call.deletionFenceAt.isSome then .deletionFence else .sourceExpired)))

/-- `_due`. -/
def due (expiry : Option Instant) (now : Instant) : Bool :=
  match expiry with
  | none => false
  | some expiry => decide (expiry ≤ now)

/-- The sweep clears a job's snapshot and cancels it: why, when it does. -/
def Db.sweepReason (db : Db) (call : MemoryCall) (job : VoiceMemoryJob) (agedBefore now : Instant) :
    Option FailReason :=
  let expired := due call.transcriptExpiresAt now ||
    due ((db.turns job.turnId).bind (·.effectiveTextExpiresAt)) now
  if call.deletionFenceAt.isSome then some .deletionFence
  else if expired then some .sourceExpired
  else if job.createdAt ≤ agedBefore then some .retentionExpired
  else none

/-- The sweep cancels the job. -/
def Db.sweeps (db : Db) (callId : Ident) (call : MemoryCall) (agedBefore now : Instant) (id : ℕ) :
    Bool :=
  db.openJob callId id && (db.jobs id).any fun job => (db.sweepReason call job agedBefore now).isSome

/-- What `_purge_call` does to the memory jobs of a call. -/
def Db.sweep (db : Db) (callId : Ident) (agedBefore now : Instant) : Db :=
  match db.calls callId with
  | none => db
  | some call =>
    { db with
      jobs := fun id => (db.jobs id).map fun job =>
        if job.callId = callId then
          match db.sweepReason call job agedBefore now with
          | none => job
          | some reason =>
            if settled job.status then { job with extractionSnapshot := none }
            else job.cancelled reason
        else job
      turns := db.cancelTurns (db.sweeps callId call agedBefore now) }

def retryable : Option FailReason → Bool
  | some .extractUnavailable | some .writeUnavailable | some .leaseExpired => true
  | _ => false

/-- `retry_memory_job`. -/
def Db.retry (db : Db) (id : ℕ) (now : Instant) : Except MemoryError Db := do
  let (job, call, turn) ← db.jobRows id
  require (∀ other < db.nextJobId, ∀ row ∈ db.jobs other,
    ¬(row.callId = job.callId ∧ row.status = .processing)) MemoryError.jobBusy
  require (call.deletionFenceAt.isNone ∧ sourceExpired call turn now = false ∧ job.status = .failed ∧
    retryable job.failReason = true) MemoryError.notRetryable
  require (job.extractionSnapshot.isSome ∧ job.extractionSnapshot ≠ some .unreadable)
    MemoryError.notRetryable
  .ok { (db.putOutcome id
      { job with
        status := .pending, nextRetryAt := none, leaseOwner := none, leaseExpiresAt := none }) with
    operations := db.operations ++ [id] }

end CompanionBackend.MemoryJobs
