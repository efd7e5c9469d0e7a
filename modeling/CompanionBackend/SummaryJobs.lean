import CompanionBackend.TaskSystems
import CompanionBackend.TurnRecords
import CompanionBackend.VoiceLifecycle
import CompanionBackend.VoiceRetention
import CompanionBackend.AdminSessions

/-!
# The summary of a call

A worker claims the job of an ended call for a lease, asks the model with every lock released, and
writes the result in a second transaction, if its lease is still its own. Every transaction holds
the row of the call and is one step. The rows here are those of one call. The safety gate, the
model and the memory jobs a worker waits for answer from outside; private reasoning, metrics and the
planning of a follow-up's time are left out.
-/
namespace CompanionBackend.SummaryJobs

open TaskSystems VoiceModels VoiceLifecycle
open ProviderEvents (Text)
open TurnRecords (isBlank)
open VoiceRetention (due microsPerDay)
open AdminSessions (Role)

/-- Microseconds since 1970. -/
abbrev Instant := ℤ

/-- A `uuid4`, in the order in which the workers drew them. -/
abbrev Owner := ℕ

inductive JobStatus
  | pending | processing | success | failed | cancelled
  deriving DecidableEq, Repr

inductive FailReason
  | leaseExpired | invalidOrRejectedOutput | modelUnavailable | resultCommitFailed
  | sourceExpired | sourceUnavailable | summaryConfigurationInvalid
  | deletionFence | retentionExpired
  deriving DecidableEq, Repr

/-- A job of type `call_summary`. -/
structure SummaryJob where
  status : JobStatus
  attemptCount : ℕ
  failReason : Option FailReason
  leaseOwner : Option Owner
  leaseExpiresAt : Option Instant
  createdAt : Instant
  deriving DecidableEq

/-- `content_type`. -/
inductive FollowupType
  | topicContinuation | emotionalFollowup | missedExplanation
  deriving DecidableEq, Repr

/-- The fields that `call_fields` names. -/
structure Summary where
  callSummary : Text
  unfinishedTopics : List Text
  userEmotion : Text
  assistantEmotion : Text
  deriving DecidableEq

/-- An answer of the model that `parse_summary` accepts. -/
structure SummaryResult where
  summary : Summary
  followup : Option FollowupType
  offered : followup ≠ some .missedExplanation
  deriving DecidableEq

structure SourceTurn extends VoiceCallTurn where
  effectiveTextExpiresAt : Option Instant
  deriving DecidableEq

structure SummaryCall where
  row : VoiceCall
  transcriptExpiresAt : Option Instant
  summary : Option Summary
  /-- `summary_settings` of the frozen configuration does not raise. -/
  settingsValid : Bool
  jobLogDays : ℤ

/-- The call is deleted or about to be. -/
def SummaryCall.fenced (call : SummaryCall) : Bool :=
  call.row.deletionFenceAt.isSome || call.row.deletedAt.isSome

/-- A committed result: who wrote what, from which turns, and what the call and the lease were like
at that moment. -/
structure Written where
  owner : Owner
  result : SummaryResult
  inputs : List SourceTurn
  writtenAt : Instant
  leaseExpiresAt : Option Instant
  fenced : Bool
  deriving DecidableEq

structure SummaryDb where
  call : SummaryCall
  turns : List SourceTurn
  jobs : List SummaryJob
  /-- The follow-up jobs of the call. -/
  followups : List FollowupType
  /-- The level of the user's relationship, when there is a row. -/
  relationshipLevel : Option ℤ
  nextOwner : Owner
  /-- Claims, accepted retries and committed results, which the code does not list. -/
  claims : List Owner
  retries : ℕ
  writes : List Written

/-- A worker or a request between two of its transactions. -/
inductive SummaryTask
  /-- `poll` before its first scan, and before its second one. -/
  | polling
  | scanning
  | enqueueing (thenScan : Bool)
  /-- `process`, waiting for the memory jobs. -/
  | preparing
  | claiming (owner : Owner)
  /-- The model is asked about `inputs`. -/
  | running (owner : Owner) (inputs : List SourceTurn) (sourceExpiry : Instant)
  | committing (owner : Owner) (inputs : List SourceTurn) (sourceExpiry : Instant)
      (result : SummaryResult)
  | failing (owner : Owner) (reason : FailReason)
  | retrying (role : Role)
  | purging (admin : Bool)
  /-- The end of the call, with the turns it leaves and the number of its card. -/
  | finishing (reason : EndReason) (durationSeconds : ℤ) (turns : List SourceTurn) (seq : ℤ)
  deriving DecidableEq

inductive SummaryAnswer
  | done
  /-- Whether a scan, which is limited, has the call in its page. -/
  | listed (found : Bool)
  | result (r : SummaryResult)
  /-- A `ValueError` of the answer or of a check, or another exception. -/
  | rejected
  | raised
  deriving DecidableEq

inductive SummaryInput
  | poll
  | enqueue
  | process
  | retry (role : Role)
  | purge (admin : Bool)
  | finish (reason : EndReason) (durationSeconds : ℤ) (turns : List SourceTurn) (seq : ℤ)
  | proceed (now : Instant) (a : SummaryAnswer)
  /-- The task dies, or its transaction raises and is rolled back. -/
  | abort

/-- `timeout_seconds`, as the composition passes it. -/
def timeoutSeconds : ℤ := 90

def second : ℤ := 1000000

/-- `_release`. -/
def SummaryJob.release (job : SummaryJob) : SummaryJob :=
  { job with leaseOwner := none, leaseExpiresAt := none }

/-- The texts have anything but blanks. -/
def written (text : Option Text) : Bool := (text.getD []).any fun c => !isBlank c

/-- `safe_closed_turn`. -/
def safeClosedTurn (turn : SourceTurn) : Bool :=
  (turn.turnStatus = .finalized || turn.turnStatus = .interrupted) &&
    turn.effectiveTextEvidence ≠ .none && written turn.userTextFinal &&
    written turn.assistantTextEffective && turn.allChecksPassed

namespace SummaryDb

/-- The row that the query of the job finds, written anew. -/
def putJob (d : SummaryDb) (job : SummaryJob) : SummaryDb := { d with jobs := job :: d.jobs.tail }

def setSummaryStatus (d : SummaryDb) (status : SummaryStatus) : SummaryDb :=
  { d with call := { d.call with row := { d.call.row with summaryStatus := status } } }

/-- A job that ends with a status of the call's summary. -/
def settle (d : SummaryDb) (job : SummaryJob) (status : JobStatus) (reason : Option FailReason)
    (summary : SummaryStatus) : SummaryDb :=
  (d.putJob { job.release with status := status, failReason := reason }).setSummaryStatus summary

/-- `enqueue`. -/
def enqueue (d : SummaryDb) (now : Instant) : SummaryDb :=
  if d.call.row.status.terminal && !d.call.fenced && d.jobs.isEmpty then
    { d with jobs := [⟨.pending, 0, none, none, none, now⟩] }
  else d

/-- The turns whose texts an attempt may use. -/
def sources (d : SummaryDb) (now : Instant) : List SourceTurn :=
  d.turns.filter fun turn =>
    safeClosedTurn turn && turn.effectiveTextExpiresAt.any fun t => decide (now < t)

/-- When the first text that an attempt uses expires. -/
def sourceExpiry (d : SummaryDb) (inputs : List SourceTurn) (now : Instant) : Instant :=
  (inputs.filterMap SourceTurn.effectiveTextExpiresAt ++ d.call.transcriptExpiresAt.toList).min?.getD
    now

/-- The first transaction of `process`: the database, and the attempt when the job was claimed. -/
def claim (d : SummaryDb) (owner : Owner) (now : Instant) :
    SummaryDb × Option (List SourceTurn × Instant) :=
  match d.jobs.head? with
  | none => (d, none)
  | some job =>
    if d.call.fenced then (d.putJob { job.release with status := .cancelled }, none)
    else if job.status = .processing ∧ job.leaseExpiresAt.all (fun t => decide (t ≤ now)) then
      (d.settle job .failed (some .leaseExpired) .failed, none)
    else if job.status ≠ .pending ∨ !d.call.row.status.terminal then (d, none)
    else if d.call.row.status ≠ .ended ∨
        !summaryEligible (d.turns.map SourceTurn.toVoiceCallTurn) d.call.row then
      (d.settle job .success job.failReason .notApplicable, none)
    else if d.call.row.sortSeq = none then (d, none)
    else
      let inputs := d.sources now
      if inputs.isEmpty || due d.call.transcriptExpiresAt now then
        (d.settle job .cancelled (some .sourceExpired) .failed, none)
      else if !inputs.any (fun turn => meaningfulUserText turn.userTextFinal) then
        (d.settle job .success job.failReason .notApplicable, none)
      else if !d.call.settingsValid then
        (d.settle job .failed (some .summaryConfigurationInvalid) .failed, none)
      else
        ({ d.putJob { job with
            status := .processing
            attemptCount := job.attemptCount + 1
            leaseOwner := some owner
            leaseExpiresAt := some (now + (timeoutSeconds + 1) * second)
            failReason := none } with claims := d.claims ++ [owner] },
          some (inputs, d.sourceExpiry inputs now))

/-- `_owned_job`. -/
def ownedJob (d : SummaryDb) (owner : Owner) (now : Instant) : Option SummaryJob :=
  d.jobs.head?.filter fun job => job.status = .processing && job.leaseOwner = some owner &&
    job.leaseExpiresAt.any fun t => decide (now < t)

/-- `_stage_followup`: the follow-up jobs, or nothing when it raises. -/
def stageFollowup (d : SummaryDb) (kind : FollowupType) : Option (List FollowupType) :=
  if kind ∈ d.followups then some d.followups
  else if d.relationshipLevel.any (fun level => decide (0 ≤ level ∧ level ≤ 3)) then
    some (d.followups ++ [kind])
  else none

/-- The result transaction; nothing when it raises. -/
def commitResult (d : SummaryDb) (owner : Owner) (inputs : List SourceTurn)
    (sourceExpiry : Instant) (result : SummaryResult) (now : Instant) : Option SummaryDb :=
  match d.ownedJob owner now with
  | none => some d
  | some job =>
    if d.call.fenced || decide (sourceExpiry ≤ now) || due d.call.transcriptExpiresAt now then
      some (d.settle job .cancelled (some .sourceUnavailable)
        (if d.call.fenced then d.call.row.summaryStatus else .failed))
    else
      (result.followup.elim (some d.followups) d.stageFollowup).map fun followups =>
        let d := d.settle job .success job.failReason .ready
        { d with
          call := { d.call with
            summary := some result.summary, transcriptExpiresAt := some sourceExpiry }
          followups := followups
          writes := d.writes ++
            [⟨owner, result, inputs, now, job.leaseExpiresAt, d.call.fenced⟩] }

/-- `_failure`. -/
def failure (d : SummaryDb) (owner : Owner) (reason : FailReason) (now : Instant) : SummaryDb :=
  match d.ownedJob owner now with
  | none => d
  | some job =>
    if d.call.fenced then
      d.settle job .cancelled (some reason) d.call.row.summaryStatus
    else d.settle job .failed (some reason) .failed

def retryable : FailReason → Bool
  | .leaseExpired | .invalidOrRejectedOutput | .modelUnavailable | .resultCommitFailed => true
  | _ => false

/-- `retry_summary_job`; nothing when it raises. -/
def retry (d : SummaryDb) (role : Role) (now : Instant) : Option SummaryDb :=
  match d.jobs.head? with
  | none => none
  | some job =>
    if (role = .superAdmin ∨ role = .techOps) ∧ d.call.row.status = .ended ∧ d.call.fenced = false ∧
        d.turns.any (fun turn => turn.effectiveTextExpiresAt.any fun t => decide (now < t)) ∧
        due d.call.transcriptExpiresAt now = false ∧ job.status = .failed ∧
        job.failReason.any retryable then
      some { d.settle job .pending job.failReason .pending with retries := d.retries + 1 }
    else none

/-- What `_purge_call` does to the job, when the contents have expired or the job is old. -/
def purgeJob (job : SummaryJob) (fenced expired aged : Bool) : SummaryJob :=
  if (aged || fenced || expired) &&
      (job.status = .pending || job.status = .processing || job.status = .failed) then
    { job.release with
      status := .cancelled
      failReason := some (if fenced then .deletionFence
        else if expired then .sourceExpired else .retentionExpired) }
  else job

/-- `_purge_call`; an administrator's call sets the fence and clears the summary. -/
def purge (d : SummaryDb) (admin : Bool) (now : Instant) : SummaryDb :=
  let fenced := admin || d.call.fenced
  let expired := due d.call.transcriptExpiresAt now
  { d with
    call := if admin then
        { d.call with
          row := { d.call.row with
            deletionFenceAt := d.call.row.deletionFenceAt.or (some now)
            deletedAt := d.call.row.deletedAt.or (some now)
            sortSeq := none }
          summary := none }
      else d.call
    turns := d.turns.map fun turn =>
      if fenced || expired || due turn.effectiveTextExpiresAt now then
        { turn with userTextFinal := none, assistantTextEffective := none }
      else turn
    jobs := d.jobs.map fun job => purgeJob job fenced expired
      (decide (job.createdAt + d.call.jobLogDays * microsPerDay ≤ now)) }

/-- The end of an active call, with its card. -/
def finish (d : SummaryDb) (reason : EndReason) (durationSeconds : ℤ) (turns : List SourceTurn)
    (seq : ℤ) (now : Instant) : SummaryDb :=
  if d.call.row.status.active then
    let row := finalRow { d.call.row with durationSeconds := durationSeconds } reason now
    let row := if cardDue row then
        withCard row (if summaryEligible (turns.map SourceTurn.toVoiceCallTurn) row then .pending
          else .notApplicable) (some seq)
      else row
    { d with call := { d.call with row := row }, turns := turns }
  else d

/-- The call has no job although it ended. -/
def unqueued (d : SummaryDb) : Bool :=
  d.call.row.status = .ended && d.call.row.sortSeq.isSome && !d.call.fenced && d.jobs.isEmpty

/-- The job waits, or its lease is over. -/
def waiting (d : SummaryDb) (now : Instant) : Bool :=
  d.jobs.any fun job => job.status = .pending ||
    job.status = .processing && job.leaseExpiresAt.all fun t => decide (t ≤ now)

/-- One transaction, or one wait, of a task. -/
def proceed (d : SummaryDb) (now : Instant) :
    SummaryTask → SummaryAnswer → Option (SummaryDb × List SummaryTask)
  | .polling, .listed found =>
    some (d, if found && d.unqueued then [.enqueueing true] else [.scanning])
  | .scanning, .listed found => some (d, if found && d.waiting now then [.preparing] else [])
  | .enqueueing thenScan, .done => some (d.enqueue now, if thenScan then [.scanning] else [])
  | .preparing, .done => some ({ d with nextOwner := d.nextOwner + 1 }, [.claiming d.nextOwner])
  | .claiming owner, .done =>
    let r := d.claim owner now
    some (r.1, (r.2.map fun source => SummaryTask.running owner source.1 source.2).toList)
  | .running owner inputs expiry, .result r => some (d, [.committing owner inputs expiry r])
  | .running owner _ _, .rejected => some (d, [.failing owner .invalidOrRejectedOutput])
  | .running owner _ _, .raised => some (d, [.failing owner .modelUnavailable])
  | .committing owner inputs expiry r, .done =>
    some (match d.commitResult owner inputs expiry r now with
      | some d' => (d', [])
      | none => (d, [.failing owner .resultCommitFailed]))
  | .committing owner _ _ _, .raised => some (d, [.failing owner .resultCommitFailed])
  | .failing owner reason, .done => some (d.failure owner reason now, [])
  | .retrying role, .done => some ((d.retry role now).getD d, [])
  | .purging admin, .done => some (d.purge admin now, [])
  | .finishing reason durationSeconds turns seq, .done =>
    some (d.finish reason durationSeconds turns seq now, [])
  | _, _ => none

end SummaryDb

/-- Workers, administrators and sweeps on one call, in any order of their transactions. -/
def summarySystem : TaskSystem SummaryDb SummaryTask SummaryInput where
  initial d := d.jobs = [] ∧ d.call.row.summaryStatus ≠ .ready ∧ d.call.summary = none ∧
    (∀ kind ∈ d.followups, kind = .missedExplanation) ∧ d.claims = [] ∧ d.retries = 0 ∧ d.writes = []
  accept _ i :=
    match i with
    | .poll => some [.polling]
    | .enqueue => some [.enqueueing false]
    | .process => some [.preparing]
    | .retry role => some [.retrying role]
    | .purge admin => some [.purging admin]
    | .finish reason durationSeconds turns seq => some [.finishing reason durationSeconds turns seq]
    | _ => none
  advance d t i :=
    match i with
    | .proceed now a => d.proceed now t a
    | .abort => some (d, [])
    | _ => none

end CompanionBackend.SummaryJobs
