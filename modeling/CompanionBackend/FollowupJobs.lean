import Mathlib.Data.List.Sort
import Mathlib.Logic.Function.Basic
import CompanionBackend.TaskSystems
import CompanionBackend.TurnRecords
import CompanionBackend.Dictionaries
import CompanionBackend.ShanghaiClock

/-!
# Follow-up jobs

A follow-up job sends one message after a call. A worker claims the job for a lease,
asks a model about later calls without locks, and then holds the call's row from its
first checks over the quota check to the commit of the message; the counter is raised
afterwards, once for each message. The message is inserted under the lock of the
user's timeline, which every chat message takes as well. Instants are microseconds.
-/
namespace CompanionBackend.FollowupJobs

open Runs ProviderEvents Dictionaries TaskSystems
open TurnRecords (VoiceCallTurn isBlank isMark isFiller)
open VoiceModels (CallStatus SummaryStatus)

abbrev Instant := ℤ

/-- A `uuid4`, in the order in which the workers drew them. -/
abbrev Token := ℕ

def micros (seconds : ℤ) : ℤ := seconds * 1000000

inductive FollowupStatus
  | pending | processing | sent | cancelled | failed
  deriving DecidableEq, Repr

inductive ContentType
  | topicContinuation | emotionalFollowup | missedExplanation
  deriving DecidableEq, Repr

inductive FailReason
  | sourceMissing | invalidSnapshot | dispatchUnavailable | countPending | messageMissing
  deriving DecidableEq, Repr

inductive CancelReason
  | sourceMissing | sourceDeleted | sourceExpired | deadlineExceeded | contentUnavailable
  | sourceIneligible | userChatted | topicContinued | alreadySent | quotaUnavailable
  /-- The reasons of the retention sweep. -/
  | deletionFence | retentionExpired
  deriving DecidableEq, Repr

structure VoiceCall where
  userId : ℕ
  status : CallStatus
  connectedAt : Option Instant
  endedAt : Option Instant
  durationSeconds : ℤ
  summaryStatus : SummaryStatus
  deletedAt : Option Instant
  deletionFenceAt : Option Instant
  transcriptExpiresAt : Option Instant
  configSnapshot : Json
  unfinishedTopics : Option Json

structure CallTurn where
  callId : Ident
  row : VoiceCallTurn
  effectiveTextClearedAt : Option Instant
  effectiveTextExpiresAt : Option Instant

structure VoiceFollowupJob where
  callId : Ident
  userId : ℕ
  contentType : ContentType
  content : Text
  status : FollowupStatus
  dueAt : Instant
  latestDueAt : Instant
  timezoneSnapshot : Text
  allowedWindowSnapshot : Json
  attemptCount : ℕ
  nextRetryAt : Option Instant
  failReason : Option FailReason
  cancelReason : Option CancelReason
  leaseOwner : Option Token
  leaseExpiresAt : Option Instant
  agentMessageId : Option ℕ
  createdAt : Instant

inductive ChatRole
  | user | agent
  deriving DecidableEq, Repr

structure ConversationLog where
  userId : ℕ
  role : ChatRole
  createdAt : Instant
  sortSeq : ℕ
  deriving DecidableEq, Repr

/-- A message with the trigger `VOICE_FOLLOWUP`. Its job, the call and the instant of the commit are
not columns of the row: they record where it is from. -/
structure AgentMessage where
  id : ℕ
  userId : ℕ
  content : Text
  sortSeq : ℕ
  createdAt : Instant
  jobId : ℕ
  callId : Ident
  committedAt : Instant
  deriving DecidableEq, Repr

structure Db where
  calls : Ident → Option VoiceCall
  turns : List CallTurn
  jobs : ℕ → Option VoiceFollowupJob
  nextJobId : ℕ
  chats : List ConversationLog
  messages : List AgentMessage
  nextMessageId : ℕ
  /-- `user_timeline_seq`. -/
  nextSeq : ℕ → ℕ

inductive FollowupError
  /-- The `ValueError` of a window snapshot. -/
  | invalidWindowSnapshot
  | leaseExpired | topicInputsChanged | topicCheckUnavailable | quotaCheckUnavailable | windowChanged
  | rowMissing
  deriving DecidableEq, Repr

/-- What later calls say, as the model is asked about it. -/
structure TopicInputs where
  userId : ℕ
  sourceCallId : Ident
  contentType : ContentType
  followupContent : Text
  unfinishedTopics : Json
  laterUserTexts : List Text
  configSnapshot : Json

/-- What the service is composed with. `decimal` is the value of a decimal digit of Unicode. -/
structure Service where
  leaseSeconds : ℤ
  retrySeconds : ℤ
  decimal : Char → Option ℕ
  digest : TopicInputs → Text

/-! ### Windows -/

def digitBelow (bound : Char) (c : Char) : Option ℕ :=
  if '0' ≤ c ∧ c ≤ bound then some (c.toNat - '0'.toNat) else none

/-- Minutes since midnight of `HH:MM`; the last digits are any of Unicode. -/
def clockMinutes (S : Service) : Text → Option ℕ
  | [h₁, h₂, ':', m₁, m₂] => do
    let tens ← digitBelow '2' h₁
    let ones ← if tens = 2 then digitBelow '3' h₂ else S.decimal h₂
    let minuteTens ← digitBelow '5' m₁
    let minuteOnes ← S.decimal m₂
    some ((tens * 10 + ones) * 60 + minuteTens * 10 + minuteOnes)
  | _ => none

def clockField (S : Service) (window : Json) (key : String) : Option ℕ :=
  match window.get key with
  | some (.str text) => clockMinutes S text
  | _ => none

/-- The minutes of a window that is well formed. -/
def windowBounds (S : Service) (window : Json) : Option (ℕ × ℕ) := do
  let start ← clockField S window "start"
  let stop ← clockField S window "end"
  if start < stop then some (start, stop) else none

def dayMicros : ℤ := 86400000000
def shanghaiOffset : ℤ := 28800000000

/-- `local.replace(hour=…, minute=…, second=0, microsecond=0)` for an instant of Shanghai. -/
def atMinutes (now : Instant) (minutes : ℕ) : ℤ :=
  let here := now + shanghaiOffset
  here - here % dayMicros + (minutes : ℤ) * 60000000

/-- The loop of `_next_window`: `none` inside a window. -/
def nextWindowLoop (S : Service) (now : Instant) : List Json → List Instant →
    Except FollowupError (Option Instant)
  | [], future => orRaise (future.min?.map some) .invalidWindowSnapshot
  | window :: windows, future =>
    match windowBounds S window with
    | none => .error .invalidWindowSnapshot
    | some (start, stop) =>
      let here := now + shanghaiOffset
      if atMinutes now start ≤ here ∧ here < atMinutes now stop then .ok none
      else
        let next := if here < atMinutes now start then atMinutes now start
          else atMinutes now start + dayMicros
        nextWindowLoop S now windows (future ++ [next - shanghaiOffset])

/-- `_next_window`. -/
def nextWindow (S : Service) (job : VoiceFollowupJob) (now : Instant) :
    Except FollowupError (Option Instant) :=
  match job.allowedWindowSnapshot with
  | .arr windows =>
    if job.timezoneSnapshot = "Asia/Shanghai".toList ∧ windows ≠ [] then
      nextWindowLoop S now windows []
    else .error .invalidWindowSnapshot
  | _ => .error .invalidWindowSnapshot

/-! ### Eligibility -/

/-- `resolved_config[section][key]` of the frozen configuration. -/
def configValue (call : VoiceCall) (section_ key : String) : Option Json :=
  ((call.configSnapshot.get "resolved_config").bind (·.get section_)).bind (·.get key)

/-- An integer of the configuration that is at least one, else the default. -/
def positiveConfig (call : VoiceCall) (section_ key : String) (default : ℤ) : ℤ :=
  match configValue call section_ key with
  | some (.int n) => if n < 1 then default else n
  | _ => default

def defaultMinimumSeconds : ℤ := 15
def defaultJobRetentionDays : ℤ := 90

/-- The fillers of the pattern, where `的` may follow `是` and `好`. -/
def isFillers : Text → Bool
  | [] => true
  | '是' :: '的' :: rest | '好' :: '的' :: rest => isFillers rest
  | c :: rest => isFiller c && isFillers rest

/-- `meaningful_user_text`. -/
def meaningfulUserText (value : Text) : Bool :=
  let compact := value.filter fun c => !(isBlank c || isMark c)
  !compact.isEmpty && !isFillers compact

def expiredBy (expiry : Option Instant) (now : Instant) : Bool :=
  match expiry with
  | none => false
  | some expiry => decide (expiry ≤ now)

/-- A turn whose texts may stand for the call. -/
def usableTurn (turn : CallTurn) (now : Instant) : Bool :=
  (turn.row.turnStatus = .finalized || turn.row.turnStatus = .interrupted) &&
    turn.row.effectiveTextEvidence != .none && !(turn.row.assistantTextEffective.getD []).isEmpty &&
    turn.effectiveTextClearedAt.isNone && turn.effectiveTextExpiresAt.any (fun t => decide (now < t)) &&
    turn.row.passedAll

/-- The user said something in the call. -/
def Db.meaningful (db : Db) (callId : Ident) (now : Instant) : Bool :=
  db.turns.any fun turn => turn.callId = callId && usableTurn turn now &&
    meaningfulUserText (turn.row.userTextFinal.getD [])

/-- A turn of a later call that the topic check reads, with its call's instant. -/
def Db.laterTurn (db : Db) (job : VoiceFollowupJob) (endedAt : Instant) (now : Instant)
    (turn : CallTurn) : Option (Instant × ℕ × Text) := do
  let call ← db.calls turn.callId
  let connected ← call.connectedAt
  let text ← turn.row.userTextFinal
  if call.userId = job.userId ∧ turn.callId ≠ job.callId ∧ endedAt ≤ connected ∧
      call.deletedAt = none ∧ call.deletionFenceAt = none ∧
      expiredBy call.transcriptExpiresAt now = false ∧ text ≠ [] ∧
      turn.effectiveTextClearedAt = none ∧ (∃ t ∈ turn.effectiveTextExpiresAt, now < t) ∧
      turn.row.contentSafetyStatus .user = .passed ∧ turn.row.crisisStatus .user = .passed then
    some (connected, turn.row.turnIndex, text)
  else none

/-- `_topic_inputs`. -/
def Db.topicInputs (db : Db) (call : VoiceCall) (job : VoiceFollowupJob) (endedAt now : Instant) :
    Option TopicInputs :=
  let later := (db.turns.filterMap (db.laterTurn job endedAt now)).insertionSort
    fun a b => a.1 < b.1 ∨ a.1 = b.1 ∧ a.2.1 ≤ b.2.1
  if later.isEmpty then none
  else
    some
      { userId := job.userId, sourceCallId := job.callId, contentType := job.contentType
        followupContent := job.content
        unfinishedTopics := match call.unfinishedTopics with
          | some topics => if topics.truthy then topics else .arr []
          | none => .arr []
        laterUserTexts := later.map (·.2.2), configSnapshot := call.configSnapshot }

/-- A message of the user at or after the end of the call. -/
def Db.chatted (db : Db) (userId : ℕ) (endedAt : Instant) : Bool :=
  db.chats.any fun chat => chat.userId = userId && chat.role = .user && decide (endedAt ≤ chat.createdAt)

/-- Another job of the call has sent its message. -/
def Db.otherSent (db : Db) (id : ℕ) (callId : Ident) : Bool :=
  (List.range db.nextJobId).any fun other =>
    match db.jobs other with
    | none => false
    | some job => other ≠ id && job.callId = callId && job.agentMessageId.isSome

/-- The source of the message is eligible. -/
def Db.sourceEligible (db : Db) (call : VoiceCall) (job : VoiceFollowupJob) (now : Instant) : Bool :=
  match job.contentType with
  | .missedExplanation => call.status = .missed && call.connectedAt.isNone
  | _ =>
    call.status = .ended && call.connectedAt.isSome &&
      decide (positiveConfig call "followup" "summary_min_effective_seconds" defaultMinimumSeconds ≤
        call.durationSeconds) &&
      call.summaryStatus = .ready && db.meaningful job.callId now

abbrev TopicResult := Option (Text × Bool)

/-- The topic check of `_ineligible`. -/
def Db.topicReason (S : Service) (db : Db) (call : VoiceCall) (job : VoiceFollowupJob)
    (endedAt now : Instant) (topic : TopicResult) : Except FollowupError (Option CancelReason) := do
  let next ← nextWindow S job now
  match if next.isNone then db.topicInputs call job endedAt now else none with
  | none => .ok none
  | some inputs =>
    match topic with
    | none => .error .topicInputsChanged
    | some (digest, continued) =>
      if digest ≠ S.digest inputs then .error .topicInputsChanged
      else .ok (if continued then some .topicContinued else none)

/-- `_ineligible`. -/
def Db.ineligible (S : Service) (db : Db) (id : ℕ) (job : VoiceFollowupJob) (now : Instant)
    (topic : TopicResult) : Except FollowupError (Option CancelReason) :=
  match db.calls job.callId with
  | none => .ok (some .sourceMissing)
  | some call =>
    if call.userId ≠ job.userId then .ok (some .sourceMissing)
    else if call.deletedAt.isSome || call.deletionFenceAt.isSome then .ok (some .sourceDeleted)
    else if expiredBy call.transcriptExpiresAt now then .ok (some .sourceExpired)
    else if job.latestDueAt < now then .ok (some .deadlineExceeded)
    else if job.content.all isBlank then .ok (some .contentUnavailable)
    else if !db.sourceEligible call job now then .ok (some .sourceIneligible)
    else
      match call.endedAt with
      | none => .ok (some .sourceIneligible)
      | some endedAt =>
        if db.chatted job.userId endedAt then .ok (some .userChatted)
        else do
          let reason ← db.topicReason S call job endedAt now topic
          .ok (match reason with
            | some reason => some reason
            | none => if db.otherSent id job.callId then some .alreadySent else none)

/-! ### The transactions of a worker -/

def Db.putJob (db : Db) (id : ℕ) (job : VoiceFollowupJob) : Db :=
  { db with jobs := Function.update db.jobs id (some job) }

/-- `_release`. -/
def VoiceFollowupJob.released (job : VoiceFollowupJob) : VoiceFollowupJob :=
  { job with leaseOwner := none, leaseExpiresAt := none }

/-- `_cancel`. -/
def VoiceFollowupJob.cancelled (job : VoiceFollowupJob) (reason : CancelReason) : VoiceFollowupJob :=
  { job.released with
    status := .cancelled, cancelReason := some reason, failReason := none, nextRetryAt := none }

def VoiceFollowupJob.open (job : VoiceFollowupJob) : Bool :=
  job.status = .pending || job.status = .processing

/-- The message is out and its count is not recorded. -/
def VoiceFollowupJob.accounting (job : VoiceFollowupJob) : Bool :=
  job.status = .sent && job.failReason = some .countPending || job.open && job.agentMessageId.isSome

def isAfter (t : Option Instant) (now : Instant) : Bool :=
  match t with
  | none => false
  | some t => decide (now < t)

inductive Claimed
  | done | accounting | dispatching
  deriving DecidableEq, Repr

/-- `process` up to its first commit. -/
def Db.claim (S : Service) (db : Db) (id : ℕ) (owner : Token) (now : Instant) : Db × Claimed :=
  match db.jobs id with
  | none => (db, .done)
  | some job =>
    if !job.open && !job.accounting then (db, .done)
    else if job.leaseOwner.isSome && isAfter job.leaseExpiresAt now then (db, .done)
    else if isAfter job.nextRetryAt now then (db, .done)
    else if !job.accounting && decide (now < job.dueAt) then (db, .done)
    else if (db.calls job.callId).isNone then
      (db.putJob id { job.released with status := .failed, failReason := some .sourceMissing }, .done)
    else
      let leased := { job with
        attemptCount := job.attemptCount + 1, leaseOwner := some owner
        leaseExpiresAt := some (now + micros S.leaseSeconds), nextRetryAt := none }
      if job.accounting then
        (db.putJob id { leased with status := .sent, failReason := some .countPending }, .accounting)
      else (db.putJob id { leased with status := .processing }, .dispatching)

/-- The first half of `_prepare_topic`: the inputs to ask about. -/
def Db.prepareTopic (S : Service) (db : Db) (id : ℕ) (owner : Token) (now : Instant) :
    Except FollowupError (Option TopicInputs) :=
  match db.jobs id with
  | none => .ok none
  | some job =>
    match db.calls job.callId with
    | none => .ok none
    | some call =>
      match call.endedAt with
      | none => .ok none
      | some endedAt =>
        if job.status ≠ .processing ∨ job.leaseOwner ≠ some owner ∨ call.deletedAt.isSome ∨
            call.deletionFenceAt.isSome ∨ expiredBy call.transcriptExpiresAt now = true ∨
            job.latestDueAt < now then .ok none
        else do
          let next ← nextWindow S job now
          .ok (if next.isNone then db.topicInputs call job endedAt now else none)

/-- The worker still has the job. -/
def VoiceFollowupJob.ownedBy (job : VoiceFollowupJob) (owner : Token) : Bool :=
  job.status = .processing && job.leaseOwner = some owner

inductive FirstCheck
  | ended
  /-- The quota is asked for, with the locks held. -/
  | askQuota
  deriving DecidableEq, Repr

/-- The dispatching transaction up to the quota check. -/
def Db.firstCheck (S : Service) (db : Db) (id : ℕ) (owner : Token) (topic : TopicResult)
    (now : Instant) : Except FollowupError (Db × FirstCheck) :=
  match db.jobs id with
  | none => .ok (db, .ended)
  | some job =>
    if !job.ownedBy owner then .ok (db, .ended)
    else if !isAfter job.leaseExpiresAt now then .error .leaseExpired
    else do
      let reason ← db.ineligible S id job now topic
      match reason with
      | some reason => .ok (db.putJob id (job.cancelled reason), .ended)
      | none => do
        let next ← nextWindow S job now
        match next with
        | none => .ok (db, .askQuota)
        | some next =>
          if job.latestDueAt < next then .ok (db.putJob id (job.cancelled .deadlineExceeded), .ended)
          else
            .ok (db.putJob id { job.released with
              status := .pending, nextRetryAt := some next, failReason := none }, .ended)

/-- The readings of the clock from the answer of the quota check to the commit. -/
structure Readings where
  checked : Instant
  staged : Instant
  created : Instant
  committed : Instant
  deriving DecidableEq, Repr

inductive Sent
  | cancelled | sent
  deriving DecidableEq, Repr

/-- `allocate_sort_seq(user_id, 1)`. -/
def Db.allocate (db : Db) (userId : ℕ) : Db :=
  { db with nextSeq := Function.update db.nextSeq userId (db.nextSeq userId + 1) }

/-- The message of the job and the job that has sent it. -/
def Db.addMessage (db : Db) (id : ℕ) (job : VoiceFollowupJob) (r : Readings) : Db :=
  { (db.allocate job.userId).putJob id { job with
      agentMessageId := some db.nextMessageId, status := .sent, cancelReason := none
      failReason := some .countPending, nextRetryAt := none } with
    messages := db.messages ++
      [⟨db.nextMessageId, job.userId, job.content, db.nextSeq job.userId, r.created, id, job.callId,
        r.committed⟩]
    nextMessageId := db.nextMessageId + 1 }

/-- `_stage_message` and the commit; the chat is read under the lock of the timeline. -/
def Db.stageMessage (S : Service) (db : Db) (id : ℕ) (job : VoiceFollowupJob) (topic : TopicResult)
    (r : Readings) : Except FollowupError (Db × Sent) := do
  let reason ← db.ineligible S id job r.staged topic
  match reason with
  | some reason => .ok ((db.allocate job.userId).putJob id (job.cancelled reason), .cancelled)
  | none =>
    if job.latestDueAt < r.created then
      .ok ((db.allocate job.userId).putJob id (job.cancelled .deadlineExceeded), .cancelled)
    else if (db.calls job.callId).any fun call => expiredBy call.transcriptExpiresAt r.created then
      .ok ((db.allocate job.userId).putJob id (job.cancelled .sourceExpired), .cancelled)
    else if !isAfter job.leaseExpiresAt r.created then .error .leaseExpired
    else do
      let next ← nextWindow S job r.created
      if next.isSome then .error .windowChanged
      else .ok (db.addMessage id job r, .sent)

/-- The dispatching transaction from the answer of the quota check. -/
def Db.send (S : Service) (db : Db) (id : ℕ) (topic : TopicResult) (allowed : Bool) (r : Readings) :
    Except FollowupError (Db × Sent) := do
  let job ← orRaise (db.jobs id) .rowMissing
  if !allowed then .ok (db.putJob id (job.cancelled .quotaUnavailable), .cancelled)
  else if !isAfter job.leaseExpiresAt r.checked then .error .leaseExpired
  else do
    let reason ← db.ineligible S id job r.checked topic
    match reason with
    | some reason => .ok (db.putJob id (job.cancelled reason), .cancelled)
    | none => do
      let next ← nextWindow S job r.checked
      if next.isSome then .error .windowChanged
      else db.stageMessage S id job topic r

/-- `_failure`. -/
def Db.failure (S : Service) (db : Db) (id : ℕ) (owner : Token) (reason : FailReason)
    (retryable : Bool) (now : Instant) : Db :=
  match db.jobs id with
  | none => db
  | some job =>
    if !job.ownedBy owner then db
    else db.putJob id { job.released with
      status := if retryable then .pending else .failed, failReason := some reason
      nextRetryAt := if retryable then some (now + micros S.retrySeconds) else none }

/-! ### Counting -/

/-- What `count_sent` is called with. -/
structure CountRequest where
  userId : ℕ
  messageId : ℕ
  jobId : ℕ
  occurredAt : Instant
  dedupeTtlSeconds : ℤ
  deriving DecidableEq, Repr

/-- The text whose hash is the key of the marker names these. -/
def CountRequest.key (r : CountRequest) : ℕ × ℕ × ℕ := (r.userId, r.jobId, r.messageId)

/-- The first transaction of `_account`. -/
def Db.account (db : Db) (id : ℕ) (owner : Token) : Db × Option CountRequest :=
  match db.jobs id with
  | none => (db, none)
  | some job =>
    if job.status ≠ .sent ∨ job.leaseOwner ≠ some owner then (db, none)
    else
      match job.agentMessageId.bind fun mid => db.messages.find? fun m => m.id = mid with
      | none => (db.putJob id { job.released with failReason := some .messageMissing }, none)
      | some m =>
        if m.userId ≠ job.userId then
          (db.putJob id { job.released with failReason := some .messageMissing }, none)
        else
          let days := match db.calls job.callId with
            | none => defaultJobRetentionDays
            | some call => positiveConfig call "retention" "job_log_days" defaultJobRetentionDays
          (db, some ⟨job.userId, m.id, id, m.createdAt, days * 86400⟩)

/-- The last transaction of `_account`. -/
def Db.recordCount (S : Service) (db : Db) (id : ℕ) (owner : Token) (success : Bool) (now : Instant) :
    Db :=
  match db.jobs id with
  | none => db
  | some job =>
    if job.status ≠ .sent ∨ job.leaseOwner ≠ some owner then db
    else db.putJob id { job.released with
      failReason := if success then none else some .countPending
      nextRetryAt := if success then none else some (now + micros S.retrySeconds) }

/-- One increment of a user's counter of a day, and until when it is remembered. -/
structure Increment where
  userId : ℕ
  day : ℤ
  key : ℕ × ℕ × ℕ
  raisedAt : Instant
  rememberedUntil : Instant
  deriving DecidableEq, Repr

/-- The counters, as the increments they are made of, and the markers with their expiry. -/
structure Cache where
  increments : List Increment
  markers : ℕ × ℕ × ℕ → Option Instant

/-- `COUNT_ONCE_LUA` at an instant of the cache. -/
def Cache.countOnce (c : Cache) (r : CountRequest) (now : Instant) : Cache :=
  if isAfter (c.markers r.key) now then c
  else
    { increments := c.increments ++
        [⟨r.userId, r.occurredAt / dayMicros, r.key, now, now + micros r.dedupeTtlSeconds⟩]
      markers := Function.update c.markers r.key (some (now + micros r.dedupeTtlSeconds)) }

/-- What `VoiceFollowupCounter` rejects before it calls the cache. -/
def CountRequest.valid (r : CountRequest) : Bool :=
  decide (1 ≤ r.userId) && decide (1 ≤ r.messageId) && decide (1 ≤ r.jobId) &&
    decide (1 ≤ r.dedupeTtlSeconds)

/-! ### Others -/

/-- A new job, when the call has none of its kind. -/
def Db.schedule (db : Db) (job : VoiceFollowupJob) : Db :=
  if (List.range db.nextJobId).any fun id =>
      match db.jobs id with
      | none => false
      | some other => other.callId = job.callId && other.contentType = job.contentType then db
  else
    { db with
      jobs := Function.update db.jobs db.nextJobId
        (some { job with
          agentMessageId := none, leaseOwner := none, leaseExpiresAt := none, attemptCount := 0
          failReason := none, nextRetryAt := none
          status := if job.cancelReason.isSome then .cancelled else .pending })
      nextJobId := db.nextJobId + 1 }

/-- The sweep cancels what has not been sent, and clears the text. -/
def VoiceFollowupJob.swept (job : VoiceFollowupJob) (reason : CancelReason) : VoiceFollowupJob :=
  if job.open || job.status = .failed then
    { job.released with
      content := [], status := .cancelled, nextRetryAt := none, cancelReason := some reason }
  else { job with content := [] }

/-- Why the sweep takes the job, when it does. -/
def sweepReason (call : VoiceCall) (job : VoiceFollowupJob) (agedBefore now : Instant) :
    Option CancelReason :=
  if call.deletionFenceAt.isSome || call.deletedAt.isSome then some .deletionFence
  else if expiredBy call.transcriptExpiresAt now then some .sourceExpired
  else if job.createdAt ≤ agedBefore then some .retentionExpired
  else none

/-- What `_purge_call` does to the follow-up jobs of a call. -/
def Db.sweep (db : Db) (callId : Ident) (agedBefore now : Instant) : Db :=
  match db.calls callId with
  | none => db
  | some call =>
    { db with
      jobs := fun id => (db.jobs id).map fun job =>
        if job.callId = callId then
          match sweepReason call job agedBefore now with
          | none => job
          | some reason => job.swept reason
        else job }

/-- The deletion of a call by an administrator. -/
def Db.fence (db : Db) (callId : Ident) (now : Instant) : Db :=
  match db.calls callId with
  | none => db
  | some call =>
    { db with
      calls := Function.update db.calls callId
        (some { call with
          deletionFenceAt := call.deletionFenceAt <|> some now
          deletedAt := call.deletedAt <|> some now }) }

/-- A chat message, under the lock of the timeline. -/
def Db.chat (db : Db) (userId : ℕ) (role : ChatRole) (createdAt : Instant) : Db :=
  { db.allocate userId with
    chats := db.chats ++ [⟨userId, role, createdAt, db.nextSeq userId⟩] }

end CompanionBackend.FollowupJobs
