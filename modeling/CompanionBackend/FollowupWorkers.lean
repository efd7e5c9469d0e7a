import CompanionBackend.FollowupJobs

/-!
# Follow-up workers

The workers as tasks. A dispatching worker keeps the lock of its call's row while the
quota is checked, so nobody else writes the call or its jobs then; chat does not take
that lock. Any step may fail or crash, and a count may be made and its answer lost.
-/
namespace CompanionBackend.FollowupWorkers

open Runs ProviderEvents TaskSystems FollowupJobs

structure Data where
  db : Db
  cache : Cache
  callLock : Ident → Option Token
  nextToken : Token

inductive Transaction
  | schedule (job : VoiceFollowupJob)
  | sweep (callId : Ident) (agedBefore : Instant)
  | fence (callId : Ident)
  | chat (userId : ℕ) (role : ChatRole) (createdAt : Instant)
  /-- The call moves on. -/
  | writeCall (callId : Ident) (call : VoiceCall)
  | writeTurns (turns : List CallTurn)

inductive Task
  | claiming (id : ℕ)
  | preparing (id : ℕ) (owner : Token)
  | asking (id : ℕ) (owner : Token) (digest : Text)
  | locking (id : ℕ) (owner : Token) (topic : TopicResult)
  | quota (id : ℕ) (owner : Token) (topic : TopicResult) (callId : Ident)
  | failing (id : ℕ) (owner : Token) (reason : FailReason) (retryable : Bool)
  | accounting (id : ℕ) (owner : Token)
  | counting (id : ℕ) (owner : Token) (r : CountRequest)
  | recording (id : ℕ) (owner : Token) (success : Bool)
  | transaction (t : Transaction)

inductive Request
  | process (id : ℕ)
  | transaction (t : Transaction)

inductive Outcome
  | request (r : Request)
  | commit (now : Instant)
  | topic (continued : Bool)
  | quota (allowed : Bool) (r : Readings)
  | counted (now : Instant)
  /-- The script ran and its answer was lost. -/
  | countLost (now : Instant)
  | raised
  | crash

namespace Data

/-- Nobody holds the row of the job's call. -/
def unlocked (d : Data) (id : ℕ) : Bool :=
  match d.db.jobs id with
  | none => true
  | some job => (d.callLock job.callId).isNone

def withDb (d : Data) (db : Db) : Data := { d with db := db }

def lockCall (d : Data) (callId : Ident) (owner : Token) : Data :=
  { d with callLock := Function.update d.callLock callId (some owner) }

def unlockCall (d : Data) (callId : Ident) : Data :=
  { d with callLock := Function.update d.callLock callId none }

end Data

/-- The two handlers of `process`. -/
def afterError (id : ℕ) (owner : Token) : FollowupError → Task
  | .invalidWindowSnapshot => .failing id owner .invalidSnapshot false
  | _ => .failing id owner .dispatchUnavailable true

/-- The other transactions, when the rows they lock are free. -/
def runTransaction (d : Data) (now : Instant) : Transaction → Option Db
  | .schedule job => if d.callLock job.callId = none then some (d.db.schedule job) else none
  | .sweep callId agedBefore =>
    if d.callLock callId = none then some (d.db.sweep callId agedBefore now) else none
  | .fence callId => if d.callLock callId = none then some (d.db.fence callId now) else none
  | .chat userId role createdAt => some (d.db.chat userId role createdAt)
  | .writeCall callId call =>
    match d.db.calls callId with
    | none => if d.callLock callId = none then
        some { d.db with calls := Function.update d.db.calls callId (some call) } else none
    | some old =>
      if d.callLock callId = none ∧ call.userId = old.userId ∧
          call.deletionFenceAt = old.deletionFenceAt ∧ call.deletedAt = old.deletedAt then
        some { d.db with calls := Function.update d.db.calls callId (some call) }
      else none
  | .writeTurns turns => some { d.db with turns := turns }

section

variable (S : Service)

def claimStep (d : Data) (id : ℕ) (now : Instant) : Data × List Task :=
  let owner := d.nextToken
  match d.db.claim S id owner now with
  | (db, .done) => (d.withDb db, [])
  | (db, .accounting) => ({ d with db := db, nextToken := owner + 1 }, [.accounting id owner])
  | (db, .dispatching) => ({ d with db := db, nextToken := owner + 1 }, [.preparing id owner])

def prepareStep (d : Data) (id : ℕ) (owner : Token) (now : Instant) : Task :=
  match d.db.prepareTopic S id owner now with
  | .error e => afterError id owner e
  | .ok none => .locking id owner none
  | .ok (some inputs) => .asking id owner (S.digest inputs)

def lockStep (d : Data) (id : ℕ) (owner : Token) (topic : TopicResult) (now : Instant) :
    Data × List Task :=
  match d.db.firstCheck S id owner topic now with
  | .error e => (d, [afterError id owner e])
  | .ok (db, .ended) => (d.withDb db, [])
  | .ok (db, .askQuota) =>
    match d.db.jobs id with
    | none => (d.withDb db, [])
    | some job => ((d.withDb db).lockCall job.callId owner, [.quota id owner topic job.callId])

def sendStep (d : Data) (id : ℕ) (owner : Token) (topic : TopicResult) (callId : Ident)
    (allowed : Bool) (r : Readings) : Data × List Task :=
  match d.db.send S id topic allowed r with
  | .error e => (d.unlockCall callId, [afterError id owner e])
  | .ok (db, .cancelled) => ((d.withDb db).unlockCall callId, [])
  | .ok (db, .sent) => ((d.withDb db).unlockCall callId, [.accounting id owner])

def accountStep (d : Data) (id : ℕ) (owner : Token) : Data × List Task :=
  match d.db.account id owner with
  | (db, none) => (d.withDb db, [])
  | (db, some r) => (d.withDb db, [.counting id owner r])

/-- The counter is called; a request it rejects raises. -/
def countStep (d : Data) (id : ℕ) (owner : Token) (r : CountRequest) (now : Instant)
    (answered : Bool) : Data × List Task :=
  if r.valid then ({ d with cache := d.cache.countOnce r now }, [.recording id owner answered])
  else (d, [.recording id owner false])

/-- One step of a task. -/
def advance (d : Data) : Task → Outcome → Option (Data × List Task)
  | .claiming id, .commit now => if d.unlocked id then some (claimStep S d id now) else none
  | .preparing id owner, .commit now => some (d, [prepareStep S d id owner now])
  | .asking id owner digest, .topic continued => some (d, [.locking id owner (some (digest, continued))])
  | .locking id owner topic, .commit now =>
    if d.unlocked id then some (lockStep S d id owner topic now) else none
  | .quota id owner topic callId, .quota allowed r => some (sendStep S d id owner topic callId allowed r)
  | .failing id owner reason retryable, .commit now =>
    if d.unlocked id then some (d.withDb (d.db.failure S id owner reason retryable now), []) else none
  | .accounting id owner, .commit _ => if d.unlocked id then some (accountStep d id owner) else none
  | .counting id owner r, .counted now => some (countStep d id owner r now true)
  | .counting id owner r, .countLost now => some (countStep d id owner r now false)
  | .recording id owner success, .commit now =>
    if d.unlocked id then some (d.withDb (d.db.recordCount S id owner success now), []) else none
  | .transaction t, .commit now => (runTransaction d now t).map fun db => (d.withDb db, [])
  -- failures: the handlers of `process` and of the count, else the exception ends the worker
  | .preparing id owner, .raised | .asking id owner _, .raised | .locking id owner _, .raised =>
    some (d, [.failing id owner .dispatchUnavailable true])
  | .quota id owner _ callId, .raised =>
    some (d.unlockCall callId, [.failing id owner .dispatchUnavailable true])
  | .counting id owner _, .raised => some (d, [.recording id owner false])
  | .claiming _, .raised | .failing _ _ _ _, .raised | .accounting _ _, .raised
  | .recording _ _ _, .raised | .transaction _, .raised => some (d, [])
  | .quota _ _ _ callId, .crash => some (d.unlockCall callId, [])
  | _, .crash => some (d, [])
  | _, _ => none

/-- Before any job was made. -/
structure Data.Initial (d : Data) : Prop where
  jobs : d.db.jobs = fun _ => none
  messages : d.db.messages = []
  increments : d.cache.increments = []
  markers : d.cache.markers = fun _ => none
  callLock : d.callLock = fun _ => none

/-- Workers are started for a job, and other transactions run, in any order. -/
def system : TaskSystem Data Task Outcome where
  initial := Data.Initial
  accept _ o :=
    match o with
    | .request (.process id) => some [.claiming id]
    | .request (.transaction t) => some [.transaction t]
    | _ => none
  advance := advance S

end

end CompanionBackend.FollowupWorkers
