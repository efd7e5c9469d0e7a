import CompanionBackend.MemoryJobs

/-!
# Memory workers

The workers of the memory jobs, as tasks over the tables, the locks and the vector
store. A worker names the locks it holds; a row that is locked stops every
transaction that locks it, a claim passes over it, and a document that is locked
fails the write. An upsert the worker no longer waits for may still reach the store.
-/
namespace CompanionBackend.MemoryWorkers

open Runs ProviderEvents TaskSystems MemoryJobs
open TurnRecords (MemoryStatus)

/-- An item on its way to the vector store, with the turn it is from. -/
structure Upsert where
  docId : Text
  callRow : ℕ
  turnIndex : ℕ
  content : Text
  deriving DecidableEq, Repr

structure Data where
  db : Db
  /-- The workers inside a write, by the row and by the document they have locked. -/
  jobLock : ℕ → Option Token
  docLock : Text → Option Token
  nextToken : Token
  store : Text → Option Upsert
  /-- Every upsert sent, and those whose trace is committed, in order. -/
  sent : List Upsert
  traced : List Upsert

/-- What a worker knows of the job it has claimed. -/
structure Claim where
  callId : Ident
  jobId : ℕ
  token : Token
  userId : ℕ
  turnIndex : ℕ
  deriving DecidableEq, Repr

/-- Where the loop over the items is. -/
structure ItemLoop where
  rest : List MemoryItem
  dropped : ℕ
  written : ℕ
  deriving DecidableEq, Repr

/-- Transactions of other services, or of this one outside a job. -/
inductive Transaction
  | enqueue (turnId : ℕ)
  | compensate (callId : Ident) (turnIds : List ℕ)
  | fence (callId : Ident)
  | purge (jobId : ℕ)
  | sweep (callId : Ident) (agedBefore : Instant)
  | retry (jobId : ℕ)
  /-- The turn service and the retention sweep rewrite a turn. -/
  | writeTurn (turnId : ℕ) (turn : MemoryTurn)
  /-- The call moves on. -/
  | writeCall (callId : Ident) (status : VoiceModels.CallStatus) (expiry : Option Instant)

inductive Task
  | opening (callId : Ident)
  /-- The snapshot of the transaction is open and shows this candidate. -/
  | opened (callId : Ident) (candidate : ℕ)
  | extracting (c : Claim)
  | saving (c : Claim) (items : List MemoryItem) (dropped : ℕ)
  | looping (c : Claim) (loop : ItemLoop)
  | writing (c : Claim) (item : MemoryItem) (loop : ItemLoop)
  | docLocked (c : Claim) (item : MemoryItem) (loop : ItemLoop)
  | upserting (c : Claim) (item : MemoryItem) (u : Upsert) (landed : Bool) (loop : ItemLoop)
  | finishing (c : Claim) (status : MemoryStatus) (reason : Option FailReason)
  /-- An upsert nobody waits for any more. -/
  | stray (u : Upsert)
  | transaction (t : Transaction)

inductive Request
  | processNext (callId : Ident)
  | transaction (t : Transaction)

/-- What the gate and the model make of a turn. -/
inductive Extraction
  | filtered | unavailable | skipped | invalidOutput
  | ready (items : List MemoryItem) (dropped : ℕ)

inductive Outcome
  | request (r : Request)
  /-- The next transaction of the task commits; its clock shows this instant. -/
  | commit (now : Instant)
  | extracted (e : Extraction)
  | gate (allowed : Bool)
  | landed
  | acknowledged (docId : Text) (now : Instant)
  | raised
  | crash

namespace Data

def isFree (d : Data) (id : ℕ) : Bool := (d.jobLock id).isNone

/-- No worker is inside a write of a job of the call. -/
def callFree (d : Data) (callId : Ident) : Bool :=
  (List.range d.db.nextJobId).all fun id =>
    match d.db.jobs id with
    | none => true
    | some job => job.callId != callId || d.isFree id

def withDb (d : Data) (db : Db) : Data := { d with db := db }

def lockDoc (d : Data) (doc : Text) (token : Token) : Data :=
  { d with docLock := Function.update d.docLock doc (some token) }

def unlockDoc (d : Data) (doc : Text) : Data :=
  { d with docLock := Function.update d.docLock doc none }

def lockJob (d : Data) (id : ℕ) (token : Token) : Data :=
  { d with jobLock := Function.update d.jobLock id (some token) }

def unlockJob (d : Data) (id : ℕ) : Data :=
  { d with jobLock := Function.update d.jobLock id none }

/-- The upsert takes effect. -/
def land (d : Data) (u : Upsert) : Data :=
  { d with store := Function.update d.store u.docId (some u) }

end Data

/-- The final `except`: every failure of a claimed job, a second one apart, ends it as failed. -/
def afterRaise (c : Claim) : Task := .finishing c .failed (some .writeUnavailable)

/-- The upsert goes on without its worker, unless it has taken effect. -/
def abandoned (u : Upsert) (landed : Bool) : List Task := if landed then [] else [.stray u]

/-- The end of the loop. -/
def loopEnd (c : Claim) (loop : ItemLoop) : Task :=
  .finishing c (if 0 < loop.written then .success else .skipped)
    (if 0 < loop.dropped then some .droppedItems else none)

/-- What follows the claim. -/
def afterClaim (c : Claim) : Snapshot → Task
  | .extracting => .extracting c
  | .ready items dropped => .looping c ⟨items, dropped, 0⟩
  | .unreadable => .finishing c .failed (some .snapshotInvalid)

/-- What follows the extraction. -/
def afterExtraction (c : Claim) : Extraction → Task
  | .filtered => .finishing c .skipped (some .safetyFiltered)
  | .unavailable => .finishing c .failed (some .extractUnavailable)
  | .skipped => .finishing c .skipped (some .skipped)
  | .invalidOutput => .finishing c .skipped (some .invalidOutput)
  | .ready items dropped => .saving c items dropped

/-- A transaction that raises changes nothing. -/
def kept (db : Db) (result : Except MemoryError Db) : Db :=
  match result with
  | .ok db' => db'
  | .error _ => db

/-- The other transactions, each when the rows it locks are free. -/
def runTransaction (d : Data) (now : Instant) : Transaction → Option Db
  | .enqueue turnId => some (d.db.enqueue turnId now)
  | .compensate callId turnIds =>
    if d.callFree callId then some (d.db.compensate callId turnIds now) else none
  | .fence callId => if d.callFree callId then some (d.db.fence callId now) else none
  | .purge id => some (if d.isFree id then kept d.db (d.db.purgeSnapshot id now) else d.db)
  | .sweep callId agedBefore =>
    if d.callFree callId then some (d.db.sweep callId agedBefore now) else none
  | .retry id => some (if d.isFree id then kept d.db (d.db.retry id now) else d.db)
  | .writeTurn turnId turn =>
    match d.db.turns turnId with
    | none => none
    | some old =>
      if turn.callId = old.callId ∧ turn.row.turnIndex = old.row.turnIndex then
        some { d.db with turns := Function.update d.db.turns turnId (some turn) }
      else none
  | .writeCall callId status expiry =>
    match d.db.calls callId with
    | none => none
    | some call =>
      some { d.db with
        calls := Function.update d.db.calls callId
          (some { call with status := status, transcriptExpiresAt := expiry }) }

/-- The claim of the candidate: a row that is locked is passed over. -/
def claimStep (d : Data) (callId : Ident) (id : ℕ) (now : Instant) : Data × List Task :=
  if !d.isFree id then (d, [])
  else
    match d.db.claim id d.nextToken now with
    | .error _ => (d, [])
    | .ok (db, .processing snapshot) =>
      match d.db.jobs id, d.db.calls callId with
      | some job, some call =>
        ({ d with db := db, nextToken := d.nextToken + 1 },
          [afterClaim ⟨callId, id, d.nextToken, call.userId, job.turnIndex⟩ snapshot])
      | _, _ => (d, [])
    | .ok (db, _) => (d.withDb db, [])

section

variable (hash : Text → Text)

/-- The document of an item. -/
def Claim.docId (c : Claim) (item : MemoryItem) : Text :=
  buildDocId hash item.memoryType item.stableKey c.userId

/-- The write from the lock of the job's row up to the upsert. -/
def checkStep (d : Data) (c : Claim) (item : MemoryItem) (loop : ItemLoop) (now : Instant) :
    Data × List Task :=
  let doc := c.docId hash item
  match d.db.checkWrite c.jobId c.token c.callId c.userId c.turnIndex doc now with
  | .error _ => (d.unlockDoc doc, [afterRaise c])
  | .ok (db, .cancelled) => ((d.withDb db).unlockDoc doc, [])
  | .ok (db, .superseded) => ((d.withDb db).unlockDoc doc, [.looping c loop])
  | .ok (db, .existing) =>
    ((d.withDb db).unlockDoc doc, [.looping c { loop with written := loop.written + 1 }])
  | .ok (db, .send callRow) =>
    let u : Upsert := ⟨doc, callRow, c.turnIndex, item.content⟩
    ({ (d.withDb db).lockJob c.jobId c.token with sent := d.sent ++ [u] },
      [.upserting c item u false loop])

/-- The trace, its commit and the release of the locks. -/
def traceStep (d : Data) (c : Claim) (item : MemoryItem) (u : Upsert) (now : Instant) : Data :=
  let db := d.db.addTrace ⟨c.callId, c.turnIndex, u.docId, item.memoryType, item.stableKey, now⟩
  { ((d.withDb db).unlockJob c.jobId).unlockDoc u.docId with traced := d.traced ++ [u] }

/-- Both locks of a write are given back. -/
def Data.unlock (d : Data) (c : Claim) (u : Upsert) : Data :=
  (d.unlockJob c.jobId).unlockDoc u.docId

def finishStep (d : Data) (c : Claim) (status : MemoryStatus) (reason : Option FailReason)
    (now : Instant) : Data × List Task :=
  match d.db.finish c.jobId c.token status reason now with
  | .ok db => (d.withDb db, [])
  | .error _ =>
    (d, if status = .failed ∧ reason = some .writeUnavailable then [] else [afterRaise c])

/-- One step of a task. -/
def advance (d : Data) : Task → Outcome → Option (Data × List Task)
  | .opening callId, .commit _ =>
    match d.db.calls callId, d.db.candidate callId with
    | some _, some id => some (d, [.opened callId id])
    | _, _ => some (d, [])
  | .opened callId id, .commit now => some (claimStep d callId id now)
  | .extracting c, .extracted e => some (d, [afterExtraction c e])
  | .saving c items dropped, .commit now =>
    if d.isFree c.jobId then
      match d.db.saveSnapshot c.jobId c.token items dropped now with
      | .error _ => some (d, [afterRaise c])
      | .ok none => some (d, [])
      | .ok (some db) => some (d.withDb db, [.looping c ⟨items, dropped, 0⟩])
    else none
  | .looping c ⟨item :: rest, dropped, written⟩, .gate allowed =>
    if allowed then some (d, [.writing c item ⟨rest, dropped, written⟩])
    else some (d, [.looping c ⟨rest, dropped + 1, written⟩])
  | .looping c ⟨[], dropped, written⟩, .gate _ => some (d, [loopEnd c ⟨[], dropped, written⟩])
  | .writing c item loop, .commit _ =>
    match d.docLock (c.docId hash item) with
    | some _ => some (d, [afterRaise c])
    | none => some (d.lockDoc (c.docId hash item) c.token, [.docLocked c item loop])
  | .docLocked c item loop, .commit now =>
    if d.isFree c.jobId then some (checkStep hash d c item loop now) else none
  | .upserting c item u false loop, .landed => some (d.land u, [.upserting c item u true loop])
  | .upserting c item u true loop, .acknowledged docId now =>
    if docId = u.docId then
      some (traceStep d c item u now, [.looping c { loop with written := loop.written + 1 }])
    else some (d.unlock c u, [afterRaise c])
  | .finishing c status reason, .commit now =>
    if d.isFree c.jobId then some (finishStep d c status reason now) else none
  | .stray u, .landed => some (d.land u, [])
  | .transaction t, .commit now => (runTransaction d now t).map fun db => (d.withDb db, [])
  -- failures: the exception is caught around the whole of a claimed job
  | .extracting c, .raised | .saving c _ _, .raised | .looping c _, .raised
  | .writing c _ _, .raised => some (d, [afterRaise c])
  | .docLocked c item _, .raised => some (d.unlockDoc (c.docId hash item), [afterRaise c])
  | .upserting c _ u landed _, .raised => some (d.unlock c u, afterRaise c :: abandoned u landed)
  | .finishing c status reason, .raised =>
    some (d, if status = .failed ∧ reason = some .writeUnavailable then [] else [afterRaise c])
  | .opening _, .raised | .opened _ _, .raised | .transaction _, .raised => some (d, [])
  -- crashes: the connection goes, and with it its locks
  | .docLocked c item _, .crash => some (d.unlockDoc (c.docId hash item), [])
  | .upserting c _ u landed _, .crash => some (d.unlock c u, abandoned u landed)
  | .stray _, .crash => none
  | _, .crash => some (d, [])
  | _, _ => none

/-- The tables before any job was made: the calls have numbers of their own. -/
structure Data.Initial (d : Data) : Prop where
  jobs : d.db.jobs = fun _ => none
  traces : d.db.traces = []
  operations : d.db.operations = []
  jobLock : d.jobLock = fun _ => none
  docLock : d.docLock = fun _ => none
  traced : d.traced = []
  callRows : ∀ c c' call call', d.db.calls c = some call → d.db.calls c' = some call' →
    call.id = call'.id → c = c'

/-- Workers are started for a call, and other transactions run, in any order. -/
def system : TaskSystem Data Task Outcome where
  initial := Data.Initial
  accept _ o :=
    match o with
    | .request (.processNext callId) => some [.opening callId]
    | .request (.transaction t) => some [.transaction t]
    | _ => none
  advance := advance hash

end

end CompanionBackend.MemoryWorkers
