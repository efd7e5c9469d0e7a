import Mathlib.Data.List.Sort
import CompanionBackend.CapabilityEvidence
import CompanionBackend.AgentMessages
import CompanionBackend.TaskSystems

/-!
# Delayed messages and comment replies

Rows of `agent_aware_queue` and comments without a reply wait until they are due. A poll takes
them one by one: the row is claimed in a transaction of its own, a text is generated
and checked, and the message or reply is written together with the final status. Only a part
of these steps is inside a try block. Prompts, logs and attempts' timings are left out.
-/
namespace CompanionBackend.DelayedJobs

open TaskSystems ProviderEvents
open AgentMessages (TriggerType)
open CapabilityRules (nonBlank)
open CapabilityEvidence (strip)
open GrowthCounters (Instant)

/-- `status` of a queue row, `gen_status` of a comment. -/
inductive Status
  | pending | generating | sent | ready | failed
  deriving DecidableEq, Repr

/-- A row of `agent_aware_queue`; its id is its position. -/
structure AwareRow where
  userId : ℕ
  postId : ℕ
  triggerType : TriggerType
  dueAt : Instant
  createdAt : Instant
  /-- `extra_context["is_special"]`. -/
  isSpecial : Bool
  status : Status
  agentMessageId : Option ℕ
  failReason : Option Text
  deriving DecidableEq

/-- A row of `feed_comment`; its id is its position. -/
structure FeedComment where
  dueAt : Option Instant
  genStatus : Status
  lxmReply : Option Text
  lxmReplyAt : Option Instant
  deriving DecidableEq

/-- A row of `agent_message`. -/
structure AgentMessage where
  id : ℕ
  userId : ℕ
  triggerType : TriggerType
  content : Text
  sortSeq : ℕ
  createdAt : Instant
  /-- The queue row it was written for, which keeps the only link in the code. -/
  queueId : ℕ
  deriving DecidableEq

structure AwareData where
  queue : List AwareRow
  messages : List AgentMessage
  nextMessageId : ℕ
  /-- `user_timeline_seq`, and the rows of it that a transaction has locked. -/
  nextSeq : ℕ → ℕ
  seqLocked : ℕ → Bool

structure ReplyData where
  comments : List FeedComment
  /-- The comments of the replies that were committed. The code keeps no such record. -/
  replied : List ℕ

/-- What a step of a worker meets. -/
inductive Answer
  | done
  /-- The post of the row is there or not. -/
  | post (found : Bool)
  /-- What the model returns. -/
  | reply (raw : Option Text)
  /-- The text hits a banned keyword. -/
  | verdict (hit : Bool)
  deriving DecidableEq

/-- `raw.strip()`, when there is something left. -/
def replyText (raw : Option Text) : Option Text :=
  raw.bind fun t => if nonBlank t then some (strip t) else none

/-! ### Aware messages -/

/-- `consume_pending` and `consume_record` between two of their awaits. -/
inductive AwareStage
  | polling
  | claiming (id : ℕ)
  | loading (id : ℕ)
  /-- `generate_aware_text`, before the post is loaded. -/
  | contextual (id : ℕ) (row : AwareRow)
  | rendering (id : ℕ) (row : AwareRow)
  | calling (id : ℕ) (row : AwareRow) (attempt : ℕ)
  | checking (id : ℕ) (row : AwareRow) (text : Text)
  /-- `_mark_failed`, called inside the try block or not. -/
  | marking (id : ℕ) (reason : Text) (inTry : Bool)
  | allocating (id : ℕ) (row : AwareRow) (text : Text)
  | inserting (m : AgentMessage)
  | sending (m : AgentMessage)
  | committing (m : AgentMessage)
  deriving DecidableEq

namespace AwareStage

/-- The row that the worker has claimed. -/
def claimed : AwareStage → Option ℕ
  | .polling | .claiming _ => none
  | .loading id | .contextual id _ | .rendering id _ | .calling id _ _ | .checking id _ _
  | .marking id _ _ | .allocating id _ _ => some id
  | .inserting m | .sending m | .committing m => some m.queueId

/-- The user whose row of `user_timeline_seq` the transaction has locked. -/
def locks : AwareStage → Option ℕ
  | .inserting m | .sending m | .committing m => some m.userId
  | _ => none

end AwareStage

/-- `_AWARE_MAX_ATTEMPTS`. -/
def awareMaxAttempts : ℕ := 2

def genFailedOrUnsafe : Text := "gen_failed_or_unsafe".toList

/-- `f"gen_error:{e}"[:255]`. -/
def genError (e : Text) : Text := ("gen_error:".toList ++ e).take 255

/-- After an attempt without a text. -/
def nextAttempt (id : ℕ) (row : AwareRow) (attempt : ℕ) : AwareStage :=
  if attempt < awareMaxAttempts then .calling id row (attempt + 1)
  else .marking id genFailedOrUnsafe false

/-- Where the exception `e` at a stage leads, when it does not leave `consume_record`. -/
def AwareStage.caught (e : Text) : AwareStage → Option AwareStage
  | .contextual id _ => some (.marking id (genError e) false)
  | .rendering id _ => some (.marking id genFailedOrUnsafe false)
  | .calling id row attempt => some (nextAttempt id row attempt)
  -- `check_content` lets a text pass when its own reads fail
  | .checking id row text => some (.allocating id row text)
  | .marking id _ true => some (.marking id (genError e) false)
  | _ => none

/-- By `trigger_type`. -/
def dispatch (id : ℕ) (row : AwareRow) : AwareStage :=
  match row.triggerType with
  | .likeAware | .readAware => .contextual id row
  | _ => .marking id "unknown_trigger_type".toList true

namespace AwareData

def update (d : AwareData) (id : ℕ) (f : AwareRow → AwareRow) : AwareData :=
  { d with queue := d.queue.modify id f }

/-- `enqueue`: the row is created when it is flushed. -/
def enqueue (d : AwareData) (userId postId : ℕ) (kind : TriggerType) (dueAt now : Instant)
    (special : Bool) : AwareData :=
  { d with queue := d.queue ++ [⟨userId, postId, kind, dueAt, now, special, .pending, none, none⟩] }

/-- The pending rows that are due, the earliest first, at most `_BATCH_LIMIT`. -/
def due (d : AwareData) (now : Instant) : List ℕ :=
  let ready := d.queue.zipIdx.filter fun r => r.1.status = .pending ∧ r.1.dueAt ≤ now
  ((ready.insertionSort fun r s => r.1.dueAt ≤ s.1.dueAt).take 20).map Prod.snd

/-- `_mark_failed`. -/
def fail (d : AwareData) (id : ℕ) (reason : Text) : AwareData :=
  d.update id fun r => { r with status := .failed, failReason := some (reason.take 255) }

/-- The commit of a message with the final status of its row. -/
def send (d : AwareData) (m : AgentMessage) : AwareData :=
  { d.update m.queueId fun r => { r with status := .sent, agentMessageId := some m.id } with
    messages := d.messages ++ [m]
    nextSeq := Function.update d.nextSeq m.userId (m.sortSeq + 1)
    seqLocked := Function.update d.seqLocked m.userId false }

/-- What the worker does up to its next await; `none` where it returns. -/
def advance (d : AwareData) (now : Instant) :
    AwareStage → Answer → Option (AwareData × Option AwareStage)
  | .claiming id, .done =>
    match d.queue[id]? with
    | some row =>
      if row.status = .pending then
        some (d.update id fun r => { r with status := .generating }, some (.loading id))
      else some (d, none)
    | none => some (d, none)
  | .loading id, .done => some (d, (d.queue[id]?).map (dispatch id))
  | .contextual id row, .post found =>
    some (d, some (if found then .rendering id row else .marking id genFailedOrUnsafe false))
  | .rendering id row, .done => some (d, some (.calling id row 1))
  | .calling id row attempt, .reply raw =>
    match replyText raw with
    | some text => some (d, some (.checking id row text))
    | none => some (d, some (nextAttempt id row attempt))
  | .checking id row text, .verdict hit =>
    some (d, some (if hit then .marking id genFailedOrUnsafe false else .allocating id row text))
  | .marking id reason _, .done =>
    some (d.fail id reason, none)
  | .allocating id row text, .done =>
    if d.seqLocked row.userId then none
    else some ({ d with seqLocked := Function.update d.seqLocked row.userId true },
      some (.inserting ⟨0, row.userId, row.triggerType, text, d.nextSeq row.userId, now, id⟩))
  | .inserting m, .done =>
    some ({ d with nextMessageId := d.nextMessageId + 1 },
      some (.sending { m with id := d.nextMessageId }))
  | .sending m, .done => some (d, some (.committing m))
  | .committing m, .done => some (d.send m, none)
  | _, _ => none

/-- The transaction of the worker is rolled back. -/
def release (d : AwareData) (s : AwareStage) : AwareData :=
  match s.locks with
  | some user => { d with seqLocked := Function.update d.seqLocked user false }
  | none => d

/-- The commit went through, but the worker gets an exception for it. -/
def lost (d : AwareData) (now : Instant) (e : Text) (s : AwareStage) :
    Option (AwareData × Option AwareStage) :=
  match s with
  | .claiming _ | .marking _ _ _ | .committing _ =>
    (d.advance now s .done).map fun r => (r.1, s.caught e)
  | _ => none

end AwareData

/-! ### Comment replies -/

/-- `poll_and_consume` and `consume_one` between two of their awaits. -/
inductive ReplyStage
  | polling
  | claiming (id : ℕ)
  | loading (id : ℕ)
  | rendering (id : ℕ)
  | calling (id : ℕ) (attempt : ℕ)
  | checking (id : ℕ) (reply : Text)
  | marking (id : ℕ)
  | storing (id : ℕ) (reply : Text)
  deriving DecidableEq

namespace ReplyStage

/-- The comment that the worker has claimed. -/
def claimed : ReplyStage → Option ℕ
  | .polling | .claiming _ => none
  | .loading id | .rendering id | .calling id _ | .checking id _ | .marking id | .storing id _ =>
    some id

end ReplyStage

/-- `_LLM05_MAX_ATTEMPTS`. -/
def replyMaxAttempts : ℕ := 3

def nextReplyAttempt (id attempt : ℕ) : ReplyStage :=
  if attempt < replyMaxAttempts then .calling id (attempt + 1) else .marking id

/-- Where an exception at a stage leads, when it does not leave `consume_one`. -/
def ReplyStage.caught : ReplyStage → Option ReplyStage
  | .rendering id => some (.marking id)
  | .calling id attempt => some (nextReplyAttempt id attempt)
  | .checking id reply => some (.storing id reply)
  | _ => none

namespace ReplyData

def update (d : ReplyData) (id : ℕ) (f : FeedComment → FeedComment) : ReplyData :=
  { d with comments := d.comments.modify id f }

/-- A new comment waits for its reply. -/
def comment (d : ReplyData) (dueAt : Option Instant) : ReplyData :=
  { d with comments := d.comments ++ [⟨dueAt, .pending, none, none⟩] }

/-- The pending comments that are due, the earliest first, at most `_BATCH_LIMIT`. -/
def due (d : ReplyData) (now : Instant) : List ℕ :=
  let ready := d.comments.zipIdx.filterMap fun r =>
    if r.1.genStatus = .pending then (r.1.dueAt.filter fun t => t ≤ now).map fun t => (t, r.2)
    else none
  ((ready.insertionSort fun r s => r.1 ≤ s.1).take 50).map Prod.snd

/-- The commit of a reply with the final status of its comment. -/
def store (d : ReplyData) (now : Instant) (id : ℕ) (reply : Text) : ReplyData :=
  { d.update id fun c =>
      { c with lxmReply := some reply, lxmReplyAt := some now, genStatus := .ready } with
    replied := d.replied ++ [id] }

/-- What the worker does up to its next await; `none` where it returns. -/
def advance (d : ReplyData) (now : Instant) :
    ReplyStage → Answer → Option (ReplyData × Option ReplyStage)
  | .claiming id, .done =>
    match d.comments[id]? with
    | some c =>
      if c.genStatus = .pending then
        some (d.update id fun r => { r with genStatus := .generating }, some (.loading id))
      else some (d, none)
    | none => some (d, none)
  | .loading id, .done => some (d, (d.comments[id]?).map fun _ => .rendering id)
  | .rendering id, .done => some (d, some (.calling id 1))
  | .calling id attempt, .reply raw =>
    match replyText raw with
    | some reply => some (d, some (.checking id reply))
    | none => some (d, some (nextReplyAttempt id attempt))
  | .checking id reply, .verdict hit =>
    some (d, some (if hit then .marking id else .storing id reply))
  | .marking id, .done => some (d.update id fun c => { c with genStatus := .failed }, none)
  | .storing id reply, .done => some (d.store now id reply, none)
  | _, _ => none

/-- The commit went through, but the worker gets an exception for it. -/
def lost (d : ReplyData) (now : Instant) (s : ReplyStage) :
    Option (ReplyData × Option ReplyStage) :=
  match s with
  | .claiming _ | .marking _ | .storing _ _ => (d.advance now s .done).map fun r => (r.1, s.caught)
  | _ => none

end ReplyData

/-! ### Workers -/

structure JobData where
  aware : AwareData
  reply : ReplyData

/-- A worker with the rest of its batch, or a writer of a new row. -/
inductive JobTask
  | aware (stage : AwareStage) (rest : List ℕ)
  | reply (stage : ReplyStage) (rest : List ℕ)
  | enqueuing (userId postId : ℕ) (kind : TriggerType) (dueAt : Instant) (special : Bool)
  | commenting (dueAt : Option Instant)
  deriving DecidableEq

inductive JobInput
  | consumePending
  | consumeRecord (id : ℕ)
  | pollAndConsume
  | consumeOne (id : ℕ)
  | enqueue (userId postId : ℕ) (kind : TriggerType) (dueAt : Instant) (special : Bool)
  | comment (dueAt : Option Instant)
  | proceed (now : Instant) (a : Answer)
  /-- The step raises, and its transaction is rolled back. -/
  | raised (e : Text)
  /-- The step raises after its transaction was committed. -/
  | lost (now : Instant) (e : Text)

/-- The poll logs what a record raises and goes on with the next one. -/
def awareTasks : Option AwareStage → List ℕ → List JobTask
  | some s, rest => [.aware s rest]
  | none, id :: rest => [.aware (.claiming id) rest]
  | none, [] => []

def replyTasks : Option ReplyStage → List ℕ → List JobTask
  | some s, rest => [.reply s rest]
  | none, id :: rest => [.reply (.claiming id) rest]
  | none, [] => []

namespace JobData

/-- One step of a worker of the queue. -/
def advanceAware (d : JobData) (s : AwareStage) (rest : List ℕ) :
    JobInput → Option (JobData × List JobTask)
  | .proceed now a =>
    if s = .polling then
      if a = .done then some (d, awareTasks none (d.aware.due now)) else none
    else (d.aware.advance now s a).map fun r => ({ d with aware := r.1 }, awareTasks r.2 rest)
  | .raised e => some ({ d with aware := d.aware.release s }, awareTasks (s.caught e) rest)
  | .lost now e =>
    (d.aware.lost now e s).map fun r => ({ d with aware := r.1 }, awareTasks r.2 rest)
  | _ => none

/-- One step of a worker of the comments. -/
def advanceReply (d : JobData) (s : ReplyStage) (rest : List ℕ) :
    JobInput → Option (JobData × List JobTask)
  | .proceed now a =>
    if s = .polling then
      if a = .done then some (d, replyTasks none (d.reply.due now)) else none
    else (d.reply.advance now s a).map fun r => ({ d with reply := r.1 }, replyTasks r.2 rest)
  | .raised _ => some (d, replyTasks s.caught rest)
  | .lost now _ =>
    (d.reply.lost now s).map fun r => ({ d with reply := r.1 }, replyTasks r.2 rest)
  | _ => none

end JobData

/-- Workers and writers of both tables. -/
def jobSystem : TaskSystem JobData JobTask JobInput where
  initial d := d.aware.queue = [] ∧ d.aware.messages = [] ∧ d.reply.comments = [] ∧
    d.reply.replied = []
  accept _ i :=
    match i with
    | .consumePending => some [.aware .polling []]
    | .consumeRecord id => some [.aware (.claiming id) []]
    | .pollAndConsume => some [.reply .polling []]
    | .consumeOne id => some [.reply (.claiming id) []]
    | .enqueue userId postId kind dueAt special =>
      some [.enqueuing userId postId kind dueAt special]
    | .comment dueAt => some [.commenting dueAt]
    | _ => none
  advance d t i :=
    match t with
    | .aware s rest => d.advanceAware s rest i
    | .reply s rest => d.advanceReply s rest i
    | .enqueuing userId postId kind dueAt special =>
      match i with
      | .proceed now .done =>
        some ({ d with aware := d.aware.enqueue userId postId kind dueAt now special }, [])
      | .raised _ => some (d, [])
      | _ => none
    | .commenting dueAt =>
      match i with
      | .proceed _ .done => some ({ d with reply := d.reply.comment dueAt }, [])
      | .raised _ => some (d, [])
      | _ => none

end CompanionBackend.DelayedJobs
