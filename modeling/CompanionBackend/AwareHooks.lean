import CompanionBackend.DelayedDelivery

/-!
# Hooks that enqueue aware messages

A like or a read may enqueue an aware message. Each hook looks for earlier rows by queries, takes
one of the few special places of the user by a guarded increment, and inserts its row in another
transaction; no key of the table keeps two rows apart. Levels, prompts, and the texts
of the queue are left out.
-/
namespace CompanionBackend.AwareHooks

open TaskSystems ProviderEvents DelayedJobs
open AgentMessages (TriggerType)
open GrowthCounters (Instant)

/-- `on_like_hook` or `on_feed_read`. -/
inductive HookKind
  | like | read
  deriving DecidableEq, Repr

def HookKind.trigger : HookKind → TriggerType
  | .like => .likeAware
  | .read => .readAware

/-- The values of the feed configuration, in microseconds and counts. -/
structure AwareConfig where
  specialWindow : HookKind → ℤ
  specialMax : HookKind → ℤ
  specialDelay : HookKind → ℤ
  readSuppressAfterLike : ℤ
  readUserCooldown : ℤ

/-- What the queries of a call saw. The code keeps no such record. -/
structure Check where
  /-- How many rows there were at the query for the same post. -/
  dedupSeen : ℕ
  /-- How many there were at the query for like messages, and which of them were generating. -/
  suppressSeen : ℕ
  generatingSeen : List ℕ
  /-- How many there were at the query for the cooldown. -/
  cooldownSeen : ℕ
  deriving DecidableEq

structure HookData where
  now : Instant
  aware : AwareData
  /-- `like_aware_special_used_count` and `read_aware_special_used_count`. -/
  used : HookKind → ℕ → ℤ
  /-- The check of the call that enqueued each row. -/
  checks : List Check

/-- A call that has passed its first query. -/
structure Call where
  kind : HookKind
  userId : ℕ
  postId : ℕ
  check : Check
  deriving DecidableEq

/-- `_process` of either hook between two of its awaits, or a worker of the queue. -/
inductive HookTask
  | anchoring (userId : ℕ) (posts : List ℕ)
  | deduplicating (kind : HookKind) (userId postId : ℕ)
  | suppressing (c : Call)
  | cooling (c : Call)
  | loading (c : Call)
  /-- The user has been loaded: when it was created, and `used_count` if it has a relationship. -/
  | deciding (c : Call) (createdAt : Option Instant) (usedCount : Option ℤ)
  | reserving (c : Call)
  /-- The row is to be inserted; a special one has its place. -/
  | enqueuing (c : Call) (special : Bool) (dueAt : Instant)
  | compensating (c : Call)
  | rolling (c : Call)
  | delaying (c : Call)
  | worker (stage : AwareStage) (rest : List ℕ)
  deriving DecidableEq

inductive HookAnswer
  | done
  /-- The newest of the posts, if one exists. -/
  | anchor (post : Option ℕ)
  /-- The user, and whether it has a relationship. -/
  | user (createdAt : Option Instant) (related : Bool)
  | missing
  /-- `random.random()` below 0.3. -/
  | roll (hit : Bool)
  /-- The bounds of the delay, and what `random.randint` chose. -/
  | delay (lower upper chosen : ℤ)
  | job (a : Answer)
  deriving DecidableEq

inductive HookInput
  | onLikeHook (userId postId : ℕ)
  | onFeedRead (userId : ℕ) (posts : List ℕ)
  | consumePending
  | consumeRecord (id : ℕ)
  | proceed (now : Instant) (a : HookAnswer)
  /-- The step raises, and its transaction is rolled back. -/
  | raised (e : Text)
  /-- The step raises after its transaction was committed. -/
  | lost (now : Instant) (e : Text)

/-- One of `["pending", "generating", "sent"]`. -/
def active : Status → Bool
  | .pending | .generating | .sent => true
  | _ => false

/-- A row of the user and of this kind. -/
def isOf (userId : ℕ) (kind : HookKind) (r : AwareRow) : Bool :=
  r.userId = userId ∧ r.triggerType = kind.trigger

namespace HookData

/-- The query for a row about the same post. -/
def alreadyQueued (d : HookData) (userId : ℕ) (kind : HookKind) (postId : ℕ) : Bool :=
  d.aware.queue.any fun r => isOf userId kind r && r.postId = postId && active r.status

/-- The query for like messages since a time, which asks for `["pending", "sent"]`. -/
def likeRecent (d : HookData) (userId : ℕ) (since : Instant) : Bool :=
  d.aware.queue.any fun r =>
    isOf userId .like r && (r.status = .pending || r.status = .sent) && decide (since ≤ r.createdAt)

/-- The query for read messages since a time. -/
def recentRead (d : HookData) (userId : ℕ) (since : Instant) : Bool :=
  d.aware.queue.any fun r => isOf userId .read r && active r.status && decide (since ≤ r.createdAt)

/-- The rows that are being generated. -/
def generating (d : HookData) : List ℕ :=
  (d.aware.queue.zipIdx.filter fun r => r.1.status = .generating).map Prod.snd

/-- The rows that a call now sees. -/
def rows (d : HookData) : ℕ := d.aware.queue.length

/-- The guarded increment. -/
def reserve (d : HookData) (kind : HookKind) (userId : ℕ) : HookData :=
  { d with
    used := Function.update d.used kind
      (Function.update (d.used kind) userId (d.used kind userId + 1)) }

/-- The decrement that gives the place back. -/
def compensate (d : HookData) (kind : HookKind) (userId : ℕ) : HookData :=
  if 0 < d.used kind userId then
    { d with
      used := Function.update d.used kind
        (Function.update (d.used kind) userId (d.used kind userId - 1)) }
  else d

/-- `enqueue`. -/
def enqueue (d : HookData) (c : Call) (special : Bool) (dueAt : Instant) : HookData :=
  { d with
    aware := d.aware.enqueue c.userId c.postId c.kind.trigger dueAt d.now special
    checks := d.checks ++ [c.check] }

/-- Within the window after registration, with a place that is free. -/
def mayReserve (cfg : AwareConfig) (c : Call) (now : Instant) (createdAt : Option Instant)
    (usedCount : Option ℤ) : Bool :=
  createdAt.any (fun t => decide (now - t ≤ cfg.specialWindow c.kind)) &&
    usedCount.any fun n => decide (n < cfg.specialMax c.kind)

/-- What a call does up to its next await. -/
def proceed (cfg : AwareConfig) (d : HookData) :
    HookTask → HookAnswer → Option (HookData × List HookTask)
  | .anchoring userId posts, .anchor post =>
    match post with
    | some p => if p ∈ posts then some (d, [.deduplicating .read userId p]) else none
    | none => some (d, [])
  | .deduplicating kind userId postId, .done =>
    if d.alreadyQueued userId kind postId then some (d, [])
    else
      let c : Call := ⟨kind, userId, postId, ⟨d.rows, 0, [], 0⟩⟩
      some (d, [match kind with | .like => .loading c | .read => .suppressing c])
  | .suppressing c, .done =>
    if d.likeRecent c.userId (d.now - cfg.readSuppressAfterLike) then some (d, [])
    else
      some (d, [.cooling
        { c with check := { c.check with suppressSeen := d.rows, generatingSeen := d.generating } }])
  | .cooling c, .done =>
    if 0 < cfg.readUserCooldown ∧ d.recentRead c.userId (d.now - cfg.readUserCooldown) then
      some (d, [])
    else some (d, [.loading { c with check := { c.check with cooldownSeen := d.rows } }])
  | .loading c, .user createdAt related =>
    some (d, [.deciding c createdAt (if related then some (d.used c.kind c.userId) else none)])
  | .loading _, .missing => some (d, [])
  | .deciding c createdAt usedCount, .done =>
    if mayReserve cfg c d.now createdAt usedCount then some (d, [.reserving c])
    else some (d, [match c.kind with | .like => .rolling c | .read => .delaying c])
  | .reserving c, .done =>
    if d.used c.kind c.userId < cfg.specialMax c.kind then
      some (d.reserve c.kind c.userId, [.enqueuing c true (d.now + cfg.specialDelay c.kind)])
    else some (d, [match c.kind with | .like => .rolling c | .read => .delaying c])
  | .enqueuing c special dueAt, .done => some (d.enqueue c special dueAt, [])
  | .compensating c, .done => some (d.compensate c.kind c.userId, [])
  | .rolling c, .roll hit => some (d, if hit then [.delaying c] else [])
  | .delaying c, .delay lower upper chosen =>
    if lower ≤ chosen ∧ chosen ≤ max lower upper then
      some (d, [.enqueuing c false (d.now + chosen)])
    else none
  | _, _ => none

end HookData

namespace HookData

/-- An exception leaves the hook, which logs it, except where the place has to be given back. -/
def caught : HookTask → List HookTask
  | .enqueuing c true _ => [.compensating c]
  | _ => []

end HookData

/-- The clock does not go back. -/
def HookInput.timely (d : HookData) : HookInput → Bool
  | .proceed now _ | .lost now _ => d.now ≤ now
  | _ => true

end CompanionBackend.AwareHooks
