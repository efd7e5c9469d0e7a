import Mathlib.Data.List.Sort
import CompanionBackend.GrowthCounters

/-!
# Proactive messages of one user

`check_and_trigger` matches a trigger, looks at the daily counter, the newest message and the
blacklist, lets the model write a message and saves it; nothing is looked at again. Plans of the
future slot, follow-ups of calls and the aware messages go into the same table, the
first two into the same counter. Texts of messages and the count of proactive times are left out.
-/
namespace CompanionBackend.AgentMessages

open TaskSystems
open GrowthCounters (Instant Counter)

/-- `TriggerType`, and the kind that follow-ups of calls are stored under. -/
inductive TriggerType
  | p0 | p1 | p2 | p3 | p4
  | future | likeAware | readAware | voiceFollowup
  deriving DecidableEq, Repr

namespace TriggerType

/-- The triggers that `check_and_trigger` matches. -/
def scanned : TriggerType → Bool
  | .p0 | .p1 | .p2 | .p3 | .p4 => true
  | _ => false

/-- Messages of this kind go into the daily counter. -/
def counted : TriggerType → Bool
  | .likeAware | .readAware => false
  | _ => true

/-- `TRIGGER_WEIGHTS`. -/
def weight : TriggerType → ℕ
  | .p0 => 4
  | .p1 | .p3 | .future => 3
  | _ => 2

end TriggerType

def second : ℤ := 1000000

def minute : ℤ := 60 * second

def hour : ℤ := 60 * minute

def day : ℤ := 24 * hour

/-- `strftime("%Y-%m-%d")` of a time in UTC. -/
def dayOf (t : Instant) : ℤ := t / day

/-! ### Triggers -/

/-- What the queries of the five checks find. -/
structure TriggerFacts where
  /-- The label of the newest emotion and its time. -/
  latestEmotion : Option (String × Instant)
  conversationsOfLastDay : ℕ
  connectedInLastDay : Bool
  /-- The level of the relationship and its last interaction. -/
  relationship : Option (ℤ × Option Instant)
  conversations : ℕ
  userCreatedAt : Option Instant
  habitDays : ℕ
  habitLoginsToday : ℕ
  /-- The time of the user's newest message, and whether it has a night keyword. -/
  latestUserMessage : Option (Instant × Bool)
  deriving Repr

/-- `NEGATIVE_EMOTIONS`. -/
def negativeEmotions : List String := ["悲伤", "焦虑", "愤怒", "孤独"]

def checkP0 (f : TriggerFacts) (now : Instant) : Bool :=
  match f.latestEmotion with
  | none => false
  | some (label, createdAt) =>
    label ∈ negativeEmotions ∧ 24 * hour ≤ now - createdAt ∧ f.conversationsOfLastDay = 0 ∧
      !f.connectedInLastDay

def checkP1 (f : TriggerFacts) (now : Instant) : Bool :=
  match f.relationship with
  | some (_, some last) => 3 * day ≤ now - last ∧ 10 ≤ f.conversations
  | _ => false

def checkP2 (f : TriggerFacts) (now : Instant) : Bool :=
  match f.userCreatedAt with
  | none => false
  | some createdAt => 14 * day ≤ now - createdAt ∧ 8 ≤ f.habitDays ∧ f.habitLoginsToday = 0

def checkP3 (f : TriggerFacts) : Bool :=
  match f.latestUserMessage with
  | none => false
  | some (createdAt, nightly) => createdAt % day / hour < 6 ∧ nightly

def checkP4 (f : TriggerFacts) (now : Instant) : Bool :=
  match f.relationship with
  | some (level, some last) => 24 * hour ≤ now - last ∧ 2 ≤ level
  | _ => false

/-- The first trigger that matches, from P0 to P4. -/
def matchTrigger (f : TriggerFacts) (now : Instant) : Option TriggerType :=
  if checkP0 f now then some .p0
  else if checkP1 f now then some .p1
  else if checkP2 f now then some .p2
  else if checkP3 f then some .p3
  else if checkP4 f now then some .p4
  else none

theorem matchTrigger_scanned {f : TriggerFacts} {now : Instant} {t : TriggerType}
    (h : matchTrigger f now = some t) : t.scanned = true := by
  unfold matchTrigger at h
  split_ifs at h <;> cases h <;> rfl

/-! ### The action score -/

/-- `LEVEL_WEIGHTS.get(level, 1)`. -/
def levelWeight (level : ℤ) : ℕ :=
  if level = 1 then 2 else if level = 2 then 3 else if level = 3 then 4 else 1

def activeWeight (activeDays : ℕ) : ℕ :=
  if 4 ≤ activeDays then 2 else if 2 ≤ activeDays then 1 else 0

/-- Without messages the reply rate counts as one half. -/
def replyWeight (total read : ℕ) : ℕ :=
  if total = 0 then 1
  else if 3 * total ≤ 5 * read then 2
  else if 3 * total ≤ 10 * read then 1
  else 0

/-- `calculate_action_score`. -/
def calculateActionScore (t : TriggerType) (level : ℤ) (activeDays total read : ℕ) : ℕ :=
  levelWeight level + t.weight + activeWeight activeDays + replyWeight total read

/-! ### Messages and counters -/

/-- A row of `agent_message`. -/
structure AgentMessage where
  triggerType : TriggerType
  actionScore : ℕ
  sortSeq : ℕ
  createdAt : Instant
  deriving DecidableEq, Repr

/-- What a call went by. -/
structure Decision where
  trigger : TriggerType
  /-- The user was blacklisted when the trigger was matched or when the list was looked up. The code
  keeps no such record. -/
  blacklisted : Bool
  /-- The clock reading of the frequency checks. -/
  now : Instant
  /-- How many messages there were when the counter was read. The code keeps no such record. -/
  seen : ℕ
  deriving DecidableEq, Repr

structure AgentData where
  now : Instant
  messages : List AgentMessage
  /-- The sequence numbers of the messages that have been read. -/
  readSeqs : List ℕ
  nextSeq : ℕ
  /-- The row of sequence numbers is locked by a transaction. -/
  seqLocked : Bool
  /-- `agent:count:{user_id}:{day}`. -/
  counters : ℤ → Option Counter
  /-- When `agent:blacklist:{user_id}` expires. -/
  blacklistUntil : Option Instant
  /-- The decisions that led to a message. -/
  decisions : List Decision

namespace AgentData

def blacklisted (d : AgentData) : Bool := d.blacklistUntil.any fun t => decide (d.now < t)

/-- The counter of the day, unless it has expired. -/
def counter (d : AgentData) (k : ℤ) : Option Counter :=
  (d.counters k).filter fun c => decide (c.live d.now)

/-- `int(daily_count)`, where an absent counter lets every call pass. -/
def dailyCount (d : AgentData) (k : ℤ) : ℤ := ((d.counter k).map Counter.value).getD 0

def putCounter (d : AgentData) (k : ℤ) (c : Counter) : AgentData :=
  { d with counters := Function.update d.counters k (some c) }

/-- `INCR`: a counter that is gone begins again, without a lifetime. -/
def incr (d : AgentData) (k : ℤ) : AgentData :=
  match d.counter k with
  | some c => d.putCounter k { c with value := c.value + 1 }
  | none => d.putCounter k ⟨1, none⟩

/-- `EXPIRE`. -/
def expire (d : AgentData) (k : ℤ) (seconds : ℤ) : AgentData :=
  match d.counter k with
  | some c => d.putCounter k { c with expiresAt := some (d.now + seconds * second) }
  | none => d

/-- Messages by `created_at`, the newest first. -/
def newest (d : AgentData) : List AgentMessage :=
  d.messages.insertionSort fun a b => b.createdAt ≤ a.createdAt

def isRead (d : AgentData) (m : AgentMessage) : Bool := m.sortSeq ∈ d.readSeqs

def actionScore (d : AgentData) (t : TriggerType) (level : ℤ) (activeDays : ℕ) : ℕ :=
  calculateActionScore t level activeDays d.messages.length (d.messages.filter d.isRead).length

end AgentData

/-- `int((end_of_day - now).total_seconds())`, at least a minute. -/
def ttlSeconds (now : Instant) : ℤ := max (86399 - now % day / second) 60

/-- The lifetime that the follow-up counter computes for the day of its message. -/
def followupTtl (occurredAt now : Instant) : ℤ :=
  max (Int.tdiv (dayOf occurredAt * day + 86399 * second - now) second) 60

/-! ### Calls -/

/-- Who writes a message. -/
inductive Writer
  | check (c : Decision) (score : ℕ)
  | other (kind : TriggerType) (score : ℕ)
  deriving DecidableEq, Repr

namespace Writer

def trigger : Writer → TriggerType
  | .check c _ => c.trigger
  | .other kind _ => kind

def score : Writer → ℕ
  | .check _ score | .other _ score => score

def decision : Writer → Option Decision
  | .check c _ => some c
  | .other _ _ => none

end Writer

/-- A call or another writer between two of its awaits. -/
inductive AgentTask
  | called
  | matched (trigger : TriggerType) (blacklisted : Bool)
  /-- No plan is pending; the clock has been read. -/
  | clocked (trigger : TriggerType) (blacklisted : Bool) (now : Instant)
  | counted (c : Decision)
  | spaced (c : Decision)
  | listed (c : Decision)
  | generating (c : Decision)
  | saving (w : Writer)
  | allocated (w : Writer) (seq : ℕ)
  | inserted (w : Writer) (m : AgentMessage)
  | stored (m : AgentMessage)
  | tallying (trigger : TriggerType) (k : ℤ)
  | tallied (trigger : TriggerType) (k : ℤ)
  | expiring (trigger : TriggerType) (k : ℤ) (ttl : ℤ)
  | reviewing
  | blacklisting
  deriving DecidableEq, Repr

/-- The transaction of this task has the row of sequence numbers. -/
def AgentTask.holdsSeq : AgentTask → Bool
  | .allocated _ _ | .inserted _ _ => true
  | _ => false

/-- What a query or a service answers. -/
inductive Answer
  | done
  | facts (f : TriggerFacts)
  | pending (slot : Bool)
  /-- Level of the relationship and active days, for the action score. -/
  | profile (level : ℤ) (activeDays : ℕ)
  deriving Repr

inductive AgentInput
  | check
  /-- A writer that does not look at the caps. -/
  | write (kind : TriggerType) (score : ℕ)
  | proceed (now : Instant) (a : Answer)
  /-- The user reads the message of this number while the task goes on. -/
  | read (seq : ℕ)
  /-- The call raises or is cancelled; its transaction is rolled back. -/
  | abort

/-- `daily_count >= 8`. -/
def dailyMaximum : ℤ := 8

def minInterval : ℤ := 30 * minute

namespace AgentData

/-- The commit of a message. -/
def store (d : AgentData) (w : Writer) (m : AgentMessage) : AgentData :=
  { d with
    messages := d.messages ++ [m]
    nextSeq := m.sortSeq + 1
    seqLocked := false
    decisions := d.decisions ++ w.decision.toList }

/-- What the task does up to its next await. -/
def proceed (d : AgentData) : AgentTask → Answer → Option (AgentData × List AgentTask)
  | .called, .facts f =>
    match matchTrigger f d.now with
    | some t => some (d, [.matched t d.blacklisted])
    | none => some (d, [])
  | .matched t listed, .pending slot => some (d, if slot then [] else [.clocked t listed d.now])
  | .clocked t listed now, .done =>
    if dailyMaximum ≤ d.dailyCount (dayOf now) then some (d, [])
    else some (d, [.counted ⟨t, listed, now, d.messages.length⟩])
  | .counted c, .done =>
    match d.newest.head? with
    | some latest =>
      some (d, if c.now - latest.createdAt < minInterval then [] else [.spaced c])
    | none => some (d, [.spaced c])
  | .spaced c, .done =>
    some (d, if c.trigger ≠ .p0 ∧ d.blacklisted then []
      else [.listed { c with blacklisted := c.blacklisted || d.blacklisted }])
  | .listed c, .profile level activeDays =>
    some (d, if d.actionScore c.trigger level activeDays < 6 then [] else [.generating c])
  | .generating c, .profile level activeDays =>
    some (d, [.saving (.check c (d.actionScore c.trigger level activeDays))])
  | .saving w, .done =>
    if d.seqLocked then none else some ({ d with seqLocked := true }, [.allocated w d.nextSeq])
  | .allocated w seq, .done => some (d, [.inserted w ⟨w.trigger, w.score, seq, d.now⟩])
  | .inserted w m, .done => some (d.store w m, [.stored m])
  | .stored m, .done =>
    match m.triggerType with
    | .likeAware | .readAware => some (d, [])
    | .voiceFollowup =>
      let k := dayOf m.createdAt
      some ((d.incr k).expire k (followupTtl m.createdAt d.now), [])
    | t => some (d, [.tallying t (dayOf d.now)])
  | .tallying t k, .done => some (d.incr k, [.tallied t k])
  | .tallied t k, .done => some (d, [.expiring t k (ttlSeconds d.now)])
  | .expiring t k ttl, .done => some (d.expire k ttl, if t.scanned then [.reviewing] else [])
  | .reviewing, .done =>
    match d.newest with
    | m₁ :: m₂ :: _ => some (d, if d.isRead m₁ || d.isRead m₂ then [] else [.blacklisting])
    | _ => some (d, [])
  | .blacklisting, .done => some ({ d with blacklistUntil := some (d.now + 15 * day) }, [])
  | _, _ => none

/-- The task is over, and its transaction with it. -/
def release (d : AgentData) (t : AgentTask) : AgentData :=
  if t.holdsSeq then { d with seqLocked := false } else d

end AgentData

/-- Everything that writes agent messages of one user, under a clock that never goes back. -/
def agentSystem : TaskSystem AgentData AgentTask AgentInput where
  initial d := d.messages = [] ∧ d.seqLocked = false ∧ d.decisions = []
  accept _ i :=
    match i with
    | .check => some [.called]
    | .write kind score => if kind.scanned then none else some [.saving (.other kind score)]
    | _ => none
  advance d t i :=
    match i with
    | .check | .write _ _ => none
    | .abort => some (d.release t, [])
    | .read seq =>
      if d.messages.any (·.sortSeq = seq) then some ({ d with readSeqs := seq :: d.readSeqs }, [t])
      else none
    | .proceed now a => if now < d.now then none else { d with now := now }.proceed t a

end CompanionBackend.AgentMessages
