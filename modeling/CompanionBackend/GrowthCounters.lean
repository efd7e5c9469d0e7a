import CompanionBackend.TaskSystems
import CompanionBackend.VoiceGrowth

/-!
# The daily counters of text growth

`add_growth` reads how much of the daily limit is used from a counter outside the database,
raises two counters and then writes the row, each in a step of its own. The key of a counter
carries the day of the server's own calendar; its lifetime runs to midnight UTC. Only
a login holds the lock of its user from the beginning.
-/
namespace CompanionBackend.GrowthCounters

open TaskSystems VoiceModels TextGrowth

/-- Microseconds of UTC. -/
abbrev Instant := ℤ

/-- The calendar day an instant falls on where the server stands, `date.today()`. -/
abbrev Zone := Instant → ℤ

/-- Whose counter of which action and day. -/
structure DayKey where
  user : UserId
  action : GrowthAction
  day : ℤ
  deriving DecidableEq, Repr

/-- A value in the cache, with the instant it expires at. -/
structure Counter where
  value : ℤ
  expiresAt : Option Instant
  deriving DecidableEq, Repr

/-- The counter can still be read. -/
def Counter.live (c : Counter) (now : Instant) : Prop := ∀ t ∈ c.expiresAt, now < t

instance (c : Counter) (now : Instant) : Decidable (c.live now) :=
  match h : c.expiresAt with
  | none => isTrue (by simp [Counter.live, h])
  | some t => decidable_of_iff (now < t) (by simp [Counter.live, h])

abbrev Counters := DayKey → Option Counter

namespace Counters

/-- `GET`. -/
def read (c : Counters) (key : DayKey) (now : Instant) : Option ℤ :=
  ((c key).filter fun found => decide (found.live now)).map Counter.value

def put (c : Counters) (key : DayKey) (value : Counter) : Counters :=
  fun k => if k = key then some value else c k

/-- `INCRBY`: a counter that is gone begins again, without a lifetime. -/
def incrby (c : Counters) (key : DayKey) (points : ℤ) (now : Instant) : Counters :=
  match (c key).filter fun found => decide (found.live now) with
  | some found => c.put key { found with value := found.value + points }
  | none => c.put key ⟨points, none⟩

/-- `EXPIRE`. -/
def expire (c : Counters) (key : DayKey) (seconds : ℤ) (now : Instant) : Counters :=
  match (c key).filter fun found => decide (found.live now) with
  | some found => c.put key { found with expiresAt := some (now + seconds * 1000000) }
  | none => c

end Counters

/-- A row of `relationship_growth_log`. -/
structure GrowthRow where
  user : UserId
  action : GrowthAction
  points : ℤ
  createdAt : Instant
  deriving DecidableEq, Repr

/-- `_seconds_until_midnight`. -/
def secondsUntilMidnight (now : Instant) : ℤ :=
  max ((86400000000 - now % 86400000000) / 1000000) 1

/-- The counters under both kinds of key, the rows, and the locks that are held. -/
structure GrowthData where
  now : Instant
  oldCounters : Counters
  newCounters : Counters
  rows : List GrowthRow
  locked : List UserId

structure GrowthRequest where
  user : UserId
  action : GrowthAction
  consecutiveLoginDays : ℤ
  deriving DecidableEq, Repr

/-- An award that was decided on: what the new counter showed, the points and the lifetime. -/
structure Award where
  key : DayKey
  seen : Option ℤ
  points : ℤ
  ttl : ℤ
  deriving DecidableEq, Repr

/-- A call of `add_growth` between two of its awaits. -/
inductive GrowthTask
  | called (r : GrowthRequest)
  /-- A login has taken the lock of its user. -/
  | opened (r : GrowthRequest)
  | dated (r : GrowthRequest) (key : DayKey)
  /-- Nothing was found under the new key. -/
  | missed (r : GrowthRequest) (key : DayKey)
  | raisingOld (a : Award)
  | expiringOld (a : Award)
  | raisingNew (a : Award)
  | expiringNew (a : Award)
  | booking (a : Award)
  deriving DecidableEq, Repr

namespace GrowthTask

/-- The lock this call holds. -/
def lock : GrowthTask → Option UserId
  | .called _ => none
  | .opened r | .dated r _ | .missed r _ => if r.action = .dailyLogin then some r.user else none
  | .raisingOld a | .expiringOld a | .raisingNew a | .expiringNew a | .booking a =>
    if a.key.action = .dailyLogin then some a.key.user else none

end GrowthTask

inductive GrowthInput
  | call (r : GrowthRequest)
  | proceed (now : Instant)
  /-- The call is cancelled or raises; its transaction is rolled back. -/
  | abort

namespace GrowthData

/-- The call is over, and its transaction with it. -/
def release (d : GrowthData) (t : GrowthTask) : GrowthData :=
  match t.lock with
  | some user => { d with locked := d.locked.erase user }
  | none => d

/-- The limit is used up, or the award begins. -/
def decideAward (d : GrowthData) (t : GrowthTask) (r : GrowthRequest) (key : DayKey)
    (seen : Option ℤ) (current : ℤ) : GrowthData × List GrowthTask :=
  if key.action.dailyLimit ≤ current then (d.release t, [])
  else (d, [.raisingOld ⟨key, seen, actualTextPoints key.action r.consecutiveLoginDays current,
    secondsUntilMidnight d.now⟩])

/-- What the call does up to its next await. -/
def proceed (zone : Zone) (d : GrowthData) (t : GrowthTask) : Option (GrowthData × List GrowthTask) :=
  match t with
  | .called r =>
    if r.action = .dailyLogin then
      if r.user ∈ d.locked then none
      else some ({ d with locked := r.user :: d.locked }, [.opened r])
    else some (d, [.opened r])
  | .opened r => some (d, [.dated r ⟨r.user, r.action, zone d.now⟩])
  | .dated r key =>
    match d.newCounters.read key d.now with
    | some current => some (d.decideAward t r key (some current) current)
    | none => some (d, [.missed r key])
  | .missed r key =>
    some (d.decideAward t r key none ((d.oldCounters.read key d.now).getD 0))
  | .raisingOld a =>
    some ({ d with oldCounters := d.oldCounters.incrby a.key a.points d.now }, [.expiringOld a])
  | .expiringOld a =>
    some ({ d with oldCounters := d.oldCounters.expire a.key a.ttl d.now }, [.raisingNew a])
  | .raisingNew a =>
    some ({ d with newCounters := d.newCounters.incrby a.key a.points d.now }, [.expiringNew a])
  | .expiringNew a =>
    some ({ d with newCounters := d.newCounters.expire a.key a.ttl d.now }, [.booking a])
  | .booking a =>
    if t.lock = none ∧ a.key.user ∈ d.locked then none
    else
      let row : GrowthRow := ⟨a.key.user, a.key.action, a.points, d.now⟩
      some (GrowthData.release { d with rows := d.rows ++ [row] } t, [])

end GrowthData

/-- All calls of `add_growth` on a server in this zone, under a clock that never goes back. -/
def growthSystem (zone : Zone) : TaskSystem GrowthData GrowthTask GrowthInput where
  initial d := d.rows = [] ∧ d.locked = [] ∧ ∀ k, d.newCounters k = none
  accept _ i :=
    match i with
    | .call r => some [.called r]
    | _ => none
  advance d t i :=
    match i with
    | .call _ => none
    | .abort => some (d.release t, [])
    | .proceed now => if now < d.now then none else { d with now := now }.proceed zone t

end CompanionBackend.GrowthCounters
