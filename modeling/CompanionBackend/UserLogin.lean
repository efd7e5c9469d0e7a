import CompanionBackend.TaskSystems
import CompanionBackend.AgentMessages
import Mathlib.Data.List.Infix
import Mathlib.Data.List.TakeWhile

/-!
# Logins of a user account

A login reads the row of the account without a lock, checks the password against what it has read,
and writes the counter and the lock that it has computed from that. Only columns whose value differs
from the one that was read are written. Last logins, login logs and tokens are left out; the account
exists and its hash does not change.
-/
namespace CompanionBackend.UserLogin

open TaskSystems
open AgentMessages (minute)
open GrowthCounters (Instant)

def maxLoginFailCount : ℕ := 5

def lockMinutes : ℤ := 15

/-- The columns of `users` that a login decides on. -/
structure UserRow where
  isBanned : Bool
  loginFailCount : ℕ
  lockedUntil : Option Instant
  deriving DecidableEq

/-- What the logins of the account have done. The code keeps no such record. -/
inductive Event
  | wrong (now : Instant)
  | right (now : Instant)
  /-- A success has been committed. -/
  | success
  /-- The lock has been committed. -/
  | locked (until_ : Instant)
  deriving DecidableEq

namespace Event

/-- When a password was checked. -/
def checkedAt : Event → Option Instant
  | .wrong now | .right now => some now
  | .success | .locked _ => none

def isWrong : Event → Bool
  | .wrong _ => true
  | _ => false

def isLocked : Event → Bool
  | .locked _ => true
  | _ => false

end Event

/-- What a login writes, computed from the row it has read. -/
inductive Write
  | success (read : UserRow)
  | failure (read : UserRow)
  | lock (read : UserRow) (until_ : Instant)
  deriving DecidableEq

namespace Write

def apply : Write → UserRow → UserRow
  | .success read, row =>
    { row with
      loginFailCount := if read.loginFailCount = 0 then row.loginFailCount else 0
      lockedUntil := if read.lockedUntil = none then row.lockedUntil else none }
  | .failure read, row => { row with loginFailCount := read.loginFailCount + 1 }
  | .lock _ until_, row => { row with loginFailCount := 0, lockedUntil := some until_ }

def event : Write → List Event
  | .success _ => [.success]
  | .failure _ => []
  | .lock _ until_ => [.locked until_]

end Write

structure LoginData where
  row : UserRow
  /-- The latest instant a login has read. -/
  clock : Instant
  log : List Event
  /-- Logins that have checked a password and are neither committed nor rolled back. -/
  unsettled : ℕ

/-- A login between two of its awaits. -/
inductive LoginTask
  | reading (right : Bool)
  | checking (read : UserRow) (right : Bool)
  | writing (w : Write)
  deriving DecidableEq

def LoginTask.isWriting : LoginTask → Bool
  | .writing _ => true
  | _ => false

inductive LoginInput
  /-- A login, and whether its password is the one of the account. -/
  | login (right : Bool)
  /-- The clock is read before the password is checked and again after that. -/
  | proceed (now later : Instant)
  /-- The login raises; its transaction is rolled back. -/
  | abort

/-- The row lets a login check its password. -/
def UserRow.opens (row : UserRow) (now : Instant) : Bool :=
  !row.isBanned && !row.lockedUntil.any fun until_ => decide (now < until_)

/-- `login` on the row that it has read, up to its flush. -/
def login (row : UserRow) (right : Bool) (now later : Instant) : Option (Event × Write) :=
  if !row.opens now then none
  else if right then some (.right now, .success row)
  else if maxLoginFailCount ≤ row.loginFailCount + 1 then
    some (.wrong now, .lock row (later + lockMinutes * minute))
  else some (.wrong now, .failure row)

namespace LoginData

/-- A password has been checked. -/
def check (d : LoginData) (e : Event) : LoginData :=
  { d with log := d.log ++ [e], unsettled := d.unsettled + 1 }

def commit (d : LoginData) (w : Write) : LoginData :=
  { d with row := w.apply d.row, log := d.log ++ w.event, unsettled := d.unsettled - 1 }

def release (d : LoginData) (t : LoginTask) : LoginData :=
  if t.isWriting then { d with unsettled := d.unsettled - 1 } else d

def proceed (d : LoginData) (now later : Instant) : LoginTask → Option (LoginData × List LoginTask)
  | .reading right => some (d, [.checking d.row right])
  | .checking read right =>
    if d.clock ≤ now ∧ now ≤ later then
      let d := { d with clock := later }
      match login read right now later with
      | some (e, w) => some (d.check e, [.writing w])
      | none => some (d, [])
    else none
  | .writing w => some (d.commit w, [])

end LoginData

/-- Logins of one account, in any order of their steps. -/
def loginSystem : TaskSystem LoginData LoginTask LoginInput where
  initial d := d.row.loginFailCount = 0 ∧ d.row.lockedUntil = none ∧ d.log = [] ∧ d.unsettled = 0
  accept _ i :=
    match i with
    | .login right => some [.reading right]
    | _ => none
  advance d t i :=
    match i with
    | .proceed now later => d.proceed now later t
    | .abort => some (d.release t, [])
    | .login _ => none

end CompanionBackend.UserLogin

/-!
## Password guessing is bounded

The counter is the number of wrong passwords since the last success or lock as long as no login
checks a password while another one that has checked is neither committed nor rolled back. Passwords
that are checked at the same time all count from the same value.
-/
namespace CompanionBackend.LoginLimits

open Runs TaskSystems TaskSystem UserLogin
open AgentMessages (minute)
open GrowthCounters (Instant)

/-! ### Wrong passwords in a record -/

/-- The wrong passwords after an event. -/
def tally (n : ℕ) : Event → ℕ
  | .wrong _ => n + 1
  | .right _ => n
  | .success | .locked _ => 0

/-- Wrong passwords since the last success or lock. -/
def wrongsSince (log : List Event) : ℕ := log.foldl tally 0

@[simp] theorem wrongsSince_concat (log : List Event) (e : Event) :
    wrongsSince (log ++ [e]) = tally (wrongsSince log) e := by
  simp [wrongsSince, List.foldl_append]

/-- Neither a success nor a lock. -/
def Quiet (s : List Event) : Prop := ∀ e ∈ s, e ≠ .success ∧ e.isLocked = false

theorem foldl_tally {s : List Event} (hs : Quiet s) (n : ℕ) :
    s.foldl tally n = n + s.countP Event.isWrong := by
  induction s generalizing n with
  | nil => rfl
  | cons e rest ih =>
    have hrest : Quiet rest := fun e' he' => hs e' (List.mem_cons_of_mem e he')
    obtain ⟨hsuccess, hlocked⟩ := hs e List.mem_cons_self
    rw [List.foldl_cons, ih hrest]
    cases e with
    | wrong now =>
      rw [List.countP_cons_of_pos rfl, tally]
      omega
    | right now => simp [tally, Event.isWrong]
    | success => exact absurd rfl hsuccess
    | locked until_ => simp [Event.isLocked] at hlocked

theorem countP_le_wrongsSince {log s : List Event} (h : s <:+ log) (hs : Quiet s) :
    s.countP Event.isWrong ≤ wrongsSince log := by
  obtain ⟨p, rfl⟩ := h
  rw [wrongsSince, List.foldl_append, foldl_tally hs]
  omega

/-- No stretch of the record without a success or a lock has more than the allowed number of wrong
passwords. -/
def Stretches (log : List Event) : Prop :=
  ∀ s, s <:+: log → Quiet s → s.countP Event.isWrong ≤ maxLoginFailCount

theorem stretches_concat {log : List Event} {e : Event} (h : Stretches log)
    (he : e.isWrong = true → wrongsSince log + 1 ≤ maxLoginFailCount) :
    Stretches (log ++ [e]) := by
  intro s hs hquiet
  rcases List.infix_concat_iff.mp hs with hsuffix | hinfix
  · rcases List.suffix_concat_iff.mp hsuffix with rfl | ⟨t, rfl, ht⟩
    · simp
    · have hquiet' : Quiet t := fun e' he' => hquiet e' (List.mem_append_left _ he')
      rw [List.countP_append]
      by_cases hwrong : e.isWrong = true
      · have hbound := countP_le_wrongsSince ht hquiet'
        have hroom := he hwrong
        simp only [List.countP_singleton, hwrong, if_true]
        omega
      · have hold := h t ht.isInfix hquiet'
        simpa [List.countP_singleton, hwrong] using hold
  · exact h s hinfix hquiet

/-- After a lock passwords are checked only when it is over. -/
def LocksRespected (log : List Event) : Prop :=
  log.Pairwise fun a b => ∀ until_, a = .locked until_ → ∀ now ∈ b.checkedAt, until_ ≤ now

theorem locksRespected_concat {log : List Event} {e : Event} (h : LocksRespected log)
    (he : ∀ now ∈ e.checkedAt, ∀ until_, .locked until_ ∈ log → until_ ≤ now) :
    LocksRespected (log ++ [e]) := by
  refine List.pairwise_append.mpr ⟨h, List.pairwise_singleton _ _, ?_⟩
  rintro a ha b hb until_ rfl now hnow
  obtain rfl := List.mem_singleton.mp hb
  exact he now hnow until_ ha

/-- No lock of the stretch is over before a later check in it. -/
def Unseparated (s : List Event) : Prop :=
  s.Pairwise fun a b => ∀ until_, a = .locked until_ → ∀ now ∈ b.checkedAt, now < until_

/-- Between two successes, wrong passwords that no completed lock separates are at most the allowed
number. -/
theorem countP_le_of_unseparated {log s : List Event} (hstretches : Stretches log)
    (hlocks : LocksRespected log) (hs : s <:+: log) (hsuccess : .success ∉ s)
    (hseparated : Unseparated s) : s.countP Event.isWrong ≤ maxLoginFailCount := by
  set first := s.takeWhile fun e => !e.isLocked with hfirst
  set rest := s.dropWhile fun e => !e.isLocked with hrest
  have hsplit : first ++ rest = s := List.takeWhile_append_dropWhile
  have hquiet : Quiet first := by
    intro e he
    have hlocked : (!e.isLocked) = true :=
      List.mem_takeWhile_imp (p := fun e : Event => !e.isLocked) he
    refine ⟨?_, by simpa using hlocked⟩
    rintro rfl
    exact hsuccess (hsplit ▸ List.mem_append_left _ he)
  have hbound : first.countP Event.isWrong ≤ maxLoginFailCount :=
    hstretches first ((List.infix_append [] first rest).trans (by simpa [hsplit] using hs)) hquiet
  have hnone : rest.countP Event.isWrong = 0 := by
    have hresp : LocksRespected rest :=
      hlocks.sublist (((List.suffix_append first rest).isInfix.trans
        (by rw [hsplit]; exact hs)).sublist)
    have hunsep : Unseparated rest :=
      hseparated.sublist (hsplit ▸ List.sublist_append_right first rest)
    cases hcase : rest with
    | nil => rfl
    | cons e tail =>
      have hlocked : e.isLocked = true := by
        have hhead := List.head?_dropWhile_not (fun e : Event => !e.isLocked) s
        rw [← hrest, hcase] at hhead
        simpa using hhead
      rw [hcase] at hresp hunsep
      cases e with
      | locked until_ =>
        rw [List.countP_cons_of_neg (by simp [Event.isWrong])]
        refine List.countP_eq_zero.mpr fun b hb hwrong => ?_
        cases b with
        | wrong now =>
          have hafter := (List.pairwise_cons.mp hresp).1 _ hb until_ rfl now rfl
          have hbefore := (List.pairwise_cons.mp hunsep).1 _ hb until_ rfl now rfl
          exact absurd hbefore (not_lt.mpr hafter)
        | _ => simp [Event.isWrong] at hwrong
      | _ => simp [Event.isLocked] at hlocked
  rw [← hsplit, List.countP_append, hnone]
  exact hbound

/-! ### Runs in which passwords are checked one at a time -/

/-- A password is checked against the row as it is while no other login has one unsettled, and a
wrong one is not rolled back. -/
def Alone (d : LoginData) : LoginTask → LoginInput → Prop
  | .checking read _, .proceed now _ => read.opens now = true → read = d.row ∧ d.unsettled = 0
  | .writing (.failure _), .abort | .writing (.lock _ _), .abort => False
  | _, _ => True

instance (d : LoginData) (t : LoginTask) (i : LoginInput) : Decidable (Alone d t i) := by
  unfold Alone
  split <;> infer_instance

/-- The record is bounded, and the row goes with it. -/
structure Counted (d : LoginData) : Prop where
  counter : d.unsettled = 0 → d.row.loginFailCount = wrongsSince d.log
  below : d.row.loginFailCount < maxLoginFailCount
  stretches : Stretches d.log
  locks : LocksRespected d.log
  expiry : ∀ until_, .locked until_ ∈ d.log →
    until_ ≤ d.clock ∨ ∃ v, d.row.lockedUntil = some v ∧ until_ ≤ v

/-- What is about to be written fits the record. -/
def Fits (d : LoginData) : Write → Prop
  | .success read => read = d.row ∧ d.row.loginFailCount = wrongsSince d.log
  | .failure _ => d.row.loginFailCount + 1 = wrongsSince d.log ∧
      d.row.loginFailCount + 1 < maxLoginFailCount
  | .lock _ _ => True

/-- A login that has checked its password is the only one, and it writes what fits. -/
def Knows (d : LoginData) : LoginTask → Prop
  | .writing w => d.unsettled = 1 ∧ (∀ until_, .locked until_ ∈ d.log → until_ ≤ d.clock) ∧
      Fits d w ∧ ∀ read, w = .failure read → read = d.row
  | _ => True

def Frame (d d' : LoginData) : Prop := d.clock ≤ d'.clock

def Guarded (d d' : LoginData) : Prop :=
  d'.row = d.row ∧ d'.log = d.log ∧ d'.unsettled = d.unsettled

theorem discipline :
    LockDiscipline Knows LoginTask.isWriting (fun d => d.unsettled = 1) Frame Guarded where
  locked {d t} h hholds := by
    cases t with
    | writing w => exact h.1
    | _ => cases hholds
  stable {d d' t} h hframe hguarded := by
    cases t with
    | writing w =>
      obtain ⟨hrow, hlog, hunsettled⟩ := hguarded rfl
      obtain ⟨hone, hexpired, hfits, hread⟩ := h
      refine ⟨hunsettled.trans hone, fun u hu => ?_, ?_, fun read hw => ?_⟩
      · exact (hexpired u (hlog ▸ hu)).trans hframe
      · cases w with
        | lock read until_ => trivial
        | _ => simpa [Fits, hrow, hlog] using hfits
      · rw [hrow]
        exact hread read hw
    | _ => trivial

abbrev StepOk (d d' : LoginData) (t : LoginTask) (ts : List LoginTask) : Prop :=
  LockStep Counted Knows LoginTask.isWriting (fun d => d.unsettled = 1) Frame Guarded d d' t ts

/-- The clock moves, and nothing else. -/
theorem counted_clock {d : LoginData} {later : Instant} (h : Counted d) (hlater : d.clock ≤ later) :
    Counted { d with clock := later } :=
  ⟨h.counter, h.below, h.stretches, h.locks,
    fun u hu => (h.expiry u hu).imp_left fun hle => hle.trans hlater⟩

theorem stepOk_quiet {d : LoginData} {t : LoginTask} {ts : List LoginTask} {later : Instant}
    (hd : Counted d) (hlater : d.clock ≤ later) (hts : ∀ t' ∈ ts, t'.isWriting = false)
    (hsingle : ts.length ≤ 1) : StepOk d { d with clock := later } t ts where
  data := counted_clock hd hlater
  frame := hlater
  tasks t' ht' := by
    have hfree := hts t' ht'
    cases t' with
    | writing w => cases hfree
    | _ => trivial
  single := hsingle
  guarded _ _ := ⟨⟨rfl, rfl, rfl⟩, hts⟩

/-- Locks that were committed are over when a password is checked. -/
theorem expired_of_opens {d : LoginData} {now : Instant} (h : Counted d) (hclock : d.clock ≤ now)
    (hopens : d.row.opens now = true) : ∀ until_, .locked until_ ∈ d.log → until_ ≤ now := by
  intro u hu
  rcases h.expiry u hu with hle | ⟨v, hv, hle⟩
  · exact hle.trans hclock
  · have hover : v ≤ now := by
      simp only [UserRow.opens, hv, Bool.and_eq_true, Bool.not_eq_true', Option.any_some,
        decide_eq_false_iff_not, not_lt] at hopens
      exact hopens.2
    exact hle.trans hover

/-- A check of a password on the row as it is. -/
theorem stepOk_check {d : LoginData} {right : Bool} {now later : Instant} {e : Event} {w : Write}
    (hd : Counted d) (hclock : d.clock ≤ now) (hlater : now ≤ later) (hfree : d.unsettled = 0)
    (h : login d.row right now later = some (e, w)) :
    StepOk d ({ d with clock := later }.check e) (.checking d.row right) [.writing w] := by
  unfold login at h
  have hopens : d.row.opens now = true := by
    by_contra hclosed
    simp [hclosed] at h
  have hover := expired_of_opens hd hclock hopens
  have hcount : d.row.loginFailCount = wrongsSince d.log := hd.counter hfree
  have hbelow : d.row.loginFailCount < maxLoginFailCount := hd.below
  have he : e.checkedAt = some now ∧ (e.isWrong = true → w ≠ .success d.row) := by
    simp only [hopens, Bool.not_true, Bool.false_eq_true, if_false] at h
    split_ifs at h <;> cases h <;> simp [Event.checkedAt, Event.isWrong]
  have hmem : ∀ u, .locked u ∈ d.log ++ [e] → .locked u ∈ d.log := by
    intro u hu
    rcases List.mem_append.mp hu with hu | hu
    · exact hu
    · rw [← List.mem_singleton.mp hu] at he
      cases he.1
  refine ⟨⟨?_, hbelow, ?_, ?_, ?_⟩, hclock.trans hlater, ?_, by simp, fun _ hone => ?_⟩
  · intro hzero
    simp [LoginData.check] at hzero
  · refine stretches_concat hd.stretches fun _ => ?_
    change wrongsSince d.log + 1 ≤ maxLoginFailCount
    omega
  · refine locksRespected_concat hd.locks fun n hn => ?_
    obtain rfl : now = n := Option.some.inj (he.1.symm.trans hn)
    exact hover
  · exact fun u hu => Or.inl ((hover u (hmem u hu)).trans hlater)
  · intro t' ht'
    obtain rfl := List.mem_singleton.mp ht'
    refine ⟨by simp [LoginData.check, hfree], fun u hu => (hover u (hmem u hu)).trans hlater, ?_, ?_⟩
    · simp only [hopens, Bool.not_true, Bool.false_eq_true, if_false] at h
      split_ifs at h with hright hlimit
      · cases h
        refine ⟨rfl, ?_⟩
        simpa [LoginData.check, tally] using hcount
      · cases h
        trivial
      · cases h
        refine ⟨?_, not_le.mp hlimit⟩
        simpa [LoginData.check, tally] using hcount
    · simp only [hopens, Bool.not_true, Bool.false_eq_true, if_false] at h
      rintro read rfl
      split_ifs at h <;> cases h
      rfl
  · rw [hfree] at hone
    cases hone

/-- The commit of the only login that has checked. -/
theorem stepOk_commit {d : LoginData} {w : Write} (hd : Counted d) (ht : Knows d (.writing w)) :
    StepOk d (d.commit w) (.writing w) [] := by
  obtain ⟨hone, hexpired, hfits, hread⟩ := ht
  refine ⟨?_, le_refl d.clock, by simp, by simp, by simp [LoginTask.isWriting]⟩
  cases w with
  | success read =>
    obtain rfl : read = d.row := hfits.1
    have hzero : (if d.row.loginFailCount = 0 then d.row.loginFailCount else 0) = 0 := by
      split_ifs with h
      · exact h
      · rfl
    refine ⟨fun _ => ?_, ?_, ?_, ?_, fun u hu => Or.inl (hexpired u ?_)⟩
    · simp [LoginData.commit, Write.apply, Write.event, hzero, tally]
    · simp [LoginData.commit, Write.apply, hzero, maxLoginFailCount]
    · exact stretches_concat hd.stretches (by simp [Event.isWrong])
    · exact locksRespected_concat hd.locks (by simp [Event.checkedAt])
    · simpa [LoginData.commit, Write.event] using hu
  | failure read =>
    obtain rfl := hread read rfl
    have hlog : (d.commit (.failure d.row)).log = d.log := by simp [LoginData.commit, Write.event]
    refine ⟨fun _ => ?_, hfits.2, ?_, ?_, fun u hu => Or.inl (hexpired u ?_)⟩
    · rw [hlog]
      exact hfits.1
    · rw [hlog]
      exact hd.stretches
    · rw [hlog]
      exact hd.locks
    · rwa [hlog] at hu
  | lock read until_ =>
    refine ⟨fun _ => ?_, ?_, ?_, ?_, fun u hu => ?_⟩
    · simp [LoginData.commit, Write.apply, Write.event, tally]
    · simp [LoginData.commit, Write.apply, maxLoginFailCount]
    · exact stretches_concat hd.stretches (by simp [Event.isWrong])
    · exact locksRespected_concat hd.locks (by simp [Event.checkedAt])
    · rcases List.mem_append.mp hu with hu | hu
      · exact Or.inl (hexpired u hu)
      · obtain rfl : u = until_ := by simpa [Write.event] using hu
        exact Or.inr ⟨u, rfl, le_rfl⟩

/-- A login that raises with nothing to count. -/
theorem stepOk_abort {d : LoginData} {t : LoginTask} (hd : Counted d) (ht : Knows d t)
    (hok : Alone d t .abort) : StepOk d (d.release t) t [] := by
  cases t with
  | reading right => exact stepOk_quiet hd le_rfl (by simp) (by simp)
  | checking read right => exact stepOk_quiet hd le_rfl (by simp) (by simp)
  | writing w =>
    cases w with
    | success read =>
      refine ⟨⟨fun _ => ht.2.2.1.2, hd.below, hd.stretches, hd.locks, hd.expiry⟩, le_refl d.clock,
        by simp, by simp, by simp [LoginTask.isWriting]⟩
    | failure read => exact absurd hok id
    | lock read until_ => exact absurd hok id

theorem stepOk_of_proceed {d d' : LoginData} {t : LoginTask} {now later : Instant}
    {ts : List LoginTask} (h : d.proceed now later t = some (d', ts)) (hd : Counted d)
    (ht : Knows d t) (hok : Alone d t (.proceed now later)) : StepOk d d' t ts := by
  cases t with
  | reading right =>
    cases h
    exact stepOk_quiet hd le_rfl (by simp [LoginTask.isWriting]) (by simp)
  | checking read right =>
    simp only [LoginData.proceed] at h
    split_ifs at h with hclock
    split at h
    · rename_i e w hlogin
      cases h
      have hopens : read.opens now = true := by
        by_contra hclosed
        simp [login, hclosed] at hlogin
      obtain ⟨rfl, hfree⟩ := hok hopens
      exact stepOk_check hd hclock.1 hclock.2 hfree hlogin
    · cases h
      exact stepOk_quiet hd (hclock.1.trans hclock.2) (by simp) (by simp)
  | writing w =>
    cases h
    exact stepOk_commit hd ht

/-- In runs in which passwords are checked one at a time. -/
theorem reachableUnder_counted {w : World LoginData LoginTask}
    (hw : loginSystem.machine.ReachableUnder (guard Alone) w) : Counted w.data := by
  refine (reachableUnder_holds (G := Counted) (T := Knows) (R := Apart LoginTask.isWriting)
    apart_symm ?_ ?_ ?_ hw).data
  · rintro d ⟨hcount, -, hlog, -⟩
    refine ⟨fun _ => by rw [hcount, hlog]; rfl, by rw [hcount]; decide, ?_, ?_, ?_⟩
    · intro s hs _
      obtain rfl := List.infix_nil.mp (hlog ▸ hs)
      exact Nat.zero_le _
    · rw [hlog]
      exact List.Pairwise.nil
    · rw [hlog]
      simp
  · intro d i ts _ hts
    have hfree : ∃ right, ts = [.reading right] := by
      cases i <;> simp only [loginSystem, Option.some.injEq, reduceCtorEq] at hts
      exact ⟨_, hts.symm⟩
    obtain ⟨right, rfl⟩ := hfree
    refine ⟨by simp [Knows], List.pairwise_singleton _ _, fun u t' ht' => ?_⟩
    obtain rfl := List.mem_singleton.mp ht'
    exact apart_of_free rfl
  · intro d t i d' ts hd ht hok hadv
    refine LockStep.establishes discipline ?_
    cases i with
    | login right => cases hadv
    | proceed now later => exact stepOk_of_proceed hadv hd ht hok
    | abort =>
      cases hadv
      exact stepOk_abort hd ht hok

/-- In every run in which passwords are checked one at a time and no wrong one is rolled back:
between successes at most the allowed number of wrong passwords is checked unless a completed lock
separates them, no password is checked during a committed lock, and the counter is the number of
wrong passwords since the last success or lock. -/
theorem guessing_bounded (w : World LoginData LoginTask)
    (hw : loginSystem.machine.ReachableUnder (guard Alone) w) :
    (∀ s, s <:+: w.data.log → .success ∉ s → Unseparated s →
      s.countP Event.isWrong ≤ maxLoginFailCount) ∧
    LocksRespected w.data.log ∧
    (w.data.unsettled = 0 → w.data.row.loginFailCount = wrongsSince w.data.log) := by
  have hcounted := reachableUnder_counted hw
  exact ⟨fun s hs hsuccess hseparated =>
    countP_le_of_unseparated hcounted.stretches hcounted.locks hs hsuccess hseparated,
    hcounted.locks, hcounted.counter⟩

/-- An account that nobody has signed in to. -/
def newAccount : LoginData := ⟨⟨false, 0, none⟩, 0, [], 0⟩

/-- A login that ends before the next one begins. -/
def aloneLogin (right : Bool) (now : Instant) : List (TaskSystems.Input LoginInput) :=
  [.request (.login right), .task 0 (.proceed now now), .task 0 (.proceed now now),
    .task 0 (.proceed now now)]

/-- Five wrong passwords lock the account, and the right one is checked when the lock is over. -/
def lockedThenRight : List (TaskSystems.Input LoginInput) :=
  (List.range 5).flatMap (fun k => aloneLogin false k) ++
    [.request (.login true), .task 0 (.proceed 5 5), .task 0 (.proceed 5 5)] ++
    aloneLogin true (4 + lockMinutes * minute)

theorem guessing_bounded_locked : ∃ w : World LoginData LoginTask,
    w.data.log = [.wrong 0, .wrong 1, .wrong 2, .wrong 3, .wrong 4,
      .locked (4 + lockMinutes * minute), .right (4 + lockMinutes * minute), .success] ∧
    LocksRespected w.data.log ∧
    (w.data.unsettled = 0 → w.data.row.loginFailCount = wrongsSince w.data.log) := by
  have hcheck : ((loginSystem.machine.run ⟨newAccount, []⟩ lockedThenRight).isSome &&
      decide (loginSystem.machine.Guarded (guard Alone) ⟨newAccount, []⟩ lockedThenRight) &&
      decide ((loginSystem.machine.after ⟨newAccount, []⟩ lockedThenRight).data.log =
        [.wrong 0, .wrong 1, .wrong 2, .wrong 3, .wrong 4, .locked (4 + lockMinutes * minute),
          .right (4 + lockMinutes * minute), .success])) = true := by
    decide
  simp only [Bool.and_eq_true, decide_eq_true_eq] at hcheck
  obtain ⟨⟨hrun, hguard⟩, hlog⟩ := hcheck
  have hstart : loginSystem.machine.start ⟨newAccount, []⟩ := ⟨⟨rfl, rfl, rfl, rfl⟩, rfl⟩
  have hfacts := guessing_bounded _ (Machine.reachableUnder_after hstart hguard hrun)
  exact ⟨_, hlog, hfacts.2.1, hfacts.2.2⟩

/-- Six wrong passwords at the same time: each login has read the counter zero. -/
theorem parallel_guesses_count_once : ∃ w : World LoginData LoginTask,
    loginSystem.machine.Reachable w ∧ w.tasks = [] ∧
      w.data.log = List.replicate 6 (.wrong 0) ∧ w.data.row.loginFailCount = 1 ∧
      w.data.row.lockedUntil = none := by
  have hcheck : (loginSystem.machine.run ⟨newAccount, []⟩
      (List.replicate 6 (.request (.login false)) ++
        List.replicate 18 (.task 0 (.proceed 0 0)))).any
      (fun w => w.tasks.isEmpty && decide (w.data.log = List.replicate 6 (.wrong 0) ∧
        w.data.row.loginFailCount = 1 ∧ w.data.row.lockedUntil = none)) = true := by
    decide
  obtain ⟨w, hw, hfacts⟩ := (Option.any_eq_true _ _).mp hcheck
  simp only [Bool.and_eq_true, decide_eq_true_eq, List.isEmpty_iff] at hfacts
  exact ⟨w, ⟨⟨newAccount, []⟩, _, ⟨⟨rfl, rfl, rfl, rfl⟩, rfl⟩, hw⟩, hfacts⟩

end CompanionBackend.LoginLimits
