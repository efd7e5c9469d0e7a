import CompanionBackend.GrowthCounters

/-!
# Consecutive login days

`update_consecutive_login` derives the days from the last interaction, which text actions and voice
calls move as well, and compares the UTC date of that instant with the day of the server's calendar.
The days are those of the logins as long as both comparisons come out as for the last login.
-/
namespace CompanionBackend.LoginStreaks

open Runs VoiceModels VoiceGrowth TextGrowth GrowthCounters

/-- The microseconds that the calendar of the server is ahead of UTC. -/
abbrev Offset := ℤ

/-- `date.today()`. -/
def today (offset : Offset) (now : Instant) : ℤ := (now + offset) / 86400000000

/-- `.date()` of an instant that `datetime.utcnow()` has given. -/
def utcDate (t : Instant) : ℤ := t / 86400000000

/-- A user's relationship, the counters of the cache and, as a record only, the days of the logins. -/
structure Standing where
  now : Instant
  rel : Relationship
  consecutiveLoginDays : ℤ
  oldCounters : Counters
  newCounters : Counters
  logins : List ℤ

/-- `update_consecutive_login`. -/
def updateConsecutiveLogin (offset : Offset) (s : Standing) : Standing :=
  match s.rel.lastInteractionAt with
  | none => { s with rel := { s.rel with lastInteractionAt := some s.now }, consecutiveLoginDays := 1 }
  | some last =>
    if utcDate last = today offset s.now then s
    else if utcDate last = today offset s.now - 1 then
      { s with consecutiveLoginDays := s.consecutiveLoginDays + 1 }
    else { s with consecutiveLoginDays := 1 }

/-- `current_daily`: the new key, or else the old one. -/
def currentDaily (s : Standing) (key : DayKey) : ℤ :=
  match s.newCounters.read key s.now with
  | some current => current
  | none => (s.oldCounters.read key s.now).getD 0

def raise (c : Counters) (key : DayKey) (points : ℤ) (now : Instant) : Counters :=
  (c.incrby key points now).expire key (secondsUntilMidnight now) now

/-- `add_growth`. -/
def addGrowth (offset : Offset) (user : UserId) (action : GrowthAction) (s : Standing) : Standing :=
  let key : DayKey := ⟨user, action, today offset s.now⟩
  let current := currentDaily s key
  if action.dailyLimit ≤ current then s
  else
    let points := actualTextPoints action s.consecutiveLoginDays current
    { s with
      oldCounters := raise s.oldCounters key points s.now
      newCounters := raise s.newCounters key points s.now
      rel := raisedByText s.rel points s.now }

/-- What happens to the relationship. -/
inductive Contact
  | login (now : Instant)
  /-- A round of dialog, a long session or a reply. -/
  | action (a : GrowthAction) (now : Instant)
  /-- The settlement of a voice call that has ended. -/
  | voice (call : VoiceCall) (ended points : ℤ) (now : Instant)

namespace Contact

def now : Contact → Instant
  | login now | action _ now | voice _ _ _ now => now

end Contact

/-- The step at the instant of the state. -/
def contact (offset : Offset) (user : UserId) (s : Standing) : Contact → Standing
  | .login _ =>
    let s' := addGrowth offset user .dailyLogin (updateConsecutiveLogin offset s)
    { s' with logins := today offset s.now :: s.logins }
  | .action a _ => addGrowth offset user a s
  | .voice call ended points _ => { s with rel := raised s.rel call ended points }

/-- Logins and other contacts of a user under a clock that never goes back. -/
def contacts (offset : Offset) (user : UserId) : Machine Standing Contact where
  start s := s.rel.lastInteractionAt = none ∧ s.consecutiveLoginDays = 0 ∧ s.logins = []
  step s i := if i.now < s.now then none else some (contact offset user { s with now := i.now } i)

/-- At a login the last interaction was today, or yesterday, just when the last login was. -/
def Compares (offset : Offset) (s : Standing) : Contact → Prop
  | .login now =>
    (s.rel.lastInteractionAt.map utcDate = some (today offset now) ↔
      s.logins.head? = some (today offset now)) ∧
    (s.rel.lastInteractionAt.map utcDate = some (today offset now - 1) ↔
      s.logins.head? = some (today offset now - 1))
  | _ => True

instance (offset : Offset) (s : Standing) (i : Contact) : Decidable (Compares offset s i) := by
  cases i <;> unfold Compares <;> infer_instance

/-- The days up to `day`, as many as there are in a row with a login on each. -/
structure Streak (logins : List ℤ) (day n : ℤ) : Prop where
  positive : 1 ≤ n
  each : ∀ j, 0 ≤ j → j < n → day - j ∈ logins
  maximal : day - n ∉ logins

/-! ### What a step changes -/

theorem updateConsecutiveLogin_now (offset : Offset) (s : Standing) :
    (updateConsecutiveLogin offset s).now = s.now := by
  unfold updateConsecutiveLogin
  split
  · rfl
  · split_ifs <;> rfl

theorem addGrowth_days (offset : Offset) (user : UserId) (action : GrowthAction) (s : Standing) :
    (addGrowth offset user action s).consecutiveLoginDays = s.consecutiveLoginDays ∧
      (addGrowth offset user action s).logins = s.logins ∧
      (addGrowth offset user action s).now = s.now := by
  unfold addGrowth
  simp only
  split_ifs <;> exact ⟨rfl, rfl, rfl⟩

/-- Only logins change the days and their record. -/
theorem contact_other {offset : Offset} {user : UserId} {s : Standing} {i : Contact}
    (h : ∀ now, i ≠ .login now) :
    (contact offset user s i).consecutiveLoginDays = s.consecutiveLoginDays ∧
      (contact offset user s i).logins = s.logins ∧ (contact offset user s i).now = s.now := by
  cases i with
  | login now => exact absurd rfl (h now)
  | action a now => exact addGrowth_days offset user a s
  | voice call ended points now => exact ⟨rfl, rfl, rfl⟩

theorem contact_login (offset : Offset) (user : UserId) (s : Standing) (now : Instant) :
    (contact offset user s (.login now)).consecutiveLoginDays =
        (updateConsecutiveLogin offset s).consecutiveLoginDays ∧
      (contact offset user s (.login now)).logins = today offset s.now :: s.logins ∧
      (contact offset user s (.login now)).now = s.now := by
  obtain ⟨hdays, -, hnow⟩ := addGrowth_days offset user .dailyLogin (updateConsecutiveLogin offset s)
  exact ⟨hdays, rfl, hnow.trans (updateConsecutiveLogin_now offset s)⟩

/-- What the days become, by the date of the last interaction. -/
theorem updateConsecutiveLogin_days (offset : Offset) (s : Standing) :
    (updateConsecutiveLogin offset s).consecutiveLoginDays =
      if s.rel.lastInteractionAt.map utcDate = some (today offset s.now) then s.consecutiveLoginDays
      else if s.rel.lastInteractionAt.map utcDate = some (today offset s.now - 1) then
        s.consecutiveLoginDays + 1
      else 1 := by
  unfold updateConsecutiveLogin
  cases s.rel.lastInteractionAt with
  | none => rfl
  | some last =>
    simp only [Option.map_some, Option.some.injEq]
    split_ifs <;> rfl

/-! ### The days are those of the logins -/

theorem Streak.extend {logins : List ℤ} {day n : ℤ} (h : Streak logins day n) :
    Streak ((day + 1) :: logins) (day + 1) (n + 1) where
  positive := by have := h.positive; omega
  each j hj hn := by
    by_cases hzero : j = 0
    · rw [hzero, sub_zero]
      exact List.mem_cons_self
    · have hprevious := h.each (j - 1) (by omega) (by omega)
      rw [show day + 1 - j = day - (j - 1) by omega]
      exact List.mem_cons_of_mem _ hprevious
  maximal hmem := by
    rw [show day + 1 - (n + 1) = day - n by omega] at hmem
    rcases List.mem_cons.mp hmem with heq | hmem
    · have := h.positive
      omega
    · exact h.maximal hmem

theorem Streak.again {logins : List ℤ} {day n : ℤ} (h : Streak logins day n) :
    Streak (day :: logins) day n where
  positive := h.positive
  each j hj hn := List.mem_cons_of_mem _ (h.each j hj hn)
  maximal hmem := by
    rcases List.mem_cons.mp hmem with heq | hmem
    · have := h.positive
      omega
    · exact h.maximal hmem

theorem streak_first {logins : List ℤ} {day : ℤ} (h : day - 1 ∉ logins) : Streak (day :: logins) day 1 where
  positive := le_rfl
  each j hj hn := by
    obtain rfl : j = 0 := by omega
    rw [sub_zero]
    exact List.mem_cons_self
  maximal hmem := by
    rcases List.mem_cons.mp hmem with heq | hmem
    · omega
    · exact h hmem

/-- The days count the logins that end with the last one, which was not later than today. -/
structure Counts (offset : Offset) (s : Standing) : Prop where
  past : ∀ day ∈ s.logins, day ≤ today offset s.now
  sorted : s.logins.Pairwise fun a b => b ≤ a
  streak : ∀ day ∈ s.logins.head?, Streak s.logins day s.consecutiveLoginDays

theorem today_mono {offset : Offset} {s t : Instant} (h : s ≤ t) : today offset s ≤ today offset t :=
  Int.ediv_le_ediv (by decide) (Int.add_le_add_right h offset)

/-- All logins are up to the last one. -/
theorem Counts.le_head {offset : Offset} {s : Standing} (h : Counts offset s) {day last : ℤ}
    (hlast : s.logins.head? = some last) (hday : day ∈ s.logins) : day ≤ last := by
  obtain ⟨rest, hlogins⟩ := List.head?_eq_some_iff.mp hlast
  have hsorted := h.sorted
  rw [hlogins] at hsorted hday
  rcases List.mem_cons.mp hday with rfl | hday
  · exact le_rfl
  · exact (List.pairwise_cons.mp hsorted).1 day hday

theorem Counts.later {offset : Offset} {s : Standing} (h : Counts offset s) {now : Instant}
    (hnow : s.now ≤ now) : Counts offset { s with now := now } :=
  ⟨fun day hday => (h.past day hday).trans (today_mono hnow), h.sorted, h.streak⟩

theorem counts_login {offset : Offset} {user : UserId} {s : Standing} (h : Counts offset s)
    (hok : Compares offset s (.login s.now)) : Counts offset (contact offset user s (.login s.now)) := by
  obtain ⟨hdays, hlogins, hnow⟩ := contact_login offset user s s.now
  obtain ⟨htoday, hyesterday⟩ := hok
  rw [updateConsecutiveLogin_days] at hdays
  simp only [htoday, hyesterday] at hdays
  refine ⟨fun day hday => ?_, ?_, fun day hday => ?_⟩
  · rw [hlogins] at hday
    rw [hnow]
    rcases List.mem_cons.mp hday with rfl | hday
    · exact le_rfl
    · exact h.past day hday
  · rw [hlogins]
    exact List.pairwise_cons.mpr ⟨h.past, h.sorted⟩
  · rw [hlogins, List.head?_cons, Option.mem_some_iff] at hday
    subst hday
    rw [hlogins, hdays]
    split_ifs with hagain hnext
    · exact (h.streak _ hagain).again
    · have hextended := (h.streak _ hnext).extend
      rwa [sub_add_cancel] at hextended
    · refine streak_first fun hmem => ?_
      cases hlast : s.logins.head? with
      | none =>
        rw [List.head?_eq_none_iff.mp hlast] at hmem
        exact absurd hmem List.not_mem_nil
      | some last =>
        have hle := h.le_head hlast hmem
        have hpast := h.past last (List.mem_of_mem_head? hlast)
        rw [hlast, Option.some.injEq] at hagain hnext
        omega

theorem counts_step {offset : Offset} {user : UserId} {s s' : Standing} {i : Contact}
    (h : Counts offset s) (hok : Compares offset s i)
    (hstep : (contacts offset user).step s i = some s') : Counts offset s' := by
  simp only [contacts, Option.ite_none_left_eq_some] at hstep
  obtain ⟨hclock, heq⟩ := hstep
  obtain rfl := Option.some.inj heq
  have hlater := h.later (not_lt.mp hclock)
  by_cases hlogin : ∃ now, i = .login now
  · obtain ⟨now, rfl⟩ := hlogin
    exact counts_login hlater hok
  · have hother : ∀ now, i ≠ .login now := fun now heq => hlogin ⟨now, heq⟩
    obtain ⟨hdays, hlogins, hnow⟩ := @contact_other offset user { s with now := i.now } i hother
    refine ⟨?_, ?_, ?_⟩
    · rw [hlogins, hnow]
      exact hlater.past
    · rw [hlogins]
      exact hlater.sorted
    · rw [hlogins, hdays]
      exact hlater.streak

/-- After every login the days are those in a row that end with the day of the login. -/
theorem login_days_counted {offset : Offset} {user : UserId} {s : Standing}
    (h : (contacts offset user).ReachableUnder (Compares offset) s) :
    ∀ day ∈ s.logins.head?, Streak s.logins day s.consecutiveLoginDays := by
  have hcounts : Counts offset s := by
    refine Machine.reachableUnder_invariant (fun s hs => ?_) (fun s i s' hs hok hstep => ?_) h
    · obtain ⟨-, -, hlogins⟩ := hs
      exact ⟨by simp [hlogins], by simp [hlogins], by simp [hlogins]⟩
    · exact counts_step hs hok hstep
  exact hcounts.streak

/-! ### A week -/

/-- Noon UTC of a day. -/
def noon (day : ℤ) : Instant := day * 86400000000 + 43200000000

def newcomer : Standing :=
  ⟨0, ⟨0, 0, 0, none⟩, 0, fun _ => none, fun _ => none, []⟩

/-- Logins on three days in a row, with other contacts after them. -/
def fewLogins : List Contact :=
  [.login (noon 1), .action .dialog (noon 1), .login (noon 2), .login (noon 2), .action .dialog (noon 2),
    .login (noon 3), .action .replyAgent (noon 3)]

theorem fewLogins_guarded : (contacts 0 7).Guarded (Compares 0) newcomer fewLogins := by decide

theorem fewLogins_ends : ((contacts 0 7).run newcomer fewLogins).any
    (fun s => s.logins = [3, 2, 2, 1] ∧ s.consecutiveLoginDays = 3) = true := by decide

theorem login_days_counted_three : ∃ s, (contacts 0 7).ReachableUnder (Compares 0) s ∧
    s.consecutiveLoginDays = 3 ∧ Streak s.logins 3 3 := by
  obtain ⟨s, hrun, hend⟩ := (Option.any_eq_true _ _).mp fewLogins_ends
  obtain ⟨hlogins, hdays⟩ := of_decide_eq_true hend
  have hreach : (contacts 0 7).ReachableUnder (Compares 0) s :=
    ⟨newcomer, fewLogins, ⟨rfl, rfl, rfl⟩, fewLogins_guarded, hrun⟩
  have hstreak := login_days_counted hreach 3 (by rw [hlogins]; rfl)
  rw [hdays] at hstreak
  exact ⟨s, hreach, hdays, hstreak⟩

/-- A dialog on a day without a login, and then a login. -/
def chatBetween : List Contact := [.login (noon 1), .action .dialog (noon 2), .login (noon 3)]

/-- Two logins in one morning of Shanghai, before the day begins in UTC. -/
def earlyLogins : List Contact := [.login 59000000000, .login 60000000000]

theorem chatBetween_ends : ((contacts 0 7).run newcomer chatBetween).any
    (fun s => s.logins = [3, 1] ∧ s.consecutiveLoginDays = 2) = true := by decide

theorem earlyLogins_ends : ((contacts 28800000000 7).run newcomer earlyLogins).any
    (fun s => s.logins = [1, 1] ∧ s.consecutiveLoginDays = 2) = true := by decide

/-- A dialog counts like a login, and so does a second login of one morning. -/
theorem other_contacts_counted :
    (∃ s, (contacts 0 7).Reachable s ∧ s.logins.head? = some 3 ∧
      ¬Streak s.logins 3 s.consecutiveLoginDays) ∧
    ∃ s, (contacts 28800000000 7).Reachable s ∧ s.logins.head? = some 1 ∧
      ¬Streak s.logins 1 s.consecutiveLoginDays := by
  constructor
  · obtain ⟨s, hrun, hend⟩ := (Option.any_eq_true _ _).mp chatBetween_ends
    obtain ⟨hlogins, hdays⟩ := of_decide_eq_true hend
    refine ⟨s, ⟨newcomer, chatBetween, ⟨rfl, rfl, rfl⟩, hrun⟩, by rw [hlogins]; rfl, fun hstreak => ?_⟩
    have hmissing := hstreak.each 1 (by omega) (by omega)
    rw [hlogins] at hmissing
    exact absurd hmissing (by decide)
  · obtain ⟨s, hrun, hend⟩ := (Option.any_eq_true _ _).mp earlyLogins_ends
    obtain ⟨hlogins, hdays⟩ := of_decide_eq_true hend
    refine ⟨s, ⟨newcomer, earlyLogins, ⟨rfl, rfl, rfl⟩, hrun⟩, by rw [hlogins]; rfl, fun hstreak => ?_⟩
    have hmissing := hstreak.each 1 (by omega) (by omega)
    rw [hlogins] at hmissing
    exact absurd hmissing (by decide)

end CompanionBackend.LoginStreaks
