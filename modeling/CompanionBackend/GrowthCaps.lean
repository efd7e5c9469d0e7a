import CompanionBackend.KeyedSums
import CompanionBackend.GrowthCounters
import CompanionBackend.TaskSystems

/-!
# When the daily caps of growth hold

The counter is not locked between its read and its increment, it expires at midnight UTC
whatever day the server counts, and the row may be written on the next day. In runs where
nothing comes between the read and the increment, no counter has expired when it is used
and every row is written on the day of its counter, no day brings more than its limit.
-/
namespace CompanionBackend.GrowthCaps

open Runs TaskSystems KeyedSums VoiceModels TextGrowth GrowthCounters

variable {zone : Zone}

/-- Points of the rows of this user and action that were created on this day. -/
def bookedOn (zone : Zone) (d : GrowthData) (key : DayKey) : ℤ :=
  sumAt (fun row : GrowthRow => (⟨row.user, row.action, zone row.createdAt⟩ : DayKey))
    GrowthRow.points key d.rows

/-- No day brings more than its limit. -/
def CapsKept (zone : Zone) (d : GrowthData) : Prop :=
  ∀ key : DayKey, bookedOn zone d key ≤ key.action.dailyLimit

/-- The counter, where there is one, has not expired. -/
def Unexpired (c : Counters) (key : DayKey) (now : Instant) : Prop :=
  ∀ found, c key = some found → found.live now

instance decidableUnexpired (c : Counters) (key : DayKey) (now : Instant) :
    Decidable (Unexpired c key now) :=
  match h : c key with
  | none => isTrue (by simp [Unexpired, h])
  | some found => decidable_of_iff (found.live now) (by simp [Unexpired, h])

/-- The counter is unexpired when the call reads it and still as read when the call raises it, and
the row is written on the counter's day. -/
def Undisturbed (zone : Zone) (d : GrowthData) (t : GrowthTask) : GrowthInput → Prop
  | .proceed now =>
    match t with
    | .dated _ key => Unexpired d.newCounters key now
    | .raisingNew a => Unexpired d.newCounters a.key now ∧ d.newCounters.read a.key now = a.seen
    | .booking a => zone now = a.key.day
    | _ => True
  | _ => True

instance decidableUndisturbed (zone : Zone) (d : GrowthData) (t : GrowthTask) (i : GrowthInput) :
    Decidable (Undisturbed zone d t i) :=
  match i with
  | .call _ | .abort => isTrue trivial
  | .proceed now =>
    match t with
    | .dated _ key => inferInstanceAs (Decidable (Unexpired d.newCounters key now))
    | .raisingNew a => inferInstanceAs (Decidable (Unexpired d.newCounters a.key now ∧
        d.newCounters.read a.key now = a.seen))
    | .booking a => inferInstanceAs (Decidable (zone now = a.key.day))
    | .called _ | .opened _ | .missed _ _ | .raisingOld _ | .expiringOld _ | .expiringNew _ =>
      isTrue trivial

/-! ### What counters hold -/

/-- The value under the key, expired or not. -/
def stored (c : Counters) (key : DayKey) : ℤ := ((c key).map Counter.value).getD 0

theorem put_apply (c : Counters) (key k : DayKey) (value : Counter) :
    c.put key value k = if k = key then some value else c k := rfl

theorem read_of_unexpired {c : Counters} {key : DayKey} {now : Instant}
    (h : Unexpired c key now) : c.read key now = (c key).map Counter.value := by
  unfold Counters.read
  cases hc : c key with
  | none => rfl
  | some found => simp [h found hc]

/-- An increment of an unexpired counter adds to what is stored. -/
theorem stored_incrby {c : Counters} {key : DayKey} (points : ℤ) {now : Instant}
    (h : Unexpired c key now) (k : DayKey) :
    stored (c.incrby key points now) k = stored c k + if k = key then points else 0 := by
  unfold Counters.incrby stored
  cases hc : c key with
  | none =>
    simp only [Option.filter_none, put_apply]
    split_ifs with hk
    · simp [hk, hc]
    · simp
  | some found =>
    simp only [Option.filter_some, h found hc, decide_true, if_true, put_apply]
    split_ifs with hk
    · simp [hk, hc]
    · simp

/-- A lifetime changes no value. -/
theorem stored_expire (c : Counters) (key : DayKey) (seconds : ℤ) (now : Instant) (k : DayKey) :
    stored (c.expire key seconds now) k = stored c k := by
  unfold Counters.expire
  split
  · rename_i found hfound
    have hc : c key = some found := (Option.filter_eq_some_iff.mp hfound).1
    unfold stored
    rw [put_apply]
    split_ifs with hk
    · simp [hk, hc]
    · rfl
  · rfl

/-! ### What calls carry -/

/-- Points that are in the counter and not yet in the rows. -/
def pending : GrowthTask → DayKey → ℤ
  | .expiringNew a, key | .booking a, key => if a.key = key then a.points else 0
  | _, _ => 0

/-- An award fits on what its call has read. -/
def Fitting (a : Award) : Prop :=
  0 < a.points ∧ a.seen.getD 0 + a.points ≤ a.key.action.dailyLimit

def Sound : GrowthTask → Prop
  | .raisingOld a | .expiringOld a | .raisingNew a | .expiringNew a | .booking a => Fitting a
  | _ => True

theorem pending_nonneg {t : GrowthTask} (h : Sound t) (key : DayKey) : 0 ≤ pending t key := by
  cases t with
  | expiringNew a =>
    have := h.1
    simp only [pending]
    split_ifs <;> omega
  | booking a =>
    have := h.1
    simp only [pending]
    split_ifs <;> omega
  | _ => exact le_rfl

theorem carried_nonneg {tasks : List GrowthTask} (h : ∀ t ∈ tasks, Sound t) (key : DayKey) :
    0 ≤ (tasks.map pending).sum key := by
  induction tasks with
  | nil => exact le_rfl
  | cons t tasks ih =>
    rw [List.forall_mem_cons] at h
    rw [List.map_cons, List.sum_cons]
    exact add_nonneg (pending_nonneg h.1 key) (ih h.2)

/-- The rows and what calls carry are in the counters, and no counter is above its limit. -/
def Counted (zone : Zone) (d : GrowthData) (carried : DayKey → ℤ) : Prop :=
  ∀ key, bookedOn zone d key + carried key ≤ stored d.newCounters key ∧
    stored d.newCounters key ≤ key.action.dailyLimit

theorem dailyLimit_nonneg (action : GrowthAction) : 0 ≤ action.dailyLimit := by
  cases action <;> decide

@[simp] theorem release_rows (d : GrowthData) (t : GrowthTask) : (d.release t).rows = d.rows := by
  unfold GrowthData.release
  split <;> rfl

@[simp] theorem release_newCounters (d : GrowthData) (t : GrowthTask) :
    (d.release t).newCounters = d.newCounters := by
  unfold GrowthData.release
  split <;> rfl

/-- Neither rows nor counters changed. -/
theorem Counted.of_same {d d' : GrowthData} {carried : DayKey → ℤ} (h : Counted zone d carried)
    (hrows : d'.rows = d.rows) (hcounters : d'.newCounters = d.newCounters) :
    Counted zone d' carried := by
  intro key
  rw [bookedOn, hrows, hcounters]
  exact h key

/-- Less is carried than before. -/
theorem Counted.drop {d : GrowthData} {carried carried' : DayKey → ℤ}
    (h : Counted zone d carried) (hle : ∀ key, carried' key ≤ carried key) :
    Counted zone d carried' := by
  intro key
  have := h key
  have := hle key
  omega

/-- An award of a call fits on what the call read. -/
theorem fitting_decided {action : GrowthAction} {days current ttl : ℤ} {key : DayKey}
    {seen : Option ℤ} (haction : key.action = action) (hcurrent : ¬action.dailyLimit ≤ current)
    (hseen : seen = some current ∨ seen = none) :
    Fitting ⟨key, seen, actualTextPoints action days current, ttl⟩ := by
  have hbelow : current < action.dailyLimit := by omega
  obtain ⟨hpos, hlimit, hsum⟩ : 0 < actualTextPoints action days current ∧ _ :=
    actualTextPoints_bounds hbelow
  subst haction
  rcases hseen with rfl | rfl
  · exact ⟨hpos, hsum⟩
  · refine ⟨hpos, ?_⟩
    simpa using hlimit

/-- What a step leaves behind: the data and the calls. -/
structure StepKept (zone : Zone) (d' : GrowthData) (ts : List GrowthTask) (rest : DayKey → ℤ) :
    Prop where
  counted : Counted zone d' ((ts.map pending).sum + rest)
  sound : ∀ t ∈ ts, Sound t

theorem stepKept_single {d' : GrowthData} {t : GrowthTask} {rest : DayKey → ℤ}
    (hcounted : Counted zone d' (pending t + rest)) (hsound : Sound t) :
    StepKept zone d' [t] rest :=
  ⟨by simpa using hcounted, by simpa using hsound⟩

theorem stepKept_over {d' : GrowthData} {rest : DayKey → ℤ} (hcounted : Counted zone d' rest) :
    StepKept zone d' [] rest := ⟨by simpa using hcounted, by simp⟩

theorem stepKept_decided {d : GrowthData} {t : GrowthTask} {r : GrowthRequest} {key : DayKey}
    {seen : Option ℤ} {current : ℤ} {rest : DayKey → ℤ} (hcounted : Counted zone d rest)
    (hseen : seen = some current ∨ seen = none) :
    StepKept zone (d.decideAward t r key seen current).1 (d.decideAward t r key seen current).2
      rest := by
  unfold GrowthData.decideAward
  split_ifs with hlimit
  · exact stepKept_over (hcounted.of_same (release_rows d t) (release_newCounters d t))
  · refine stepKept_single ?_ (fitting_decided rfl hlimit hseen)
    have hzero : pending (.raisingOld ⟨key, seen, actualTextPoints key.action r.consecutiveLoginDays
        current, secondsUntilMidnight d.now⟩) = 0 := rfl
    rwa [hzero, zero_add]

/-- The increment of the new counter moves the award into what is carried. -/
theorem counted_raised {d : GrowthData} {a : Award} {rest : DayKey → ℤ}
    (h : Counted zone d rest) (hfits : Fitting a)
    (hfree : Unexpired d.newCounters a.key d.now)
    (hseen : d.newCounters.read a.key d.now = a.seen) :
    Counted zone { d with newCounters := d.newCounters.incrby a.key a.points d.now }
      (pending (.expiringNew a) + rest) := by
  intro key
  have hold := h key
  have hstored := stored_incrby a.points hfree key
  have hread : stored d.newCounters a.key = a.seen.getD 0 := by
    rw [← hseen, read_of_unexpired hfree, stored]
  change bookedOn zone d key + (pending (.expiringNew a) key + rest key) ≤ _ ∧ _
  dsimp only
  rw [hstored]
  by_cases hkey : key = a.key
  · subst hkey
    have hlimit := hfits.2
    rw [← hread] at hlimit
    simp only [pending, if_true]
    omega
  · simp only [pending, if_neg hkey, if_neg (Ne.symm hkey)]
    omega

/-- The row takes over what was carried. -/
theorem counted_booked {d : GrowthData} {a : Award} {rest : DayKey → ℤ} {now : Instant}
    (h : Counted zone d (pending (.booking a) + rest)) (hday : zone now = a.key.day) :
    Counted zone { d with rows := d.rows ++ [⟨a.key.user, a.key.action, a.points, now⟩] } rest := by
  intro key
  have hold := h key
  change bookedOn zone d key + (pending (.booking a) key + rest key) ≤ _ ∧ _ at hold
  have hbooked : bookedOn zone
      { d with rows := d.rows ++ [⟨a.key.user, a.key.action, a.points, now⟩] } key =
      bookedOn zone d key + pending (.booking a) key := by
    simp only [bookedOn, sumAt_append, sumAt_cons, sumAt_nil, hday, pending, add_zero]
  rw [hbooked]
  dsimp only
  omega

theorem proceed_kept {d d' : GrowthData} {t : GrowthTask} {ts : List GrowthTask}
    {rest : DayKey → ℤ} (hsound : Sound t) (hok : Undisturbed zone d t (.proceed d.now))
    (h : d.proceed zone t = some (d', ts)) (hcounted : Counted zone d (pending t + rest)) :
    StepKept zone d' ts rest := by
  have hquiet : pending t = 0 → Counted zone d rest := by
    intro hzero
    rwa [hzero, zero_add] at hcounted
  cases t with
  | called r =>
    simp only [GrowthData.proceed] at h
    split_ifs at h with hlogin hlocked
    · obtain ⟨rfl, rfl⟩ := Prod.mk.inj (Option.some.inj h)
      exact stepKept_single (hcounted.of_same rfl rfl) trivial
    · obtain ⟨rfl, rfl⟩ := Prod.mk.inj (Option.some.inj h)
      exact stepKept_single hcounted trivial
  | opened r =>
    obtain ⟨rfl, rfl⟩ := Prod.mk.inj (Option.some.inj h)
    exact stepKept_single hcounted trivial
  | dated r key =>
    have hrest := hquiet rfl
    simp only [GrowthData.proceed] at h
    split at h
    · obtain ⟨rfl, rfl⟩ := Prod.mk.inj (Option.some.inj h)
      exact stepKept_decided hrest (.inl rfl)
    · obtain ⟨rfl, rfl⟩ := Prod.mk.inj (Option.some.inj h)
      exact stepKept_single hcounted hsound
  | missed r key =>
    obtain ⟨rfl, rfl⟩ := Prod.mk.inj (Option.some.inj h)
    exact stepKept_decided (hquiet rfl) (.inr rfl)
  | raisingOld a =>
    obtain ⟨rfl, rfl⟩ := Prod.mk.inj (Option.some.inj h)
    exact stepKept_single (hcounted.of_same rfl rfl) hsound
  | expiringOld a =>
    obtain ⟨rfl, rfl⟩ := Prod.mk.inj (Option.some.inj h)
    exact stepKept_single (hcounted.of_same rfl rfl) hsound
  | raisingNew a =>
    obtain ⟨rfl, rfl⟩ := Prod.mk.inj (Option.some.inj h)
    exact stepKept_single (counted_raised (hquiet rfl) hsound hok.1 hok.2) hsound
  | expiringNew a =>
    obtain ⟨rfl, rfl⟩ := Prod.mk.inj (Option.some.inj h)
    refine stepKept_single (fun key => ?_) hsound
    dsimp only
    rw [stored_expire]
    exact hcounted key
  | booking a =>
    simp only [GrowthData.proceed] at h
    split_ifs at h with hlock
    obtain ⟨rfl, rfl⟩ := Prod.mk.inj (Option.some.inj h)
    exact stepKept_over ((counted_booked hcounted hok).of_same (release_rows ..)
      (release_newCounters ..))

theorem counted_initial {d : GrowthData} (h : (growthSystem zone).initial d) :
    Counted zone d 0 := by
  obtain ⟨hrows, -, hcounters⟩ := h
  intro key
  have := dailyLimit_nonneg key.action
  simpa [bookedOn, hrows, stored, hcounters] using this

theorem accept_quiet {d : GrowthData} {i : GrowthInput} {ts : List GrowthTask}
    (h : (growthSystem zone).accept d i = some ts) :
    (ts.map pending).sum = 0 ∧ ∀ t ∈ ts, Sound t := by
  cases i with
  | call r =>
    obtain rfl := Option.some.inj h
    exact ⟨add_zero _, by simp [Sound]⟩
  | proceed now => simp [growthSystem] at h
  | abort => simp [growthSystem] at h

theorem advance_kept {d d' : GrowthData} {t : GrowthTask} {i : GrowthInput}
    {ts : List GrowthTask} {rest : DayKey → ℤ} (hsound : Sound t) (hok : Undisturbed zone d t i)
    (h : (growthSystem zone).advance d t i = some (d', ts))
    (hcounted : Counted zone d (pending t + rest)) : StepKept zone d' ts rest := by
  cases i with
  | call r => simp [growthSystem] at h
  | abort =>
    obtain ⟨rfl, rfl⟩ := Prod.mk.inj (Option.some.inj h)
    refine stepKept_over ((hcounted.drop fun key => ?_).of_same (release_rows d t)
      (release_newCounters d t))
    exact le_add_of_nonneg_left (pending_nonneg hsound key)
  | proceed now =>
    simp only [growthSystem] at h
    split_ifs at h with hback
    exact proceed_kept (d := { d with now := now }) hsound hok h (hcounted.of_same rfl rfl)

/-- In an undisturbed run no day brings more than its limit. -/
theorem growth_caps_kept (zone : Zone) {w : World GrowthData GrowthTask}
    (hw : (growthSystem zone).machine.ReachableUnder (TaskSystem.guard (Undisturbed zone)) w) :
    CapsKept zone w.data := by
  obtain ⟨hcounted, hsound⟩ := TaskSystem.reachableUnder_balance pending (B := Counted zone)
    (T := fun _ => Sound) (fun _ => counted_initial) (fun _ _ _ => accept_quiet)
    (fun _ _ _ _ _ _ _ hsound => hsound) (fun _ _ _ _ _ _ hsound hok h hcounted =>
      let hkept := advance_kept hsound hok h hcounted
      ⟨hkept.counted, hkept.sound⟩) hw
  intro key
  have := carried_nonneg hsound key
  have := hcounted key
  omega

/-! ### Two long sessions at once -/

/-- A server on UTC. -/
def utcDays : Zone := fun t => t / 86400000000

def quietData : GrowthData := ⟨0, fun _ => none, fun _ => none, [], []⟩

def longSessionOf (user : UserId) : Input GrowthInput := .request (.call ⟨user, .longSession, 0⟩)

/-- Both calls read the counter before either raises it. -/
def overlappingCalls : List (Input GrowthInput) :=
  [longSessionOf 7, longSessionOf 7] ++
    List.replicate 8 (.task 0 (.proceed 1000000)) ++
    List.replicate 10 (.task 0 (.proceed 2000000))

theorem caps_broken :
    ¬ ∀ (zone : Zone) (w : World GrowthData GrowthTask),
      (growthSystem zone).machine.Reachable w → CapsKept zone w.data := by
  intro h
  have hkept := h utcDays ((growthSystem utcDays).machine.after ⟨quietData, []⟩ overlappingCalls)
    (Machine.reachable_after ⟨⟨rfl, rfl, fun _ => rfl⟩, rfl⟩ (by decide))
    ⟨7, .longSession, 0⟩
  exact absurd hkept (by decide)

/-- One call after the other. -/
def successiveCalls : List (Input GrowthInput) :=
  longSessionOf 7 :: List.replicate 9 (.task 0 (.proceed 1000000)) ++
    longSessionOf 7 :: List.replicate 3 (.task 0 (.proceed 2000000))

theorem growth_caps_kept_successive :
    CapsKept utcDays
      ((growthSystem utcDays).machine.after ⟨quietData, []⟩ successiveCalls).data :=
  growth_caps_kept utcDays (Machine.reachableUnder_after ⟨⟨rfl, rfl, fun _ => rfl⟩, rfl⟩
    (by decide) (by decide))

end CompanionBackend.GrowthCaps
