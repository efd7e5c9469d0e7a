import CompanionBackend.ScheduleWindows

/-!
# Resolver and worker agree on windows

The resolver finds the next opening among three days, the worker from the openings of its windows
on one day. Both find the same, unless a datetime leaves the calendar on the way.
-/
namespace CompanionBackend.FollowupSchedules

open Runs ProviderEvents Dictionaries CapabilityRules DailyWindows
open FollowupJobs (dayMicros shanghaiOffset windowBounds)

theorem day_pos : 0 < dayMicros := by decide

theorem mapM_ok {α β ε : Type} {f : α → Except ε β} {R : α → β → Prop}
    (hf : ∀ {x y}, R x y → f x = .ok y) {xs : List α} {ys : List β} (h : List.Forall₂ R xs ys) :
    xs.mapM f = .ok ys := by
  induction h with
  | nil => rfl
  | cons hxy _ ih =>
    rw [List.mapM_cons, hf hxy, ih]
    rfl

theorem readWindows_eq {P : Platform} {high : ℤ} {windows : List Json} {ms : List (ℕ × ℕ)}
    (h : List.Forall₂ (GoodWindow P high) windows ms) :
    windows.mapM (readWindow P) = .ok ms :=
  mapM_ok (fun hw => readWindow_eq hw.bounds) h

/-! ### Open windows and openings of the code -/

/-- A window of the day of an instant holds it. -/
def holds (t : ℤ) (m : ℕ × ℕ) : Bool :=
  decide ((bounds (t / dayMicros) m).1 ≤ t ∧ t < (bounds (t / dayMicros) m).2)

theorem holds_iff {t : ℤ} {m : ℕ × ℕ} : holds t m = true ↔
    (microWindow m).1 ≤ t % dayMicros ∧ t % dayMicros < (microWindow m).2 := by
  unfold holds
  rw [decide_eq_true_iff]
  simp only [bounds, microWindow, dayMicros]
  omega

theorem open_iff_holds {t : ℤ} {ms : List (ℕ × ℕ)}
    (hws : ∀ w ∈ ms.map microWindow, Within dayMicros w) :
    Open dayMicros (ms.map microWindow) t ↔ ∃ m ∈ ms, holds t m = true := by
  rw [open_iff day_pos hws]
  constructor
  · rintro ⟨w, hw, hholds⟩
    obtain ⟨m, hm, rfl⟩ := List.mem_map.mp hw
    exact ⟨m, hm, holds_iff.mpr hholds⟩
  · rintro ⟨m, hm, hholds⟩
    exact ⟨microWindow m, List.mem_map_of_mem hm, holds_iff.mp hholds⟩

/-- The first time that a window begins is today or tomorrow. -/
theorem openingAfter_bounds (t : ℤ) (m : ℕ × ℕ) :
    openingAfter dayMicros (microWindow m).1 t =
      if t < (bounds (t / dayMicros) m).1 then (bounds (t / dayMicros) m).1
      else (bounds (t / dayMicros + 1) m).1 := by
  simp only [openingAfter, bounds, microWindow, dayMicros]
  split_ifs <;> omega

theorem opens_bounds {ms : List (ℕ × ℕ)} {m : ℕ × ℕ} (hm : m ∈ ms) (day : ℤ) :
    Opens dayMicros (ms.map microWindow) (bounds day m).1 :=
  ⟨microWindow m, List.mem_map_of_mem hm, day, by simp only [bounds, microWindow]; ring⟩

/-! ### The resolver -/

theorem checkedDay_eq (day : ℤ) :
    checkedDay day = if InRange (day * dayMicros) then .ok day else .error .overflowError := rfl

theorem inRange_day {t : ℤ} (h : InRange t) : InRange (t / dayMicros * dayMicros) := by
  unfold InRange minWall maxWall dayMicros at *
  omega

/-- The windows of the day of an instant and of the two days behind it that begin later. -/
def laterWindows (normalized : List (ℕ × ℕ)) (t : ℤ) : List (ℤ × ℤ) :=
  (([0, 1, 2].map fun k : ℤ => t / dayMicros + k).flatMap fun day =>
    normalized.map (bounds day)).filter fun w => t < w.1

/-- The three days are in the calendar if the last one is. -/
theorem futureWindows_eq (normalized : List (ℕ × ℕ)) {t : ℤ} (ht : InRange t) :
    futureWindows normalized t =
      if InRange ((t / dayMicros + 2) * dayMicros) then .ok (laterWindows normalized t)
      else .error .overflowError := by
  have h₀ : InRange ((t / dayMicros + 0) * dayMicros) := by simpa using inRange_day ht
  unfold futureWindows
  rw [List.mapM_cons, List.mapM_cons, List.mapM_cons, List.mapM_nil, checkedDay_eq, if_pos h₀,
    checkedDay_eq, checkedDay_eq]
  by_cases h₂ : InRange ((t / dayMicros + 2) * dayMicros)
  · have h₁ : InRange ((t / dayMicros + 1) * dayMicros) := by
      unfold InRange minWall maxWall dayMicros at *
      omega
    rw [if_pos h₁, if_pos h₂, if_pos h₂]
    rfl
  · rw [if_neg h₂, if_neg h₂]
    split_ifs <;> rfl

theorem mem_laterWindows {ms normalized : List (ℕ × ℕ)} (hperm : normalized.Perm ms) {t : ℤ}
    {w : ℤ × ℤ} (h : w ∈ laterWindows normalized t) :
    ∃ m ∈ ms, ∃ day, w = bounds day m ∧ t < w.1 := by
  obtain ⟨hmem, hlater⟩ := List.mem_filter.mp h
  obtain ⟨day, -, hmem⟩ := List.mem_flatMap.mp hmem
  obtain ⟨m, hm, rfl⟩ := List.mem_map.mp hmem
  exact ⟨m, hperm.mem_iff.mp hm, day, rfl, of_decide_eq_true hlater⟩

/-- The openings of three days hold the first one of each window. -/
theorem opening_mem_laterWindows {ms normalized : List (ℕ × ℕ)} (hperm : normalized.Perm ms)
    {t : ℤ} {m : ℕ × ℕ} (hm : m ∈ ms) :
    openingAfter dayMicros (microWindow m).1 t ∈ (laterWindows normalized t).map Prod.fst := by
  have hlater : t < openingAfter dayMicros (microWindow m).1 t :=
    lt_openingAfter day_pos (by simp only [microWindow, minuteMicros]; omega)
  have hmem := hperm.mem_iff.mpr hm
  rw [openingAfter_bounds] at hlater ⊢
  rw [List.mem_map]
  split_ifs at hlater ⊢
  · refine ⟨bounds (t / dayMicros) m, List.mem_filter.mpr ⟨?_, by simpa using hlater⟩, rfl⟩
    exact List.mem_flatMap.mpr ⟨_, by simp, List.mem_map_of_mem hmem⟩
  · refine ⟨bounds (t / dayMicros + 1) m, List.mem_filter.mpr ⟨?_, by simpa using hlater⟩, rfl⟩
    exact List.mem_flatMap.mpr ⟨t / dayMicros + 1, by simp, List.mem_map_of_mem hmem⟩

/-- The first of the later windows opens next. -/
theorem head_laterWindows {ms normalized : List (ℕ × ℕ)} (hperm : normalized.Perm ms)
    (hws : ∀ w ∈ ms.map microWindow, Within dayMicros w) {t : ℤ} {window : ℤ × ℤ}
    {rest : List (ℤ × ℤ)}
    (h : (laterWindows normalized t).insertionSort (fun a b => a.1 ≤ b.1) = window :: rest) :
    NextOpening dayMicros (ms.map microWindow) t window.1 := by
  have hsortedPerm :=
    List.perm_insertionSort (fun a b : ℤ × ℤ => a.1 ≤ b.1) (laterWindows normalized t)
  have hsorted :=
    List.pairwise_insertionSort (fun a b : ℤ × ℤ => a.1 ≤ b.1) (laterWindows normalized t)
  rw [h] at hsortedPerm hsorted
  have hmem : window ∈ laterWindows normalized t := hsortedPerm.mem_iff.mp List.mem_cons_self
  have hopens : ∀ u ∈ (laterWindows normalized t).map Prod.fst,
      t < u ∧ Opens dayMicros (ms.map microWindow) u := by
    intro u hu
    obtain ⟨w, hw, rfl⟩ := List.mem_map.mp hu
    obtain ⟨m, hm, day, rfl, hlater⟩ := mem_laterWindows hperm hw
    exact ⟨hlater, opens_bounds hm day⟩
  have hall : ∀ w ∈ ms.map microWindow,
      openingAfter dayMicros w.1 t ∈ (laterWindows normalized t).map Prod.fst := by
    intro w hw
    obtain ⟨m, hm, rfl⟩ := List.mem_map.mp hw
    exact opening_mem_laterWindows hperm hm
  refine nextOpening_of_least day_pos hws hopens hall (List.mem_map_of_mem hmem) fun u hu => ?_
  obtain ⟨w, hw, rfl⟩ := List.mem_map.mp hu
  rcases List.mem_cons.mp (hsortedPerm.mem_iff.mpr hw) with rfl | hw
  · exact le_rfl
  · exact List.rel_of_pairwise_cons hsorted hw

/-- There is a later window if there is any. -/
theorem laterWindows_sorted {ms normalized : List (ℕ × ℕ)} (hperm : normalized.Perm ms)
    (hms : ms ≠ []) (t : ℤ) :
    ∃ window rest, (laterWindows normalized t).insertionSort (fun a b => a.1 ≤ b.1) =
      window :: rest := by
  obtain ⟨m, hm⟩ := List.exists_mem_of_ne_nil ms hms
  obtain ⟨w, hw, -⟩ := List.mem_map.mp (opening_mem_laterWindows (t := t) hperm hm)
  refine List.exists_cons_of_ne_nil fun hnil => ?_
  have hperm' :=
    List.perm_insertionSort (fun a b : ℤ × ℤ => a.1 ≤ b.1) (laterWindows normalized t)
  rw [hnil] at hperm'
  exact List.not_mem_nil (hperm'.mem_iff.mpr hw)

/-! ### What is resolved -/

/-- The moment that follows from the windows: the candidate in an open window, else behind the next
opening by the jitter. -/
def DueAt (ws : List Window) (candidate jitter due : ℤ) : Prop :=
  (Open dayMicros ws candidate ∧ due = candidate) ∨
    (¬Open dayMicros ws candidate ∧
      ∃ o, NextOpening dayMicros ws candidate o ∧ due = o + jitter * minuteMicros)

/-- The answer is this moment, or a cancellation if it is more than a day away. -/
def Answers (candidate due : ℤ) (r : Resolution) : Prop :=
  if due ≤ candidate + dayMicros then r.resolvedDueAt = some due ∧ r.cancelReason = none
  else r.resolvedDueAt = none ∧ r.cancelReason = some "max_delay_exceeded"

/-- The days that the resolver looks at are in the calendar. -/
def Foreseen (ws : List Window) (candidate : ℤ) : Prop :=
  Open dayMicros ws candidate ∨ InRange ((candidate / dayMicros + 2) * dayMicros)

theorem day_le_of_next {ms : List (ℕ × ℕ)} (hws : ∀ w ∈ ms.map microWindow, Within dayMicros w)
    {t o : ℤ} (h : NextOpening dayMicros (ms.map microWindow) t o) :
    o ≤ (t / dayMicros + 2) * dayMicros - minuteMicros := by
  obtain ⟨w, hw, -⟩ := h.opens
  obtain ⟨m, hm, rfl⟩ := List.mem_map.mp hw
  have hle : o ≤ openingAfter dayMicros (microWindow m).1 t := by
    have hlater : t < openingAfter dayMicros (microWindow m).1 t :=
      lt_openingAfter day_pos (by simp only [microWindow, minuteMicros]; omega)
    obtain ⟨k, hk⟩ := openingAfter_eq dayMicros (microWindow m).1 t
    exact h.first _ hlater ⟨_, hw, k, hk⟩
  obtain ⟨-, hlt, hday⟩ := hws _ hw
  unfold openingAfter at hle
  simp only [microWindow, minuteMicros, dayMicros] at *
  split_ifs at hle <;> omega

theorem followupDelayWithinLimit_iff {candidate due : ℤ} :
    followupDelayWithinLimit candidate due 24 = true ↔ due ≤ candidate + dayMicros := by
  unfold followupDelayWithinLimit
  rw [decide_eq_true_iff]
  simp only [minuteMicros, dayMicros]
  omega

section Resolver

variable {P : Platform} {schedule : Json} {low high : ℤ} {windows : List Json} {ms : List (ℕ × ℕ)}
  {input : PreviewInput} {candidate : ℤ}

theorem resolve_open (hwindows : stageWindows schedule input.stage = .ok windows)
    (h : StageWindows P high windows ms)
    (hopen : Open dayMicros (ms.map microWindow) candidate) :
    ∃ r, resolveCandidate P schedule input candidate = .ok r ∧ r.resolvedDueAt = some candidate ∧
      r.cancelReason = none := by
  have hperm := List.perm_insertionSort (fun a b => pairLe a b = true) ms
  obtain ⟨m, hm, hholds⟩ := (open_iff_holds (within_day h.good)).mp hopen
  unfold resolveCandidate
  rw [hwindows]
  simp only [bind, Except.bind, readWindows_eq h.good]
  split
  · exact ⟨_, rfl, rfl, rfl⟩
  · rename_i hnone
    have hnot := List.find?_eq_none.mp hnone (bounds (candidate / dayMicros) m)
      (List.mem_map_of_mem (hperm.mem_iff.mpr hm))
    exact absurd hholds hnot

theorem resolve_shut (hwindows : stageWindows schedule input.stage = .ok windows)
    (h : StageWindows P high windows ms) (hdelay : maxDelayHours schedule = .ok 24)
    (hin : InRange candidate) (hjitter : 0 ≤ input.jitter ∧ input.jitter ≤ 20)
    (hshut : ¬Open dayMicros (ms.map microWindow) candidate) :
    if InRange ((candidate / dayMicros + 2) * dayMicros) then
      ∃ r o, resolveCandidate P schedule input candidate = .ok r ∧
        NextOpening dayMicros (ms.map microWindow) candidate o ∧
        InRange (o + input.jitter * minuteMicros) ∧
        Answers candidate (o + input.jitter * minuteMicros) r
    else resolveCandidate P schedule input candidate = .error .overflowError := by
  have hperm := List.perm_insertionSort (fun a b => pairLe a b = true) ms
  have hws := within_day h.good
  have hnone : ((ms.insertionSort fun a b => pairLe a b = true).map
      (bounds (candidate / dayMicros))).find? (fun w =>
        decide (w.1 ≤ candidate ∧ candidate < w.2)) = none := by
    refine List.find?_eq_none.mpr fun w hw hholds => hshut ?_
    obtain ⟨m, hm, rfl⟩ := List.mem_map.mp hw
    exact (open_iff_holds hws).mpr ⟨m, hperm.mem_iff.mp hm, hholds⟩
  have hms : ms ≠ [] := by
    rintro rfl
    exact h.some (List.forall₂_nil_right_iff.mp h.good)
  unfold resolveCandidate
  rw [hwindows]
  simp only [bind, Except.bind, readWindows_eq h.good, hnone, futureWindows_eq _ hin]
  split_ifs with hroom
  · obtain ⟨window, rest, hsort⟩ := laterWindows_sorted hperm hms candidate
    have hnext := head_laterWindows hperm hws hsort
    have hday := day_le_of_next hws hnext
    have hlater := hnext.later
    have hdue : InRange (window.1 + input.jitter * minuteMicros) := by
      unfold InRange minWall maxWall at *
      simp only [minuteMicros, dayMicros] at *
      omega
    simp only [hsort, checked, if_pos hdue, hdelay]
    by_cases hlimit : window.1 + input.jitter * minuteMicros ≤ candidate + dayMicros
    · rw [if_pos (followupDelayWithinLimit_iff.mpr hlimit)]
      exact ⟨_, window.1, rfl, hnext, hdue, by simp only [Answers, if_pos hlimit, and_self]⟩
    · rw [if_neg (mt followupDelayWithinLimit_iff.mp hlimit)]
      exact ⟨_, window.1, rfl, hnext, hdue, by simp only [Answers, if_neg hlimit, and_self]⟩
  · rfl

end Resolver

/-! ### What the worker finds -/

/-- The window is not open at that reading of the clock. -/
def shutAt (here : ℤ) (w : Window) : Bool :=
  decide ¬(w.1 ≤ here % dayMicros ∧ here % dayMicros < w.2)

/-- No window that is over is looked at on the last day of the calendar, except behind one that is
open. -/
def Passable (ws : List Window) (here : ℤ) : Prop :=
  ∀ w ∈ ws.takeWhile (shutAt here),
    here % dayMicros < w.1 ∨ InRange ((here / dayMicros + 1) * dayMicros)

theorem passable_cons_of_holds {here : ℤ} {m : ℕ × ℕ} {ms : List (ℕ × ℕ)}
    (h : holds here m = true) : Passable ((m :: ms).map microWindow) here := by
  unfold Passable
  rw [List.map_cons, List.takeWhile_cons_of_neg (by simpa [shutAt] using holds_iff.mp h)]
  exact fun w hw => absurd hw List.not_mem_nil

theorem passable_cons {here : ℤ} {m : ℕ × ℕ} {ms : List (ℕ × ℕ)} (h : holds here m = false) :
    Passable ((m :: ms).map microWindow) here ↔
      (here % dayMicros < (microWindow m).1 ∨ InRange ((here / dayMicros + 1) * dayMicros)) ∧
        Passable (ms.map microWindow) here := by
  have hnot : ¬((microWindow m).1 ≤ here % dayMicros ∧ here % dayMicros < (microWindow m).2) :=
    fun hin => by simp [holds_iff.mpr hin] at h
  have hpos : shutAt here (microWindow m) = true := decide_eq_true hnot
  unfold Passable
  rw [List.map_cons, List.takeWhile_cons_of_pos hpos, List.forall_mem_cons]

/-- The opening of one window, as the loop computes it. -/
theorem next_eq {here : ℤ} {m : ℕ × ℕ} (hin : InRange here) (hm : m.1 < m.2 ∧ m.2 < 1440) :
    nextOf here (bounds (here / dayMicros) m).1 =
      if here % dayMicros < (microWindow m).1 ∨ InRange ((here / dayMicros + 1) * dayMicros) then
        .ok (openingAfter dayMicros (microWindow m).1 here)
      else .error Raised.overflowError := by
  have hahead : here < (bounds (here / dayMicros) m).1 ↔ here % dayMicros < (microWindow m).1 := by
    simp only [bounds, microWindow, dayMicros]
    omega
  have htomorrow : (bounds (here / dayMicros) m).1 + dayMicros =
      (bounds (here / dayMicros + 1) m).1 := by
    simp only [bounds, dayMicros]
    omega
  have hroom : InRange (bounds (here / dayMicros + 1) m).1 ↔
      InRange ((here / dayMicros + 1) * dayMicros) := by
    simp only [InRange, minWall, maxWall, bounds, minuteMicros, dayMicros] at *
    omega
  unfold nextOf
  by_cases htoday : here < (bounds (here / dayMicros) m).1
  · rw [if_pos htoday, if_pos (.inl (hahead.mp htoday)), openingAfter_bounds, if_pos htoday]
  · rw [if_neg htoday, checked, htomorrow]
    by_cases hfits : InRange ((here / dayMicros + 1) * dayMicros)
    · rw [if_pos (hroom.mpr hfits), if_pos (.inr hfits), openingAfter_bounds, if_neg htoday]
    · rw [if_neg (mt hroom.mp hfits), if_neg]
      rintro (h | h)
      · exact htoday (hahead.mpr h)
      · exact hfits h

/-- An opening ahead of a reading in Shanghai is one of UTC as well. -/
theorem checked_utc {here next : ℤ} (hlow : minWall + shanghaiOffset ≤ here) (hnext : here < next)
    (hin : InRange next) : checked (next - shanghaiOffset) = .ok (next - shanghaiOffset) := by
  have hutc : InRange (next - shanghaiOffset) := by
    simp only [InRange, minWall, maxWall, shanghaiOffset] at *
    omega
  rw [checked, if_pos hutc]

theorem inRange_opening {here : ℤ} {m : ℕ × ℕ} (hin : InRange here) (hm : m.1 < m.2 ∧ m.2 < 1440)
    (h : here % dayMicros < (microWindow m).1 ∨ InRange ((here / dayMicros + 1) * dayMicros)) :
    InRange (openingAfter dayMicros (microWindow m).1 here) := by
  unfold openingAfter
  simp only [InRange, minWall, maxWall, microWindow, minuteMicros, dayMicros] at *
  split_ifs <;> omega

/-- What the loop ends with, for the openings collected so far. -/
theorem nextWindowLoop_eq {P : Platform} {high here : ℤ} {windows : List Json}
    {ms : List (ℕ × ℕ)} (h : List.Forall₂ (GoodWindow P high) windows ms) (hin : InRange here)
    (hlow : minWall + shanghaiOffset ≤ here) (future : List ℤ) :
    (Passable (ms.map microWindow) here → nextWindowLoop P here windows future =
      if ms.any (holds here) then .ok none
      else orRaise ((future ++ ms.map fun m => openingAfter dayMicros (microWindow m).1 here -
        shanghaiOffset).min?.map some) (.valueError "min() arg is an empty sequence")) ∧
    (¬Passable (ms.map microWindow) here →
      nextWindowLoop P here windows future = .error .overflowError) := by
  induction h generalizing future with
  | nil => exact ⟨fun _ => by simp [nextWindowLoop], fun hnot => absurd (by simp [Passable]) hnot⟩
  | @cons window m windows ms hw hws ih =>
    have hm : m.1 < m.2 ∧ m.2 < 1440 := ⟨hw.ordered, hw.inDay⟩
    have hstart : here - here % dayMicros + m.1 * minuteMicros =
        (bounds (here / dayMicros) m).1 := by
      simp only [bounds, dayMicros]
      omega
    have hstop : here - here % dayMicros + m.2 * minuteMicros =
        (bounds (here / dayMicros) m).2 := by
      simp only [bounds, dayMicros]
      omega
    unfold nextWindowLoop
    simp only [hw.bounds, hstart, hstop]
    cases hholds : holds here m with
    | true =>
      rw [if_pos (of_decide_eq_true hholds)]
      exact ⟨fun _ => by simp [hholds], fun hnot => absurd (passable_cons_of_holds hholds) hnot⟩
    | false =>
      rw [if_neg (of_decide_eq_false hholds), passable_cons hholds, next_eq hin hm]
      by_cases hpass : here % dayMicros < (microWindow m).1 ∨
          InRange ((here / dayMicros + 1) * dayMicros)
      · have hlater : here < openingAfter dayMicros (microWindow m).1 here :=
          lt_openingAfter day_pos (by simp only [microWindow, minuteMicros]; omega)
        rw [if_pos hpass]
        simp only [bind, Except.bind, checked_utc hlow hlater (inRange_opening hin hm hpass)]
        obtain ⟨hok, hover⟩ := ih (future ++
          [openingAfter dayMicros (microWindow m).1 here - shanghaiOffset])
        refine ⟨fun h => ?_, fun h => hover fun hrest => h ⟨hpass, hrest⟩⟩
        rw [hok h.2]
        simp only [List.any_cons, hholds, Bool.false_or, List.map_cons, List.append_assoc,
          List.cons_append, List.nil_append]
      · rw [if_neg hpass]
        exact ⟨fun h => absurd h.1 hpass, fun _ => rfl⟩

/-! ### The worker without a calendar -/

end CompanionBackend.FollowupSchedules
