import CompanionBackend.DailyWindows
import CompanionBackend.FollowupSchedules

/-!
# Windows of an accepted schedule

Every stage of a schedule without issues has windows within the day, each of them longer than the
greatest jitter. Both the resolver and the worker read the same minutes of them.
-/
namespace CompanionBackend.FollowupSchedules

open Runs ProviderEvents Dictionaries CapabilityRules DailyWindows
open CapabilityEvidence (exactDict)
open FollowupJobs (Service clockMinutes dayMicros shanghaiOffset windowBounds clockField digitBelow)

/-! ### Minutes -/

theorem digitBelow_le {bound c : Char} {n : ℕ} (h : digitBelow bound c = some n) :
    n ≤ bound.toNat - '0'.toNat := by
  unfold digitBelow at h
  split_ifs at h with hc
  obtain rfl := Option.some.inj h
  have : c.toNat ≤ bound.toNat := hc.2
  omega

theorem minutes_lt {P : Platform} {m₁ m₂ : Char} {hours n : ℕ}
    (h : (do
      let minuteTens ← digitBelow '5' m₁
      let minuteOnes ← P.service.decimal m₂
      some (hours * 60 + minuteTens * 10 + minuteOnes)) = some n) : n < hours * 60 + 60 := by
  obtain ⟨minuteTens, htens, h⟩ := Option.bind_eq_some_iff.mp h
  obtain ⟨minuteOnes, hones, h⟩ := Option.bind_eq_some_iff.mp h
  obtain rfl := Option.some.inj h
  have hle : minuteTens ≤ 5 := digitBelow_le htens
  have hlt := P.decimal_lt hones
  omega

/-- A reading of the clock is before midnight. -/
theorem clockMinutes_lt {P : Platform} {t : Text} {n : ℕ} (h : clockMinutes P.service t = some n) :
    n < 1440 := by
  unfold clockMinutes at h
  split at h
  · obtain ⟨tens, htens, h⟩ := Option.bind_eq_some_iff.mp h
    dsimp only at h
    split_ifs at h with htwo
    · obtain ⟨ones, hones, h⟩ := Option.bind_eq_some_iff.mp h
      have hle : ones ≤ 3 := digitBelow_le hones
      have := minutes_lt h
      omega
    · obtain ⟨ones, hones, h⟩ := Option.bind_eq_some_iff.mp h
      have hle : tens ≤ 2 := digitBelow_le htens
      have hlt := P.decimal_lt hones
      have := minutes_lt h
      omega
  · simp at h

theorem clockField_eq (P : Platform) (window : Json) (key : String) :
    clockField P.service window key = windowMinutes P (window.field key) := by
  unfold clockField Json.field windowMinutes
  cases window.get key with
  | none => rfl
  | some v => cases v <;> rfl

/-- The window lies within the day and is longer than the jitter. -/
structure GoodWindow (P : Platform) (high : ℤ) (window : Json) (m : ℕ × ℕ) : Prop where
  bounds : windowBounds P.service window = some m
  ordered : m.1 < m.2
  inDay : m.2 < 1440
  long : high < (m.2 : ℤ) - m.1

theorem windowBounds_eq {P : Platform} {window : Json} {m : ℕ × ℕ}
    (hstart : windowMinutes P (window.field "start") = some m.1)
    (hstop : windowMinutes P (window.field "end") = some m.2) (h : m.1 < m.2) :
    windowBounds P.service window = some m := by
  unfold windowBounds
  rw [clockField_eq, clockField_eq, hstart, hstop]
  exact if_pos h

theorem windowMinutes_lt {P : Platform} {value : Json} {n : ℕ}
    (h : windowMinutes P value = some n) : n < 1440 := by
  cases value <;> simp [windowMinutes] at h
  exact clockMinutes_lt h

theorem get_of_windowMinutes {P : Platform} {window : Json} {key : String} {n : ℕ}
    (h : windowMinutes P (window.field key) = some n) :
    window.get key = some (window.field key) := by
  unfold Json.field at *
  cases hget : window.get key with
  | none => simp [hget, windowMinutes] at h
  | some v => rfl

/-- The resolver reads what the worker does. -/
theorem readWindow_eq {P : Platform} {window : Json} {m : ℕ × ℕ}
    (h : windowBounds P.service window = some m) : readWindow P window = .ok m := by
  unfold windowBounds at h
  obtain ⟨start, hstart, h⟩ := Option.bind_eq_some_iff.mp h
  obtain ⟨stop, hstop, h⟩ := Option.bind_eq_some_iff.mp h
  split_ifs at h with hlt
  obtain rfl := Option.some.inj h
  rw [clockField_eq] at hstart hstop
  unfold readWindow item
  rw [get_of_windowMinutes hstart, get_of_windowMinutes hstop]
  simp only [bind, Except.bind, hstart, hstop]

/-! ### Acceptance -/

theorem checkWindow_accepts {P : Platform} {high : ℤ} {field : String} {window : Json} {index : ℕ}
    (h : (checkWindow P (.int high) field window index).1 = []) :
    exactDict window ["start", "end"] = true ∧ ∃ m : ℕ × ℕ, GoodWindow P high window m ∧
      (checkWindow P (.int high) field window index).2 = some (m.1, m.2, index) := by
  unfold checkWindow at h ⊢
  split_ifs at h ⊢ with hexact
  split at h
  · rename_i start stop hstart hstop
    dsimp only at h
    split_ifs at h with hle hshort
    simp only [hexact, if_neg hle, true_and]
    refine ⟨(start, stop), ⟨?_, ?_, windowMinutes_lt hstop, ?_⟩, rfl⟩
    · exact windowBounds_eq hstart hstop (not_le.mp hle)
    · exact not_le.mp hle
    · exact not_le.mp hshort
  · simp at h

/-- What the checks leave of the windows of a stage. -/
structure StageWindows (P : Platform) (high : ℤ) (windows : List Json) (ms : List (ℕ × ℕ)) :
    Prop where
  some : windows ≠ []
  good : List.Forall₂ (GoodWindow P high) windows ms

theorem checkWindows_accepts {P : Platform} {high : ℤ} {field : String} {windows : List Json}
    (h : (checkWindows P (.int high) field windows).flatMap Prod.fst = []) :
    ∃ ms, List.Forall₂ (GoodWindow P high) windows ms := by
  have hall : ∀ w ∈ windows, ∃ m, GoodWindow P high w m := by
    intro w hw
    obtain ⟨i, hi, rfl⟩ := List.getElem_of_mem hw
    have hmem : (windows[i], i) ∈ windows.zipIdx :=
      List.mk_mem_zipIdx_iff_getElem?.mpr (List.getElem?_eq_getElem hi)
    have hnil := List.flatMap_eq_nil_iff.mp h _ (List.mem_map_of_mem hmem)
    obtain ⟨-, m, hm, -⟩ := checkWindow_accepts hnil
    exact ⟨m, hm⟩
  clear h
  induction windows with
  | nil => exact ⟨[], .nil⟩
  | cons w windows ih =>
    obtain ⟨m, hm⟩ := hall w List.mem_cons_self
    obtain ⟨ms, hms⟩ := ih fun w' hw' => hall w' (List.mem_cons_of_mem w hw')
    exact ⟨m :: ms, .cons hm hms⟩

@[simp] theorem field_null (key : String) : Json.null.field key = .null := rfl

theorem get_of_field {value : Json} {key : String} (h : value.field key ≠ .null) :
    value.get key = some (value.field key) := by
  unfold Json.field at *
  cases hget : value.get key with
  | none => exact absurd (by rw [hget]; rfl) h
  | some v => rfl

theorem item_of_field {value : Json} {key : String} (h : value.field key ≠ .null) :
    item value key = .ok (value.field key) := by
  unfold item
  rw [get_of_field h]

theorem stageIssues_accepts {P : Platform} {high : ℤ} {stages : Json} {stage : RelationshipStage}
    (h : stageIssues P (.int high) stages stage = []) :
    ∃ windows ms, (stages.field stage.name).field "windows" = .arr windows ∧
      StageWindows P high windows ms := by
  obtain ⟨-, h⟩ := List.append_eq_nil_iff.mp h
  split at h
  · rename_i window windows hwindows
    obtain ⟨hissues, -⟩ := List.append_eq_nil_iff.mp h
    obtain ⟨ms, hms⟩ := checkWindows_accepts hissues
    exact ⟨window :: windows, ms, hwindows, ⟨List.cons_ne_nil _ _, hms⟩⟩
  · simp at h

/-- What is used of a schedule without issues. -/
structure Accepted (P : Platform) (schedule : Json) (low high : ℤ) : Prop where
  jitter : jitterRange schedule = some (low, high)
  zone : (schedule.field "timezone").isStr "Asia/Shanghai" = true
  delay : maxDelayHours schedule = .ok 24
  stages : ∀ stage, ∃ windows ms, stageWindows schedule stage = .ok windows ∧
    StageWindows P high windows ms

theorem maxDelayHours_eq {schedule : Json} (h : schedule.field "max_delay_hours" = .int 24) :
    maxDelayHours schedule = .ok 24 := by
  unfold maxDelayHours
  rw [item_of_field (by simp [h]), h]
  rfl

theorem stageWindows_eq {schedule : Json} {stage : RelationshipStage} {windows : List Json}
    (h : ((schedule.field "stages").field stage.name).field "windows" = .arr windows) :
    stageWindows schedule stage = .ok windows := by
  have hentry : (schedule.field "stages").field stage.name ≠ .null := by
    intro hnull
    simp [hnull] at h
  have hstages : schedule.field "stages" ≠ .null := by
    intro hnull
    simp [hnull] at hentry
  unfold stageWindows
  rw [item_of_field hstages]
  simp only [bind, Except.bind]
  rw [item_of_field hentry]
  simp only []
  rw [item_of_field (by simp [h]), h]

theorem jitterRange_eq {schedule : Json} {low high : ℤ}
    (h : jitterRange schedule = some (low, high)) :
    schedule.field "jitter_max_minutes" = .int high ∧ 0 ≤ low ∧ low ≤ high ∧ high ≤ 20 := by
  unfold jitterRange at h
  split at h
  · rename_i low' high' hlow hhigh
    split_ifs at h with hrange
    obtain ⟨rfl, rfl⟩ := Prod.mk.inj (Option.some.inj h)
    exact ⟨hhigh, hrange⟩
  · simp at h

theorem accepted_of_validate {P : Platform} {schedule : Json}
    (h : validateFollowupSchedule P schedule = []) : ∃ low high, Accepted P schedule low high := by
  unfold validateFollowupSchedule at h
  split at h
  · rename_i fields
    obtain ⟨h, hstages⟩ := List.append_eq_nil_iff.mp h
    obtain ⟨h, hdelay⟩ := List.append_eq_nil_iff.mp h
    obtain ⟨h, hjitter⟩ := List.append_eq_nil_iff.mp h
    obtain ⟨-, hzone⟩ := List.append_eq_nil_iff.mp h
    split_ifs at hzone hjitter with hzone' hjitter'
    obtain ⟨⟨low, high⟩, hrange⟩ := Option.isSome_iff_exists.mp hjitter'
    have hhigh := (jitterRange_eq hrange).1
    refine ⟨low, high, hrange, hzone', maxDelayHours_eq ?_, fun stage => ?_⟩
    · split at hdelay
      · assumption
      · simp at hdelay
    · split at hstages
      · obtain ⟨hstages, -⟩ := List.append_eq_nil_iff.mp hstages
        have hstage := List.flatMap_eq_nil_iff.mp hstages stage stage.mem_all
        rw [hhigh] at hstage
        obtain ⟨windows, ms, hwindows, hms⟩ := stageIssues_accepts hstage
        exact ⟨windows, ms, stageWindows_eq hwindows, hms⟩
      · simp at hstages
  · simp at h

/-! ### Windows of every day -/

/-- A window of the day in microseconds. -/
def microWindow (m : ℕ × ℕ) : Window := (m.1 * minuteMicros, m.2 * minuteMicros)

/-- The windows of a stage, as windows that come back every day. -/
def dailyWindows (P : Platform) (schedule : Json) (stage : RelationshipStage) : List Window :=
  match stageWindows schedule stage with
  | .ok windows => (windows.filterMap (windowBounds P.service)).map microWindow
  | .error _ => []

theorem filterMap_bounds {P : Platform} {high : ℤ} {windows : List Json} {ms : List (ℕ × ℕ)}
    (h : List.Forall₂ (GoodWindow P high) windows ms) :
    windows.filterMap (windowBounds P.service) = ms := by
  induction h with
  | nil => rfl
  | cons hw _ ih => rw [List.filterMap_cons_some hw.bounds, ih]

theorem dailyWindows_eq {P : Platform} {schedule : Json} {stage : RelationshipStage} {high : ℤ}
    {windows : List Json} {ms : List (ℕ × ℕ)} (hwindows : stageWindows schedule stage = .ok windows)
    (h : StageWindows P high windows ms) :
    dailyWindows P schedule stage = ms.map microWindow := by
  unfold dailyWindows
  rw [hwindows]
  simp only [filterMap_bounds h.good]

theorem good_of_mem {P : Platform} {high : ℤ} {windows : List Json} {ms : List (ℕ × ℕ)}
    (h : List.Forall₂ (GoodWindow P high) windows ms) {m : ℕ × ℕ} (hm : m ∈ ms) :
    m.1 < m.2 ∧ m.2 < 1440 ∧ high < (m.2 : ℤ) - m.1 := by
  induction h with
  | nil => exact absurd hm List.not_mem_nil
  | cons hw _ ih =>
    rcases List.mem_cons.mp hm with rfl | hm
    · exact ⟨hw.ordered, hw.inDay, hw.long⟩
    · exact ih hm

theorem within_day {P : Platform} {high : ℤ} {windows : List Json} {ms : List (ℕ × ℕ)}
    (h : List.Forall₂ (GoodWindow P high) windows ms) :
    ∀ w ∈ ms.map microWindow, Within dayMicros w := by
  intro w hw
  obtain ⟨m, hm, rfl⟩ := List.mem_map.mp hw
  obtain ⟨hlt, hday, -⟩ := good_of_mem h hm
  simp only [Within, microWindow, minuteMicros, dayMicros]
  omega

theorem longer_than_jitter {P : Platform} {high jitter : ℤ} {windows : List Json}
    {ms : List (ℕ × ℕ)} (h : List.Forall₂ (GoodWindow P high) windows ms) (hj : jitter ≤ high) :
    ∀ w ∈ ms.map microWindow, jitter * minuteMicros < w.2 - w.1 := by
  intro w hw
  obtain ⟨m, hm, rfl⟩ := List.mem_map.mp hw
  obtain ⟨-, -, hlong⟩ := good_of_mem h hm
  simp only [microWindow, minuteMicros]
  omega

end CompanionBackend.FollowupSchedules
