import Mathlib.Tactic.Ring
import CompanionBackend.ProviderEvents
import CompanionBackend.Rankings

/-!
# Stages of a journey

A post of a day away from home tells of the departure, the way, the return or a trip of one day,
after what the outlines of the week say of the day before and the day after. A day before without an
outline counts as home; a day after without one does not.
-/
namespace CompanionBackend.TravelStages

open ProviderEvents Rankings

/-- Days are numbered; day 1 is a Monday. -/
def mondayOf (d : ℤ) : ℤ := d - (d + 6) % 7

/-- A row of `life_plan_outline`. -/
structure OutlineRow where
  weekStartDate : ℤ
  planDate : ℤ
  city : Text
  deriving DecidableEq, Repr

/-- The table: one row for a day, filed under the Monday of its natural week. -/
structure OutlineTable where
  rows : List OutlineRow
  unique : (rows.map OutlineRow.planDate).Nodup
  filed : ∀ r ∈ rows, r.weekStartDate = mondayOf r.planDate

inductive Stage
  | departure | transit | «return» | oneday
  deriving DecidableEq, Repr

def Stage.name : Stage → String
  | departure => "departure"
  | transit => "transit"
  | «return» => "return"
  | oneday => "oneday"

/-- `_TRAVEL_STAGE_LABEL`. -/
def Stage.label : Stage → String
  | departure => "出发"
  | transit => "途中"
  | «return» => "返回"
  | oneday => "一日游"

/-- `_TRAVEL_STAGE_PROMPT_KEY`. -/
def Stage.promptKey (s : Stage) : String := "prompt_p05_" ++ s.name

structure Travel where
  stage : Stage
  label : String
  promptKey : String
  weekCitySequence : Text
  travelDayIndex : ℕ
  deriving DecidableEq, Repr

/-- The rows of the week of a day, in the order of their days. -/
def weekRows (t : OutlineTable) (planDate : ℤ) : List OutlineRow :=
  sortBy OutlineRow.planDate
    (t.rows.filter fun r => decide (r.weekStartDate = mondayOf planDate))

/-- `week_map.get(d)`. -/
def cityOn (week : List OutlineRow) (d : ℤ) : Option Text :=
  (week.find? fun r => decide (r.planDate = d)).map OutlineRow.city

/-- Days up to a day that are away from home one after the other; a week has seven days. -/
def awayDays (week : List OutlineRow) (homeCity : Text) : ℕ → ℤ → ℕ
  | 0, _ => 0
  | fuel + 1, d =>
    match cityOn week d with
    | none => 0
    | some city => if city = homeCity then 0 else awayDays week homeCity fuel (d - 1) + 1

def stageOf (yesterday tomorrow : Option Text) (homeCity : Text) : Stage :=
  let yHome := decide (yesterday = none ∨ yesterday = some homeCity)
  let mHome := decide (tomorrow = some homeCity)
  if yHome && !mHome then .departure
  else if yHome && mHome then .oneday
  else if !yHome && mHome then .return
  else .transit

/-- `_determine_travel`. -/
def determineTravel (t : OutlineTable) (planDate : ℤ) (todayCity homeCity : Text) : Option Travel :=
  if todayCity = homeCity then none
  else
    let week := weekRows t planDate
    let stage := stageOf (cityOn week (planDate - 1)) (cityOn week (planDate + 1)) homeCity
    some
      { stage := stage
        label := stage.label
        promptKey := stage.promptKey
        weekCitySequence := if week = [] then todayCity
          else ['→'].intercalate (week.map OutlineRow.city)
        travelDayIndex := awayDays week homeCity 7 (planDate - 1) + 1 }

/-! ### Journeys -/

/-- Another day of the week of `d` is spent away from home. -/
def AwayBeside (t : OutlineTable) (homeCity : Text) (d e : ℤ) : Prop :=
  mondayOf e = mondayOf d ∧ ∃ r ∈ t.rows, r.planDate = e ∧ r.city ≠ homeCity

/-- The longest stretch of days around `d` that are away from home in the week of `d`. -/
structure Journey (t : OutlineTable) (homeCity : Text) (d first last : ℤ) : Prop where
  first_le : first ≤ d
  le_last : d ≤ last
  inside : ∀ e, first ≤ e → e ≤ last → e ≠ d → AwayBeside t homeCity d e
  before : ¬ AwayBeside t homeCity d (first - 1)
  after : ¬ AwayBeside t homeCity d (last + 1)

/-- What the place of a day in its journey makes of it. -/
def journeyStage (first last d : ℤ) : Stage :=
  if first = d then if last = d then .oneday else .departure
  else if last = d then .return else .transit

/-- The travel of a day is told after its journey. -/
def ToldAfterJourney (t : OutlineTable) (planDate : ℤ) (todayCity homeCity : Text) : Prop :=
  ∃ first last travel, Journey t homeCity planDate first last ∧
    determineTravel t planDate todayCity homeCity = some travel ∧
    travel.stage = journeyStage first last planDate ∧
    (travel.travelDayIndex : ℤ) = planDate - first + 1

variable {t : OutlineTable} {homeCity : Text} {d e : ℤ}

theorem cityOn_eq_some {city : Text} : cityOn (weekRows t d) e = some city ↔
    mondayOf e = mondayOf d ∧ ∃ r ∈ t.rows, r.planDate = e ∧ r.city = city := by
  unfold cityOn
  rw [Option.map_eq_some_iff]
  constructor
  · rintro ⟨r, hr, hcity⟩
    have hplan := List.find?_some hr
    rw [decide_eq_true_eq] at hplan
    obtain ⟨hrows, hweek⟩ := List.mem_filter.mp (mem_sortBy.mp (List.mem_of_find?_eq_some hr))
    rw [decide_eq_true_eq, t.filed r hrows, hplan] at hweek
    exact ⟨hweek, r, hrows, hplan, hcity⟩
  · rintro ⟨hweek, r, hrows, hplan, hcity⟩
    have hlisted : r ∈ weekRows t d := mem_sortBy.mpr (List.mem_filter.mpr
      ⟨hrows, by rw [decide_eq_true_eq, t.filed r hrows, hplan, hweek]⟩)
    obtain ⟨r', hr'⟩ := Option.isSome_iff_exists.mp
      ((List.find?_isSome (p := fun r => decide (r.planDate = e))).mpr
        ⟨r, hlisted, decide_eq_true hplan⟩)
    have hplan' := List.find?_some hr'
    rw [decide_eq_true_eq] at hplan'
    have hrows' : r' ∈ t.rows :=
      (List.mem_filter.mp (mem_sortBy.mp (List.mem_of_find?_eq_some hr'))).1
    obtain rfl : r' = r :=
      List.inj_on_of_nodup_map t.unique hrows' hrows (hplan'.trans hplan.symm)
    exact ⟨r', hr', hcity⟩

/-- A day is away from home if it has a city in the week and that is another one. -/
theorem awayBeside_iff :
    AwayBeside t homeCity d e ↔ ∃ city, cityOn (weekRows t d) e = some city ∧ city ≠ homeCity := by
  simp only [AwayBeside, cityOn_eq_some]
  constructor
  · rintro ⟨hweek, r, hr, hplan, hcity⟩
    exact ⟨r.city, ⟨hweek, r, hr, hplan, rfl⟩, hcity⟩
  · rintro ⟨city, ⟨hweek, r, hr, hplan, rfl⟩, hcity⟩
    exact ⟨hweek, r, hr, hplan, hcity⟩

/-- Seven days back is another week. -/
theorem not_awayBeside_of_le (h : e + 7 ≤ d) : ¬ AwayBeside t homeCity d e := by
  rintro ⟨hweek, -⟩
  unfold mondayOf at hweek
  omega

/-- The days that are counted are away from home, and the day before them is not. -/
theorem awayDays_spec (fuel : ℕ) (h : e + 7 ≤ d + fuel) :
    (∀ x, e - awayDays (weekRows t d) homeCity fuel e < x → x ≤ e → AwayBeside t homeCity d x) ∧
      ¬ AwayBeside t homeCity d (e - awayDays (weekRows t d) homeCity fuel e) := by
  induction fuel generalizing e with
  | zero =>
    simp only [awayDays, Nat.cast_zero, sub_zero]
    exact ⟨fun x hlt hle => absurd hlt (not_lt.mpr hle), not_awayBeside_of_le (by simpa using h)⟩
  | succ fuel ih =>
    rw [awayDays]
    cases hcity : cityOn (weekRows t d) e with
    | none =>
      simp only [Nat.cast_zero, sub_zero, awayBeside_iff]
      exact ⟨fun x hlt hle => absurd hlt (not_lt.mpr hle), fun ⟨_, h, _⟩ => by simp [hcity] at h⟩
    | some city =>
      by_cases hhome : city = homeCity
      · simp only [if_pos hhome, Nat.cast_zero, sub_zero]
        refine ⟨fun x hlt hle => absurd hlt (not_lt.mpr hle), fun haway => ?_⟩
        obtain ⟨city', hcity', hne⟩ := awayBeside_iff.mp haway
        exact hne (Option.some.inj (hcity.symm.trans hcity') ▸ hhome)
      · simp only [if_neg hhome]
        obtain ⟨hinside, hbefore⟩ := ih (e := e - 1) (by push_cast at h; omega)
        have hcount : e - 1 - (awayDays (weekRows t d) homeCity fuel (e - 1) : ℤ) =
            e - ((awayDays (weekRows t d) homeCity fuel (e - 1) + 1 : ℕ) : ℤ) := by
          push_cast
          ring
        rw [hcount] at hinside hbefore
        refine ⟨fun x hlt hle => ?_, hbefore⟩
        obtain rfl | hx := hle.eq_or_lt
        · exact awayBeside_iff.mpr ⟨city, hcity, hhome⟩
        · exact hinside x hlt (by omega)

/-- Days after a day that are away from home end within the week. -/
theorem exists_last (d : ℤ) : ∃ last, d ≤ last ∧
    (∀ x, d < x → x ≤ last → AwayBeside t homeCity d x) ∧ ¬ AwayBeside t homeCity d (last + 1) := by
  classical
  have hends : ∃ n : ℕ, ¬ AwayBeside t homeCity d (d + n + 1) := by
    refine ⟨6, ?_⟩
    rintro ⟨hweek, -⟩
    unfold mondayOf at hweek
    push_cast at hweek
    omega
  refine ⟨d + Nat.find hends, by omega, fun x hlt hle => ?_, Nat.find_spec hends⟩
  obtain ⟨n, rfl⟩ : ∃ n : ℕ, x = d + n + 1 := ⟨(x - d - 1).toNat, by omega⟩
  exact not_not.mp (Nat.find_min hends (by omega))

/-- Every day has a journey around it, which begins as many days before as are counted. -/
theorem exists_journey (t : OutlineTable) (homeCity : Text) (d : ℤ) :
    ∃ last, Journey t homeCity d (d - awayDays (weekRows t d) homeCity 7 (d - 1)) last := by
  obtain ⟨last, hlast, hinside, hafter⟩ := @exists_last t homeCity d
  obtain ⟨hback, hbefore⟩ := @awayDays_spec t homeCity d (d - 1) 7
    (by push_cast; omega)
  refine ⟨last,
    { first_le := by omega
      le_last := hlast
      inside := fun x hfirst hle hne => ?_
      before := by rwa [show d - (awayDays (weekRows t d) homeCity 7 (d - 1) : ℤ) - 1 =
        d - 1 - awayDays (weekRows t d) homeCity 7 (d - 1) by ring]
      after := hafter }⟩
  obtain hlt | hlt := lt_or_gt_of_ne hne
  · exact hback x (by omega) (by omega)
  · exact hinside x hlt hle

/-- A day has one journey. -/
theorem Journey.unique {first last first' last' : ℤ} (h : Journey t homeCity d first last)
    (h' : Journey t homeCity d first' last') : first = first' ∧ last = last' := by
  constructor
  · obtain hlt | heq | hgt := lt_trichotomy first first'
    · have := h'.first_le
      exact absurd (h.inside (first' - 1) (by omega) (by have := h.le_last; omega) (by omega)) h'.before
    · exact heq
    · have := h.first_le
      exact absurd (h'.inside (first - 1) (by omega) (by have := h'.le_last; omega) (by omega)) h.before
  · obtain hlt | heq | hgt := lt_trichotomy last last'
    · have := h.le_last
      exact absurd (h'.inside (last + 1) (by have := h'.first_le; omega) (by omega) (by omega)) h.after
    · exact heq
    · have := h'.le_last
      exact absurd (h.inside (last' + 1) (by have := h.first_le; omega) (by omega) (by omega)) h'.after

/-- The first day of a journey is the one whose eve is not away from home. -/
theorem Journey.first_eq_iff {first last : ℤ} (h : Journey t homeCity d first last) :
    first = d ↔ ¬ AwayBeside t homeCity d (d - 1) := by
  constructor
  · rintro rfl
    exact h.before
  · intro hno
    by_contra hne
    have := h.first_le
    exact hno (h.inside (d - 1) (by omega) (by have := h.le_last; omega) (by omega))

theorem Journey.last_eq_iff {first last : ℤ} (h : Journey t homeCity d first last) :
    last = d ↔ ¬ AwayBeside t homeCity d (d + 1) := by
  constructor
  · rintro rfl
    exact h.after
  · intro hno
    by_contra hne
    have := h.le_last
    exact hno (h.inside (d + 1) (by have := h.first_le; omega) (by omega) (by omega))

/-- What the code makes of the day before: no outline counts as home. -/
theorem yesterday_home_iff : (cityOn (weekRows t d) (d - 1) = none ∨
      cityOn (weekRows t d) (d - 1) = some homeCity) ↔ ¬ AwayBeside t homeCity d (d - 1) := by
  rw [awayBeside_iff]
  cases cityOn (weekRows t d) (d - 1) with
  | none => simp
  | some city => simp

/-- The stage is the one of the journey if and only if the day after counts as home exactly when the
journey ends. -/
theorem stageOf_eq_iff {first last : ℤ} (h : Journey t homeCity d first last) :
    stageOf (cityOn (weekRows t d) (d - 1)) (cityOn (weekRows t d) (d + 1)) homeCity =
        journeyStage first last d ↔
      (cityOn (weekRows t d) (d + 1) = some homeCity ↔ last = d) := by
  have hyesterday : (cityOn (weekRows t d) (d - 1) = none ∨
      cityOn (weekRows t d) (d - 1) = some homeCity) ↔ first = d :=
    yesterday_home_iff.trans h.first_eq_iff.symm
  unfold stageOf journeyStage
  simp only [hyesterday]
  by_cases hfirst : first = d <;> by_cases hlast : last = d <;>
    by_cases hhome : cityOn (weekRows t d) (d + 1) = some homeCity <;>
      simp [hfirst, hlast, hhome]

/-- The travel of a day away from home is told after its journey if and only if the day after it has an
outline in the same week. -/
theorem travel_told_iff (t : OutlineTable) (planDate : ℤ) (todayCity homeCity : Text)
    (haway : todayCity ≠ homeCity) :
    ToldAfterJourney t planDate todayCity homeCity ↔
      mondayOf (planDate + 1) = mondayOf planDate ∧ ∃ r ∈ t.rows, r.planDate = planDate + 1 := by
  obtain ⟨last, hjourney⟩ := exists_journey t homeCity planDate
  have htold : ToldAfterJourney t planDate todayCity homeCity ↔
      stageOf (cityOn (weekRows t planDate) (planDate - 1))
          (cityOn (weekRows t planDate) (planDate + 1)) homeCity =
        journeyStage (planDate - awayDays (weekRows t planDate) homeCity 7 (planDate - 1)) last
          planDate := by
    unfold ToldAfterJourney determineTravel
    rw [if_neg haway]
    constructor
    · rintro ⟨first', last', travel, hjourney', htravel, hstage, -⟩
      obtain ⟨rfl, rfl⟩ := hjourney.unique hjourney'
      obtain rfl := Option.some.inj htravel
      exact hstage
    · intro hstage
      exact ⟨_, last, _, hjourney, rfl, hstage, by push_cast; ring⟩
  have hcity : (mondayOf (planDate + 1) = mondayOf planDate ∧
      ∃ r ∈ t.rows, r.planDate = planDate + 1) ↔
        (cityOn (weekRows t planDate) (planDate + 1)).isSome = true := by
    rw [Option.isSome_iff_exists]
    simp only [cityOn_eq_some]
    constructor
    · rintro ⟨hweek, r, hr, hplan⟩
      exact ⟨r.city, hweek, r, hr, hplan, rfl⟩
    · rintro ⟨_, hweek, r, hr, hplan, -⟩
      exact ⟨hweek, r, hr, hplan⟩
  rw [htold, stageOf_eq_iff hjourney, hcity, hjourney.last_eq_iff, awayBeside_iff]
  cases cityOn (weekRows t planDate) (planDate + 1) with
  | none => simp
  | some city => simp

def shanghai : Text := "上海".toList
def sanya : Text := "三亚".toList

/-- A day away from home between two at home. -/
def sampleWeek : OutlineTable where
  rows := [⟨1, 2, shanghai⟩, ⟨1, 3, sanya⟩, ⟨1, 4, shanghai⟩]
  unique := by decide
  filed := by decide

theorem travel_told_iff_midweek : ToldAfterJourney sampleWeek 3 sanya shanghai ↔
    mondayOf (3 + 1) = mondayOf 3 ∧ ∃ r ∈ sampleWeek.rows, r.planDate = 3 + 1 :=
  travel_told_iff sampleWeek 3 sanya shanghai (by decide)

/-- A day away from home without an outline for the day after. -/
def sampleOpenWeek : OutlineTable where
  rows := [⟨1, 2, shanghai⟩, ⟨1, 3, sanya⟩]
  unique := by decide
  filed := by decide

/-- It is a trip of one day, and told as a departure. -/
theorem travel_departs_forever : ¬ ToldAfterJourney sampleOpenWeek 3 sanya shanghai := by
  rintro ⟨first, last, travel, hjourney, htravel, hstage, -⟩
  have hnone : ∀ e, e ≠ 3 → ¬ AwayBeside sampleOpenWeek shanghai 3 e := by
    rintro e hne ⟨-, r, hr, rfl, hcity⟩
    simp only [sampleOpenWeek, List.mem_cons, List.not_mem_nil, or_false] at hr
    obtain rfl | rfl := hr
    · exact hcity rfl
    · exact hne rfl
  have hfirst : first = 3 := by
    by_contra hne
    have := hjourney.first_le
    exact hnone first hne (hjourney.inside first le_rfl (by have := hjourney.le_last; omega) hne)
  have hlast : last = 3 := by
    by_contra hne
    have := hjourney.le_last
    exact hnone last hne (hjourney.inside last (by have := hjourney.first_le; omega) le_rfl hne)
  have hdeparture : (determineTravel sampleOpenWeek 3 sanya shanghai).map Travel.stage =
      some .departure := by decide
  rw [htravel, Option.map_some, hstage, hfirst, hlast] at hdeparture
  exact absurd hdeparture (by decide)

end CompanionBackend.TravelStages
