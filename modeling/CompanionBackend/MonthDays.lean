import CompanionBackend.TravelStages

/-!
# Days of a month at home and away

Before a week is planned, the days of the month that have an outline are counted: at home, on a trip of
one day, on a longer trip. One walk over the sorted rows keeps the length of the trip it is on. What it
counts can be read off each row and its two neighbours.
-/
namespace CompanionBackend.MonthDays

open ProviderEvents Rankings TravelStages

structure MonthStats where
  «local» : ℕ
  short : ℕ
  long : ℕ
  deriving DecidableEq, Repr

/-- The variables of the loop. -/
structure Walk where
  «local» : ℕ
  awayRuns : List ℕ
  currentRun : ℕ
  prevDate : Option ℤ

/-- `away_runs` once the current run is over. -/
def Walk.closed (w : Walk) : List ℕ :=
  if w.currentRun ≠ 0 then w.awayRuns ++ [w.currentRun] else w.awayRuns

def Walk.visit (homeCity : Text) (w : Walk) (r : OutlineRow) : Walk :=
  if r.city = homeCity then ⟨w.local + 1, w.closed, 0, some r.planDate⟩
  else if w.currentRun ≠ 0 ∧ w.prevDate.any (fun d => decide (r.planDate - d = 1)) = true then
    ⟨w.local, w.awayRuns, w.currentRun + 1, some r.planDate⟩
  else ⟨w.local, w.closed, 1, some r.planDate⟩

def shortDays (runs : List ℕ) : ℕ := (runs.filter fun n => decide (n = 1)).sum
def longDays (runs : List ℕ) : ℕ := (runs.filter fun n => decide (2 ≤ n)).sum

def Walk.stats (w : Walk) : MonthStats := ⟨w.local, shortDays w.closed, longDays w.closed⟩

/-- `_classify_month_days`. -/
def classifyMonthDays (rows : List OutlineRow) (homeCity : Text) : MonthStats :=
  ((sortBy OutlineRow.planDate rows).foldl (Walk.visit homeCity) ⟨0, [], 0, none⟩).stats

/-- `_get_month_stats`, between the bounds of the month. -/
def getMonthStats (t : OutlineTable) (first last : ℤ) (homeCity : Text) : MonthStats :=
  classifyMonthDays (t.rows.filter fun r => decide (first ≤ r.planDate ∧ r.planDate ≤ last)) homeCity

/-! ### What is counted -/

/-- Some row has this day away from home. -/
def awayOn (rows : List OutlineRow) (homeCity : Text) (d : ℤ) : Bool :=
  rows.any fun r => decide (r.planDate = d ∧ r.city ≠ homeCity)

def besideAway (away : ℤ → Bool) (r : OutlineRow) : Bool :=
  away (r.planDate - 1) || away (r.planDate + 1)

def isLocal (homeCity : Text) (r : OutlineRow) : Bool := decide (r.city = homeCity)

/-- A day away between two that are not. -/
def isShort (away : ℤ → Bool) (homeCity : Text) (r : OutlineRow) : Bool :=
  !isLocal homeCity r && !besideAway away r

def isLong (away : ℤ → Bool) (homeCity : Text) (r : OutlineRow) : Bool :=
  !isLocal homeCity r && besideAway away r

/-- The days counted one by one. -/
def statsOf (rows : List OutlineRow) (homeCity : Text) : MonthStats where
  «local» := rows.countP (isLocal homeCity)
  short := rows.countP (isShort (awayOn rows homeCity) homeCity)
  long := rows.countP (isLong (awayOn rows homeCity) homeCity)

section Walking

variable {homeCity : Text} {away : ℤ → Bool} {rest : List OutlineRow} {w : Walk} {p : ℤ}

theorem shortDays_closed (w : Walk) :
    shortDays w.closed = shortDays w.awayRuns + if w.currentRun = 1 then 1 else 0 := by
  unfold Walk.closed shortDays
  split_ifs with hopen hone hone
  · simp [List.filter_append, hone]
  · simp [List.filter_append, hone]
  · omega
  · rfl

theorem longDays_closed (w : Walk) :
    longDays w.closed = longDays w.awayRuns + if w.currentRun = 1 then 0 else w.currentRun := by
  unfold Walk.closed longDays
  by_cases hlong : 2 ≤ w.currentRun
  · rw [if_pos (by omega), if_neg (by omega)]
    simp [List.filter_append, hlong]
  · by_cases hopen : w.currentRun = 0
    · simp [hopen]
    · rw [if_pos hopen, if_pos (by omega)]
      simp [List.filter_append, hlong]

/-- From the last visited day on, the days away are that day, if a trip is on, and those to come. -/
structure Ahead (homeCity : Text) (away : ℤ → Bool) (w : Walk) (p : ℤ) (rest : List OutlineRow) :
    Prop where
  prev : w.currentRun ≠ 0 → w.prevDate = some p
  increasing : (p :: rest.map OutlineRow.planDate).Pairwise (· < ·)
  away_iff : ∀ d, p ≤ d → (away d = true ↔ d = p ∧ w.currentRun ≠ 0 ∨
    ∃ r ∈ rest, r.planDate = d ∧ r.city ≠ homeCity)

/-- A trip that is on is short if it is of one day and does not go on. -/
def stillShort (away : ℤ → Bool) (p : ℤ) (w : Walk) : Bool :=
  decide (w.currentRun = 1) && !away (p + 1)

namespace Ahead

variable {r : OutlineRow}

theorem lt (h : Ahead homeCity away w p (r :: rest)) : p < r.planDate :=
  (List.pairwise_cons.mp h.increasing).1 r.planDate (by simp)

theorem lt_rest (h : Ahead homeCity away w p (r :: rest)) : ∀ e ∈ rest, r.planDate < e.planDate :=
  fun e he => (List.pairwise_cons.mp (List.pairwise_cons.mp h.increasing).2).1 e.planDate
    (List.mem_map_of_mem he)

theorem away_next (h : Ahead homeCity away w p (r :: rest)) :
    away (p + 1) = true ↔ r.planDate = p + 1 ∧ r.city ≠ homeCity := by
  rw [h.away_iff (p + 1) (by omega)]
  constructor
  · rintro (⟨hp, -⟩ | ⟨e, he, hdate, hcity⟩)
    · omega
    · rcases List.mem_cons.mp he with rfl | he
      · exact ⟨hdate, hcity⟩
      · have := h.lt
        have := h.lt_rest e he
        omega
  · exact fun hr => .inr ⟨r, List.mem_cons_self, hr⟩

theorem away_previous (h : Ahead homeCity away w p (r :: rest)) :
    away (r.planDate - 1) = true ↔ r.planDate = p + 1 ∧ w.currentRun ≠ 0 := by
  have hlt := h.lt
  rw [h.away_iff (r.planDate - 1) (by omega)]
  constructor
  · rintro (⟨hp, hopen⟩ | ⟨e, he, hdate, -⟩)
    · exact ⟨by omega, hopen⟩
    · rcases List.mem_cons.mp he with rfl | he
      · omega
      · have := h.lt_rest e he
        omega
  · exact fun hr => .inl ⟨by omega, hr.2⟩

theorem visit (h : Ahead homeCity away w p (r :: rest)) :
    Ahead homeCity away (w.visit homeCity r) r.planDate rest where
  prev := by
    intro _
    unfold Walk.visit
    split_ifs <;> rfl
  increasing := (List.pairwise_cons.mp h.increasing).2
  away_iff d hd := by
    have hopen : (w.visit homeCity r).currentRun ≠ 0 ↔ r.city ≠ homeCity := by
      unfold Walk.visit
      split_ifs with hcity <;> simp [hcity]
    have hlt := h.lt
    rw [h.away_iff d (by omega), hopen]
    constructor
    · rintro (⟨hp, -⟩ | ⟨e, he, hdate, hcity⟩)
      · omega
      · rcases List.mem_cons.mp he with rfl | he
        · exact .inl ⟨hdate.symm, hcity⟩
        · exact .inr ⟨e, he, hdate, hcity⟩
    · rintro (⟨rfl, hcity⟩ | ⟨e, he, hdate⟩)
      · exact .inr ⟨r, List.mem_cons_self, rfl, hcity⟩
      · exact .inr ⟨e, List.mem_cons_of_mem r he, hdate⟩

/-- What the walk still counts: the trip it is on and the days to come. -/
theorem stats_eq (h : Ahead homeCity away w p rest) :
    (rest.foldl (Walk.visit homeCity) w).stats =
      ⟨w.local + rest.countP (isLocal homeCity),
        shortDays w.awayRuns + (if stillShort away p w then 1 else 0) +
          rest.countP (isShort away homeCity),
        longDays w.awayRuns + (if stillShort away p w then 0 else w.currentRun) +
          rest.countP (isLong away homeCity)⟩ := by
  induction rest generalizing w p with
  | nil =>
    have hnext : away (p + 1) = false := by
      rw [Bool.eq_false_iff, ne_eq, h.away_iff (p + 1) (by omega)]
      simp
    simp [Walk.stats, shortDays_closed, longDays_closed, stillShort, hnext]
  | cons r rest ih =>
    rw [List.foldl_cons, ih h.visit]
    have hnext := h.away_next
    have hprevious := h.away_previous
    simp only [List.countP_cons, isLocal, isShort, isLong, besideAway, stillShort]
    by_cases hcity : r.city = homeCity
    · have hover : away (p + 1) = false := by simpa [hcity] using hnext
      simp [Walk.visit, hcity, shortDays_closed, longDays_closed, hover]
      omega
    · by_cases hjoined : w.currentRun ≠ 0 ∧ r.planDate = p + 1
      · -- The trip goes on, so neither of the two days is alone.
        have hdate : w.prevDate.any (fun d => decide (r.planDate - d = 1)) = true := by
          rw [h.prev hjoined.1, Option.any_some, decide_eq_true_eq]
          omega
        have hstep : w.visit homeCity r =
            ⟨w.local, w.awayRuns, w.currentRun + 1, some r.planDate⟩ := by
          rw [Walk.visit, if_neg hcity, if_pos ⟨hjoined.1, hdate⟩]
        have hon : away (p + 1) = true := hnext.mpr ⟨hjoined.2, hcity⟩
        have hback : away (r.planDate - 1) = true := hprevious.mpr hjoined.symm
        simp [hstep, hcity, hon, hback, hjoined.1]
        omega
      · have hstep : w.visit homeCity r = ⟨w.local, w.closed, 1, some r.planDate⟩ := by
          rw [Walk.visit, if_neg hcity, if_neg ?_]
          rintro ⟨hopen, hdate⟩
          rw [h.prev hopen, Option.any_some, decide_eq_true_eq] at hdate
          exact hjoined ⟨hopen, by omega⟩
        have hback : away (r.planDate - 1) = false := by
          rw [Bool.eq_false_iff, ne_eq, hprevious]
          exact fun hr => hjoined hr.symm
        have hover : w.currentRun ≠ 0 → away (p + 1) = false := fun hopen => by
          rw [Bool.eq_false_iff, ne_eq, hnext]
          exact fun hr => hjoined ⟨hopen, hr.1⟩
        rcases Bool.eq_false_or_eq_true (away (r.planDate + 1)) with hafter | hafter <;>
          by_cases hopen : w.currentRun = 0 <;>
          simp [hstep, hcity, hback, shortDays_closed, longDays_closed, hopen, hover, hafter] <;> omega

end Ahead

end Walking

theorem increasing_sortBy {rows : List OutlineRow} (h : (rows.map OutlineRow.planDate).Nodup) :
    ((sortBy OutlineRow.planDate rows).map OutlineRow.planDate).Pairwise (· < ·) := by
  have hnodup : ((sortBy OutlineRow.planDate rows).map OutlineRow.planDate).Nodup :=
    ((sortBy_perm _ rows).map _).nodup_iff.mpr h
  have hsorted : ((sortBy OutlineRow.planDate rows).map OutlineRow.planDate).Pairwise (· ≤ ·) :=
    List.pairwise_map.mpr (sorted_sortBy OutlineRow.planDate rows)
  exact (hsorted.and hnodup).imp fun hab => lt_of_le_of_ne hab.1 hab.2

theorem exists_before {dates : List ℤ} (h : dates.Pairwise (· < ·)) :
    ∃ p, (p :: dates).Pairwise (· < ·) := by
  cases dates with
  | nil => exact ⟨0, List.pairwise_singleton _ _⟩
  | cons d dates =>
    refine ⟨d - 1, List.pairwise_cons.mpr ⟨fun e he => ?_, h⟩⟩
    rcases List.mem_cons.mp he with rfl | he
    · omega
    · have := (List.pairwise_cons.mp h).1 e he
      omega

theorem classifyMonthDays_eq {rows : List OutlineRow} (h : (rows.map OutlineRow.planDate).Nodup)
    (homeCity : Text) : classifyMonthDays rows homeCity = statsOf rows homeCity := by
  have hperm := sortBy_perm OutlineRow.planDate rows
  obtain ⟨p, hp⟩ := exists_before (increasing_sortBy h)
  have hahead : Ahead homeCity (awayOn rows homeCity) ⟨0, [], 0, none⟩ p
      (sortBy OutlineRow.planDate rows) :=
    { prev := fun hopen => absurd rfl hopen
      increasing := hp
      away_iff := fun d _ => by simp [awayOn, hperm.mem_iff] }
  rw [classifyMonthDays, hahead.stats_eq, statsOf, hperm.countP_eq, hperm.countP_eq, hperm.countP_eq]
  simp [shortDays, longDays, stillShort]

/-- What a walk over the sorted days counts is what each day is by itself: at home, away between two
days that are not, or away beside another day away, within the month. -/
theorem month_stats_exact (t : OutlineTable) (first last : ℤ) (homeCity : Text) :
    getMonthStats t first last homeCity =
      statsOf (t.rows.filter fun r => decide (first ≤ r.planDate ∧ r.planDate ≤ last)) homeCity :=
  classifyMonthDays_eq (t.unique.sublist (List.filter_sublist.map _)) homeCity

end CompanionBackend.MonthDays
