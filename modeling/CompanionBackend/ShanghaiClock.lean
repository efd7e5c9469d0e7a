import Mathlib.Data.Rat.Floor
import Mathlib.Tactic.Linarith
import Mathlib.Tactic.FieldSimp
import Mathlib.Tactic.NormNum
import Mathlib.Tactic.Ring

/-!
# Server instants and Shanghai calendar days

A wall instant is a whole number of microseconds since the epoch, the
resolution of `datetime`; a calendar day is a whole number of days since then.
`Asia/Shanghai` is UTC+8 without transitions at every instant the service can
observe, so a calendar day is a fixed interval of 86400 seconds. Monotonic
readings and durations are rational seconds: exact arithmetic stands in for
binary floating point.
-/
namespace CompanionBackend.ShanghaiClock

/-- `now.astimezone(SHANGHAI).date()`. -/
def shanghaiDay (t : ℤ) : ℤ := (t + 28800000000) / 86400000000

/-- `datetime.combine(local.date() + timedelta(days=1), time(), SHANGHAI)`. -/
def nextMidnight (t : ℤ) : ℤ := (shanghaiDay t + 1) * 86400000000 - 28800000000

theorem lt_nextMidnight (t : ℤ) : t < nextMidnight t := by
  unfold nextMidnight shanghaiDay; omega

@[simp] theorem shanghaiDay_nextMidnight (t : ℤ) :
    shanghaiDay (nextMidnight t) = shanghaiDay t + 1 := by
  unfold nextMidnight shanghaiDay; omega

theorem shanghaiDay_mono {s t : ℤ} (h : s ≤ t) : shanghaiDay s ≤ shanghaiDay t := by
  unfold shanghaiDay; omega

/-- Up to its midnight an instant keeps its day. -/
theorem shanghaiDay_eq_of_lt {s t : ℤ} (hst : s ≤ t) (ht : t < nextMidnight s) :
    shanghaiDay t = shanghaiDay s := by
  unfold nextMidnight shanghaiDay at *; omega

theorem nextMidnight_eq_of_lt {s t : ℤ} (hst : s ≤ t) (ht : t < nextMidnight s) :
    nextMidnight t = nextMidnight s := by
  unfold nextMidnight; rw [shanghaiDay_eq_of_lt hst ht]

/-- `timedelta.total_seconds()` of a number of microseconds. -/
def seconds (d : ℤ) : ℚ := d / 1000000

/-- Python rounds a `timedelta` to the nearest microsecond, ties to even. -/
def roundHalfEven (q : ℚ) : ℤ :=
  let below := ⌊q⌋
  if q - below < 1 / 2 then below
  else if 1 / 2 < q - below then below + 1
  else if below % 2 = 0 then below else below + 1

/-- `timedelta(seconds=q)`, in microseconds. -/
def timedelta (q : ℚ) : ℤ := roundHalfEven (q * 1000000)

/-- `int(q)` truncates toward zero. -/
def pyInt (q : ℚ) : ℤ := if q < 0 then ⌈q⌉ else ⌊q⌋

/-- The comparison tolerance `1e-9`. -/
def tolerance : ℚ := 1 / 1000000000

@[simp] theorem seconds_add (a b : ℤ) : seconds (a + b) = seconds a + seconds b := by
  simp [seconds, add_div]

@[simp] theorem seconds_sub (a b : ℤ) : seconds (a - b) = seconds a - seconds b := by
  simp [seconds, sub_div]

@[simp] theorem seconds_zero : seconds 0 = 0 := by simp [seconds]

theorem seconds_lt {a b : ℤ} : seconds a < seconds b ↔ a < b := by
  unfold seconds
  rw [div_lt_div_iff_of_pos_right (by norm_num)]
  exact_mod_cast Iff.rfl

theorem seconds_le {a b : ℤ} : seconds a ≤ seconds b ↔ a ≤ b := by
  rw [← not_lt, seconds_lt, not_lt]

theorem seconds_min (a b : ℤ) : min (seconds a) (seconds b) = seconds (min a b) := by
  rcases le_total a b with h | h
  · rw [min_eq_left h, min_eq_left (seconds_le.mpr h)]
  · rw [min_eq_right h, min_eq_right (seconds_le.mpr h)]

theorem seconds_max (a b : ℤ) : max (seconds a) (seconds b) = seconds (max a b) := by
  rcases le_total a b with h | h
  · rw [max_eq_right h, max_eq_right (seconds_le.mpr h)]
  · rw [max_eq_left h, max_eq_left (seconds_le.mpr h)]

/-- A whole number of seconds, in microseconds. -/
theorem seconds_mul_million (n : ℤ) : seconds (n * 1000000) = n := by
  simp [seconds]

@[simp] theorem timedelta_seconds (d : ℤ) : timedelta (seconds d) = d := by
  have h : seconds d * 1000000 = d := by simp [seconds]
  simp [timedelta, roundHalfEven, h]

/-- On the microsecond grid the tolerance never lifts a value to the next second. -/
theorem floor_seconds_tolerance (d : ℤ) : ⌊seconds d + tolerance⌋ = d / 1000000 := by
  have hdiv : (1000000 : ℚ) * ((d / 1000000 : ℤ) : ℚ) + ((d % 1000000 : ℤ) : ℚ) = d := by
    exact_mod_cast Int.mul_ediv_add_emod d 1000000
  have hlo : (0 : ℚ) ≤ ((d % 1000000 : ℤ) : ℚ) := by
    exact_mod_cast Int.emod_nonneg d (by norm_num)
  have hhi : ((d % 1000000 : ℤ) : ℚ) ≤ 999999 := by
    exact_mod_cast (by omega : d % 1000000 ≤ 999999)
  rw [Int.floor_eq_iff]
  unfold seconds tolerance
  constructor <;> linarith

theorem ceil_seconds (d : ℤ) : ⌈seconds d⌉ = (d + 999999) / 1000000 := by
  have hdiv : (1000000 : ℚ) * (((d + 999999) / 1000000 : ℤ) : ℚ) +
      (((d + 999999) % 1000000 : ℤ) : ℚ) = d + 999999 := by
    exact_mod_cast Int.mul_ediv_add_emod (d + 999999) 1000000
  have hlo : (0 : ℚ) ≤ (((d + 999999) % 1000000 : ℤ) : ℚ) := by
    exact_mod_cast Int.emod_nonneg _ (by norm_num)
  have hhi : (((d + 999999) % 1000000 : ℤ) : ℚ) ≤ 999999 := by
    exact_mod_cast (by omega : (d + 999999) % 1000000 ≤ 999999)
  rw [Int.ceil_eq_iff]
  unfold seconds
  constructor <;> linarith

/-- Truncation of a nonnegative grid value is the floor; a negative one gives at most zero. -/
theorem max_zero_pyInt_seconds (d : ℤ) :
    max 0 (pyInt (seconds d + tolerance)) = max 0 (d / 1000000) := by
  by_cases h : seconds d + tolerance < 0
  · have hceil : ⌈seconds d + tolerance⌉ ≤ 0 := Int.ceil_le.mpr (by simpa using h.le)
    have hd : d < 0 := by
      by_contra hd
      have : (0 : ℚ) ≤ seconds d := by
        rw [← seconds_zero, seconds_le]
        omega
      unfold tolerance at h
      linarith
    simp only [pyInt, if_pos h]
    omega
  · simp only [pyInt, if_neg h, floor_seconds_tolerance]

theorem tolerance_lt_seconds {d : ℤ} : tolerance < seconds d ↔ 0 < d := by
  constructor
  · intro h
    by_contra hd
    have : seconds d ≤ seconds 0 := seconds_le.mpr (by omega)
    rw [seconds_zero] at this
    unfold tolerance at h
    linarith
  · intro h
    have : seconds 1 ≤ seconds d := seconds_le.mpr h
    unfold seconds tolerance at *
    norm_num at *
    linarith

theorem abs_seconds_lt_tolerance {d : ℤ} : |seconds d| < tolerance ↔ d = 0 := by
  constructor
  · intro h
    rw [abs_lt] at h
    have hup : ¬ 0 < d := fun hd => by
      have := tolerance_lt_seconds.mpr hd
      linarith
    have hdown : ¬ 0 < -d := fun hd => by
      have := tolerance_lt_seconds.mpr hd
      have hneg : seconds (-d) = -seconds d := by simp [seconds, neg_div]
      linarith
    omega
  · rintro rfl
    simp [tolerance]

end CompanionBackend.ShanghaiClock
