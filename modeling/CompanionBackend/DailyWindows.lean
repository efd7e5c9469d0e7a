import Mathlib.Tactic.Ring
import Mathlib.Tactic.Linarith

/-!
# Windows that come back every day

A window is open from its start up to its end and comes back with the period `day`. From an instant
at which no window is open, nothing opens before the next opening, and an opening that follows is
less than a period away.
-/
namespace CompanionBackend.DailyWindows

/-- Start and end, counted from the beginning of the period. -/
abbrev Window := ℤ × ℤ

/-- Some occurrence of a window holds the instant. -/
def Open (day : ℤ) (ws : List Window) (t : ℤ) : Prop :=
  ∃ w ∈ ws, ∃ k : ℤ, day * k + w.1 ≤ t ∧ t < day * k + w.2

/-- Some occurrence of a window begins at the instant. -/
def Opens (day : ℤ) (ws : List Window) (t : ℤ) : Prop :=
  ∃ w ∈ ws, ∃ k : ℤ, t = day * k + w.1

/-- The earliest opening after an instant. -/
structure NextOpening (day : ℤ) (ws : List Window) (t o : ℤ) : Prop where
  later : t < o
  opens : Opens day ws o
  first : ∀ u, t < u → Opens day ws u → o ≤ u

/-- Windows lie within a period. -/
def Within (day : ℤ) (w : Window) : Prop := 0 ≤ w.1 ∧ w.1 < w.2 ∧ w.2 ≤ day

variable {day : ℤ} {ws : List Window} {t o : ℤ}

namespace NextOpening

/-- Until the next opening everything stays shut. -/
theorem shut_until (h : NextOpening day ws t o) (hshut : ¬Open day ws t) {u : ℤ} (htu : t ≤ u)
    (huo : u < o) : ¬Open day ws u := by
  rintro ⟨w, hw, k, hstart, hstop⟩
  by_cases hlater : t < day * k + w.1
  · have hfirst := h.first _ hlater ⟨w, hw, k, rfl⟩
    omega
  · exact hshut ⟨w, hw, k, by omega, by omega⟩

/-- What is longer than the delay is still open after it. -/
theorem open_add (h : NextOpening day ws t o) {j : ℤ} (hj : 0 ≤ j)
    (hlong : ∀ w ∈ ws, j < w.2 - w.1) : Open day ws (o + j) := by
  obtain ⟨w, hw, k, rfl⟩ := h.opens
  have := hlong w hw
  exact ⟨w, hw, k, by omega, by omega⟩

/-- The window that opens next was open within the period before, so it is reached within one. -/
theorem add_lt (h : NextOpening day ws t o) (hday : 0 < day) (hshut : ¬Open day ws t) {j : ℤ}
    (hlong : ∀ w ∈ ws, j < w.2 - w.1) : o + j < t + day := by
  obtain ⟨w, hw, k, rfl⟩ := h.opens
  have hlen := hlong w hw
  have hbefore : day * (k - 1) + w.1 = day * k + w.1 - day := by ring
  have hpast : day * k + w.1 - day ≤ t := by
    by_contra hlater
    have := h.first _ (not_le.mp hlater) ⟨w, hw, k - 1, hbefore.symm⟩
    omega
  have hover : day * k + w.2 - day ≤ t := by
    by_contra hopen
    exact hshut ⟨w, hw, k - 1, by omega, by linarith⟩
  omega

end NextOpening

/-! ### Computing openings -/

/-- A multiple of the period that is at most another one plus less than a period. -/
theorem mul_le_of_lt_add (hday : 0 < day) {k q r : ℤ} (hr : r < day) (h : day * k ≤ day * q + r) :
    k ≤ q := by
  by_contra hlt
  have hmul := mul_le_mul_of_nonneg_left (show q + 1 ≤ k by omega) hday.le
  rw [mul_add, mul_one] at hmul
  omega

theorem open_iff (hday : 0 < day) (hws : ∀ w ∈ ws, Within day w) :
    Open day ws t ↔ ∃ w ∈ ws, w.1 ≤ t % day ∧ t % day < w.2 := by
  have hsplit := Int.emod_add_mul_ediv t day
  have hr := Int.emod_nonneg t hday.ne'
  have hr' := Int.emod_lt_of_pos t hday
  constructor
  · rintro ⟨w, hw, k, hstart, hstop⟩
    obtain ⟨hw0, hw1, hw2⟩ := hws w hw
    have hle : k ≤ t / day := mul_le_of_lt_add hday hr' (by omega)
    have hge : t / day ≤ k := by
      refine mul_le_of_lt_add hday (r := w.2 - 1) (by omega) ?_
      omega
    obtain rfl : k = t / day := le_antisymm hle hge
    exact ⟨w, hw, by omega, by omega⟩
  · rintro ⟨w, hw, hstart, hstop⟩
    exact ⟨w, hw, t / day, by omega, by omega⟩

/-- The first time after an instant that a window begins. -/
def openingAfter (day start t : ℤ) : ℤ :=
  if t % day < start then day * (t / day) + start else day * (t / day) + start + day

theorem openingAfter_eq (day start t : ℤ) : ∃ k, openingAfter day start t = day * k + start := by
  unfold openingAfter
  split
  · exact ⟨_, rfl⟩
  · exact ⟨t / day + 1, by ring⟩

theorem lt_openingAfter (hday : 0 < day) {start : ℤ} (h : 0 ≤ start) :
    t < openingAfter day start t := by
  have hsplit := Int.emod_add_mul_ediv t day
  have hr' := Int.emod_lt_of_pos t hday
  unfold openingAfter
  split <;> omega

theorem openingAfter_le (hday : 0 < day) {start k : ℤ} (h : start < day)
    (hlater : t < day * k + start) : openingAfter day start t ≤ day * k + start := by
  have hsplit := Int.emod_add_mul_ediv t day
  have hr := Int.emod_nonneg t hday.ne'
  have hle : t / day ≤ k := mul_le_of_lt_add hday h (by omega)
  unfold openingAfter
  split
  · have := mul_le_mul_of_nonneg_left hle hday.le
    omega
  · have hlt : t / day ≠ k := by
      rintro rfl
      omega
    have hmul := mul_le_mul_of_nonneg_left (show t / day + 1 ≤ k by omega) hday.le
    rw [mul_add, mul_one] at hmul
    omega

/-- The least of a list of later openings that holds the first one of each window. -/
theorem nextOpening_of_least (hday : 0 < day) (hws : ∀ w ∈ ws, Within day w) {os : List ℤ}
    (hos : ∀ u ∈ os, t < u ∧ Opens day ws u) (hall : ∀ w ∈ ws, openingAfter day w.1 t ∈ os)
    (ho : o ∈ os) (hleast : ∀ u ∈ os, o ≤ u) : NextOpening day ws t o := by
  refine ⟨(hos o ho).1, (hos o ho).2, ?_⟩
  rintro u hu ⟨w, hw, k, rfl⟩
  obtain ⟨-, hlt, hle⟩ := hws w hw
  exact (hleast _ (hall w hw)).trans (openingAfter_le hday (by omega) hu)

end CompanionBackend.DailyWindows
