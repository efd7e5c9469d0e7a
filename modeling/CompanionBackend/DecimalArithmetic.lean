import Mathlib.Algebra.Order.Field.Power
import Mathlib.Algebra.Order.Ring.Unbundled.Rat
import Mathlib.Algebra.Ring.Parity
import Mathlib.Data.Rat.Cast.Order
import Mathlib.Tactic.Linarith
import Mathlib.Tactic.Positivity
import Mathlib.Tactic.Ring
import Mathlib.Data.Rat.Floor
import Mathlib.Tactic.FieldSimp

/-!
# Rounding to significant digits

A number is rounded to a multiple of the power of ten that leaves it `P` digits, to an even one from the
middle. Rounding keeps the order with respect to the numbers of `P` digits.
-/
namespace CompanionBackend.DecimalRounding

/-- An integer nearest to a number, the even one of two. -/
structure Nearest (k : ℕ) (t : ℚ) : Prop where
  below : t - 1 / 2 ≤ k
  above : (k : ℚ) ≤ t + 1 / 2
  even_of_tie : (k : ℚ) = t - 1 / 2 ∨ (k : ℚ) = t + 1 / 2 → Even k

/-- A number of at most `P` digits, or the next power of ten. -/
def Representable (P : ℕ) (y : ℚ) : Prop := ∃ (n : ℕ) (e : ℤ), n ≤ 10 ^ P ∧ y = n * 10 ^ e

/-- A number rounded to `P` digits: itself, or the nearest multiple of the power that leaves it `P`
digits. -/
def Rounded (P : ℕ) (x v : ℚ) : Prop :=
  (v = x ∧ Representable P x) ∨
    ∃ (k : ℕ) (e : ℤ), v = k * 10 ^ e ∧ 10 ^ P * 10 ^ e ≤ 10 * x ∧ x < 10 ^ P * 10 ^ e ∧
      Nearest k (x / 10 ^ e)

section

variable {P : ℕ} {x v y : ℚ} {e f : ℤ}

theorem ten_zpow_pos (e : ℤ) : (0 : ℚ) < 10 ^ e := zpow_pos (by norm_num) e

theorem ten_zpow_le (h : e ≤ f) : (10 : ℚ) ^ e ≤ 10 ^ f := zpow_le_zpow_right₀ (by norm_num) h

theorem ten_zpow_succ (e : ℤ) : (10 : ℚ) ^ (e + 1) = 10 * 10 ^ e := by
  rw [zpow_add_one₀ (by norm_num), mul_comm]

/-- A number of `P` digits is a multiple of a power of ten, unless it is too small for it. -/
theorem multiple_or_small (h : Representable P y) (e : ℤ) :
    (∃ m : ℕ, y = m * 10 ^ e) ∨ 10 * y ≤ 10 ^ P * 10 ^ e := by
  obtain ⟨n, f, hn, rfl⟩ := h
  obtain hef | hfe := le_or_gt e f
  · obtain ⟨d, rfl⟩ := Int.le.dest hef
    refine .inl ⟨n * 10 ^ d, ?_⟩
    rw [zpow_add₀ (by norm_num), zpow_natCast]
    push_cast
    ring
  · right
    have hpow := ten_zpow_le (show f + 1 ≤ e by omega)
    rw [ten_zpow_succ] at hpow
    have hcast : (n : ℚ) ≤ 10 ^ P := by exact_mod_cast hn
    have hpos := ten_zpow_pos f
    calc (10 : ℚ) * (n * 10 ^ f) = n * (10 * 10 ^ f) := by ring
      _ ≤ 10 ^ P * 10 ^ e := mul_le_mul hcast hpow (by positivity) (by positivity)

theorem le_of_half {m k : ℕ} {t : ℚ} (hm : (m : ℚ) ≤ t) (hk : t - 1 / 2 ≤ k) : m ≤ k := by
  by_contra hlt
  have hcast : (k : ℚ) + 1 ≤ m := by exact_mod_cast Nat.lt_of_not_le hlt
  linarith

theorem ge_of_half {m k : ℕ} {t : ℚ} (hm : t ≤ m) (hk : (k : ℚ) ≤ t + 1 / 2) : k ≤ m := by
  by_contra hlt
  have hcast : (m : ℚ) + 1 ≤ k := by exact_mod_cast Nat.lt_of_not_le hlt
  linarith

/-- A multiple of a power of ten below a number, by their quotients. -/
theorem le_div_of_multiple {m : ℕ} (h : m * 10 ^ e ≤ x) : (m : ℚ) ≤ x / 10 ^ e :=
  (le_div_iff₀ (ten_zpow_pos e)).mpr h

theorem div_le_of_multiple {m : ℕ} (h : x ≤ m * 10 ^ e) : x / 10 ^ e ≤ m :=
  (div_le_iff₀ (ten_zpow_pos e)).mpr h

theorem mul_zpow_le {m k : ℕ} (h : m ≤ k) : (m : ℚ) * 10 ^ e ≤ k * 10 ^ e :=
  mul_le_mul_of_nonneg_right (by exact_mod_cast h) (ten_zpow_pos e).le

theorem pow_pred (hP : 1 ≤ P) : (10 : ℚ) ^ P = 10 * ((10 ^ (P - 1) : ℕ) : ℚ) := by
  obtain ⟨p, rfl⟩ := Nat.exists_eq_add_of_le' hP
  rw [Nat.add_sub_cancel]
  push_cast
  ring

/-- What is at least a number of `P` digits stays so. -/
theorem Rounded.ge (hP : 1 ≤ P) (h : Rounded P x v) (hy : Representable P y) (hyx : y ≤ x) : y ≤ v := by
  obtain ⟨rfl, -⟩ | ⟨k, e, rfl, hlow, -, hnear⟩ := h
  · exact hyx
  rw [pow_pred hP] at hlow
  have hfirst : (10 ^ (P - 1) : ℕ) ≤ k :=
    le_of_half (le_div_of_multiple (e := e) (by linarith)) hnear.below
  obtain ⟨m, rfl⟩ | hsmall := multiple_or_small hy e
  · exact mul_zpow_le (le_of_half (le_div_of_multiple hyx) hnear.below)
  · have := mul_zpow_le (e := e) hfirst
    rw [pow_pred hP] at hsmall
    linarith

/-- What is at most a number of `P` digits stays so. -/
theorem Rounded.le (hP : 1 ≤ P) (h : Rounded P x v) (hy : Representable P y) (hxy : x ≤ y) : v ≤ y := by
  obtain ⟨rfl, -⟩ | ⟨k, e, rfl, hlow, -, hnear⟩ := h
  · exact hxy
  obtain ⟨m, rfl⟩ | hsmall := multiple_or_small hy e
  · exact mul_zpow_le (ge_of_half (div_le_of_multiple hxy) hnear.above)
  · rw [pow_pred hP] at hlow hsmall
    have := mul_zpow_le (e := e) (ge_of_half (m := 10 ^ (P - 1)) (div_le_of_multiple (by linarith)) hnear.above)
    linarith

/-- A number of `P` digits is kept. -/
theorem Rounded.eq_of_representable (hP : 1 ≤ P) (h : Rounded P x v) (hx : Representable P x) : v = x :=
  le_antisymm (h.le hP hx le_rfl) (h.ge hP hx le_rfl)

/-- The power of ten that leaves a number its digits. -/
theorem exponent_unique {e' : ℤ} (hlow : 10 ^ P * 10 ^ e ≤ 10 * x)
    (hhigh : x < 10 ^ P * 10 ^ e) (hlow' : 10 ^ P * 10 ^ e' ≤ 10 * x) (hhigh' : x < 10 ^ P * 10 ^ e') :
    e = e' := by
  have hstep : ∀ {a b : ℤ}, a < b → (10 : ℚ) * 10 ^ a ≤ 10 ^ b := fun h => by
    rw [← ten_zpow_succ]
    exact ten_zpow_le (by omega)
  have hpos : (0 : ℚ) < 10 ^ P := by positivity
  obtain h | h | h := lt_trichotomy e e'
  · have := mul_le_mul_of_nonneg_left (hstep h) hpos.le
    linarith
  · exact h
  · have := mul_le_mul_of_nonneg_left (hstep h) hpos.le
    linarith

/-- A number of `P` digits strictly between two neighbours does not exist. -/
theorem not_between {n : ℕ} (hn : 10 ^ P ≤ 10 * n) (hlow : n * 10 ^ e < y)
    (hhigh : y < (n + 1) * 10 ^ e) : ¬ Representable P y := by
  intro hy
  obtain ⟨m, rfl⟩ | hsmall := multiple_or_small hy e
  · have hpos := ten_zpow_pos e
    have h1 : (n : ℚ) < m := lt_of_mul_lt_mul_right hlow hpos.le
    have h2 : (m : ℚ) < n + 1 := lt_of_mul_lt_mul_right hhigh hpos.le
    have h1' : n < m := by exact_mod_cast h1
    have h2' : m < n + 1 := by exact_mod_cast h2
    omega
  · have hcast : (10 : ℚ) ^ P ≤ 10 * n := by exact_mod_cast hn
    have := mul_le_mul_of_nonneg_right hcast (ten_zpow_pos e).le
    linarith

variable {n : ℕ}

theorem representable_of_le (h : n ≤ 10 ^ P) (e : ℤ) : Representable P (n * 10 ^ e) := ⟨n, e, h, rfl⟩

/-- The grid of a number between two neighbours of `P` digits. -/
theorem between_cases (h : Rounded P x v) (hn : 10 ^ P ≤ 10 * n) (hn' : n + 1 ≤ 10 ^ P)
    (hlow : n * 10 ^ e < x) (hhigh : x < (n + 1) * 10 ^ e) :
    ∃ k : ℕ, v = k * 10 ^ e ∧ Nearest k (x / 10 ^ e) := by
  obtain ⟨rfl, hrep⟩ | ⟨k, e', rfl, hlow', hhigh', hnear⟩ := h
  · exact absurd hrep (not_between hn hlow hhigh)
  · have hcast : (10 : ℚ) ^ P ≤ 10 * n := by exact_mod_cast hn
    have hcast' : (n : ℚ) + 1 ≤ 10 ^ P := by exact_mod_cast hn'
    have hpos := (ten_zpow_pos e).le
    have h1 := mul_le_mul_of_nonneg_right hcast hpos
    have h2 := mul_le_mul_of_nonneg_right hcast' hpos
    obtain rfl := exponent_unique (by linarith : 10 ^ P * 10 ^ e ≤ 10 * x) (by linarith) hlow' hhigh'
    exact ⟨k, rfl, hnear⟩

/-- From the middle on, a number is rounded to its even neighbour above. -/
theorem Rounded.step_up (hP : 1 ≤ P) (h : Rounded P x v) (hn : 10 ^ P ≤ 10 * n) (hn' : n + 1 ≤ 10 ^ P)
    (hodd : ¬ Even n) (hx : (n + 1 / 2) * 10 ^ e ≤ x) : ((n + 1 : ℕ) : ℚ) * 10 ^ e ≤ v := by
  have hpos := ten_zpow_pos e
  obtain hge | hlt := le_or_gt (((n + 1 : ℕ) : ℚ) * 10 ^ e) x
  · exact h.ge hP (representable_of_le hn' e) hge
  · push_cast at hlt
    obtain ⟨k, rfl, hnear⟩ := between_cases h hn hn' (by linarith) hlt
    have ht : (n : ℚ) + 1 / 2 ≤ x / 10 ^ e := (le_div_iff₀ hpos).mpr hx
    have hk : n ≤ k := le_of_half (by linarith) hnear.below
    obtain rfl | hk := Nat.eq_or_lt_of_le hk
    · have hbelow := hnear.below
      exact absurd (hnear.even_of_tie (.inl (by linarith))) hodd
    · exact mul_zpow_le hk

/-- Before the middle, a number is rounded to its neighbour below. -/
theorem Rounded.step_down (hP : 1 ≤ P) (h : Rounded P x v) (hn : 10 ^ P ≤ 10 * n) (hn' : n + 1 ≤ 10 ^ P)
    (hx : x < (n + 1 / 2) * 10 ^ e) : v ≤ n * 10 ^ e := by
  have hpos := ten_zpow_pos e
  obtain hle | hgt := le_or_gt x (n * 10 ^ e)
  · exact h.le hP (representable_of_le (by omega) e) hle
  · obtain ⟨k, rfl, hnear⟩ := between_cases h hn hn' hgt (by linarith)
    have ht : x / 10 ^ e < n + 1 / 2 := (div_lt_iff₀ hpos).mpr hx
    have hk : k < n + 1 := by
      have habove := hnear.above
      have : (k : ℚ) < n + 1 := by linarith
      exact_mod_cast this
    exact mul_zpow_le (by omega)

end

end CompanionBackend.DecimalRounding

/-!
## Decimal arithmetic

Numbers with a coefficient and an exponent, multiplied and divided in a context with a precision, and
quantized to an exponent. A quotient is computed to two more digits than are kept, with a last digit that
tells whether a remainder is left.
-/
namespace CompanionBackend.DecimalArithmetic

open DecimalRounding

/-- A finite decimal number. -/
@[ext] structure Dec where
  negative : Bool
  coefficient : ℕ
  exponent : ℤ
  deriving DecidableEq, Repr

namespace Dec

def magnitude (d : Dec) : ℚ := d.coefficient * 10 ^ d.exponent

def value (d : Dec) : ℚ := if d.negative then -d.magnitude else d.magnitude

end Dec

inductive Signal
  | invalidOperation | overflow | divisionByZero
  deriving DecidableEq, Repr

/-- A context that rounds half even and traps the signals above. -/
structure Context where
  prec : ℕ
  emax : ℤ
  emin : ℤ

def Context.etiny (c : Context) : ℤ := c.emin - c.prec + 1

def Context.etop (c : Context) : ℤ := c.emax - c.prec + 1

/-- The number of decimal digits. -/
def digitCount (n : ℕ) : ℕ := (Nat.toDigits 10 n).length

/-- The quotient, rounded to the nearest integer, to the even one from the middle. -/
def halfEven (n d : ℕ) : ℕ :=
  if 2 * (n % d) < d then n / d
  else if d < 2 * (n % d) then n / d + 1
  else if n / d % 2 = 0 then n / d else n / d + 1

/-- The quotient, rounded to the nearest integer, up from the middle. -/
def halfUp (n d : ℕ) : ℕ := if 2 * (n % d) < d then n / d else n / d + 1

/-- A result within the precision and the exponents of the context. -/
def fix (c : Context) (x : Dec) : Except Signal Dec :=
  if x.coefficient = 0 then .ok ⟨x.negative, 0, min (max x.exponent c.etiny) c.emax⟩
  else
    let expMin := digitCount x.coefficient + x.exponent - c.prec
    if c.etop < expMin then .error .overflow
    else
      let expMin := max expMin c.etiny
      if x.exponent < expMin then
        let coefficient := halfEven x.coefficient (10 ^ (expMin - x.exponent).toNat)
        let carried : ℕ × ℤ :=
          if c.prec < digitCount coefficient then (coefficient / 10, expMin + 1) else (coefficient, expMin)
        if c.etop < carried.2 then .error .overflow else .ok ⟨x.negative, carried.1, carried.2⟩
      else .ok x

def mul (c : Context) (x y : Dec) : Except Signal Dec :=
  fix c ⟨x.negative != y.negative, x.coefficient * y.coefficient, x.exponent + y.exponent⟩

/-- Zeros at the end are dropped, at most `n` of them. -/
def dropZeros : ℕ → ℕ → ℤ → ℕ × ℤ
  | 0, n, e => (n, e)
  | fuel + 1, n, e => if n % 10 = 0 then dropZeros fuel (n / 10) (e + 1) else (n, e)

/-- The quotient of two coefficients, shifted by a power of ten. -/
def shiftedDivMod (n d : ℕ) (shift : ℤ) : ℕ × ℕ :=
  if 0 ≤ shift then (n * 10 ^ shift.toNat / d, n * 10 ^ shift.toNat % d)
  else (n / (d * 10 ^ (-shift).toNat), n % (d * 10 ^ (-shift).toNat))

/-- The last digit shows that a quotient is not exact. -/
def sticky (n : ℕ) : ℕ := if n % 5 = 0 then n + 1 else n

def truediv (c : Context) (x y : Dec) : Except Signal Dec :=
  if y.coefficient = 0 then .error (if x.coefficient = 0 then .invalidOperation else .divisionByZero)
  else
    let negative := x.negative != y.negative
    let idealExp := x.exponent - y.exponent
    if x.coefficient = 0 then fix c ⟨negative, 0, idealExp⟩
    else
      let shift : ℤ := digitCount y.coefficient - digitCount x.coefficient + c.prec + 1
      let exp := idealExp - shift
      let (quotient, remainder) := shiftedDivMod x.coefficient y.coefficient shift
      if remainder ≠ 0 then fix c ⟨negative, sticky quotient, exp⟩
      else
        let dropped := dropZeros (idealExp - exp).toNat quotient exp
        fix c ⟨negative, dropped.1, dropped.2⟩

/-- The number with another exponent, rounded up from the middle. -/
def rescale (x : Dec) (exp : ℤ) : Dec :=
  if x.coefficient = 0 then ⟨x.negative, 0, exp⟩
  else if exp ≤ x.exponent then ⟨x.negative, x.coefficient * 10 ^ (x.exponent - exp).toNat, exp⟩
  else ⟨x.negative, halfUp x.coefficient (10 ^ (exp - x.exponent).toNat), exp⟩

def Dec.adjusted (x : Dec) : ℤ := digitCount x.coefficient + x.exponent - 1

/-- `quantize` with rounding up from the middle. -/
def quantize (c : Context) (x : Dec) (exp : ℤ) : Except Signal Dec :=
  if ¬ (c.etiny ≤ exp ∧ exp ≤ c.emax) then .error .invalidOperation
  else if x.coefficient = 0 then fix c ⟨x.negative, 0, exp⟩
  else if c.emax < x.adjusted then .error .invalidOperation
  else if c.prec < x.adjusted - exp + 1 then .error .invalidOperation
  else
    let rescaled := rescale x exp
    if c.emax < rescaled.adjusted then .error .invalidOperation
    else if c.prec < digitCount rescaled.coefficient then .error .invalidOperation
    else fix c rescaled

/-! ### Digits -/

theorem digitCount_pos (n : ℕ) : 0 < digitCount n := Nat.length_toDigits_pos

theorem digitCount_le_iff {n k : ℕ} (hk : 0 < k) : digitCount n ≤ k ↔ n < 10 ^ k :=
  Nat.length_toDigits_le_iff (by norm_num) hk

theorem lt_pow_digitCount (n : ℕ) : n < 10 ^ digitCount n :=
  (digitCount_le_iff (digitCount_pos n)).mp le_rfl

theorem pow_le_of_lt_digitCount {n k : ℕ} (hn : n ≠ 0) (hk : k < digitCount n) : 10 ^ k ≤ n := by
  obtain rfl | hpos := Nat.eq_zero_or_pos k
  · exact Nat.one_le_iff_ne_zero.mpr hn
  · by_contra hlt
    exact absurd ((digitCount_le_iff hpos).mpr (Nat.lt_of_not_le hlt)) (Nat.not_le.mpr hk)

theorem digitCount_eq {n k : ℕ} (hlow : 10 ^ k ≤ n) (hhigh : n < 10 ^ (k + 1)) : digitCount n = k + 1 := by
  refine le_antisymm ((digitCount_le_iff k.succ_pos).mpr hhigh) ?_
  obtain rfl | hpos := Nat.eq_zero_or_pos k
  · exact digitCount_pos n
  · exact Nat.lt_of_not_le fun hle => absurd ((digitCount_le_iff hpos).mp hle) (Nat.not_lt.mpr hlow)

/-! ### Rounding a quotient -/

/-- A quotient is rounded as a number between the same integers, on the same side of their middle. -/
theorem nearest_halfEven_of {n d : ℕ} {t : ℚ} (hlow : ((n / d : ℕ) : ℚ) ≤ t)
    (hhigh : t < ((n / d : ℕ) : ℚ) + 1) (hlt : 2 * (n % d) < d ↔ t < ((n / d : ℕ) : ℚ) + 1 / 2)
    (hgt : d < 2 * (n % d) ↔ ((n / d : ℕ) : ℚ) + 1 / 2 < t) : Nearest (halfEven n d) t := by
  unfold halfEven
  rw [if_congr hlt rfl rfl, if_congr hgt rfl rfl]
  generalize n / d = q at hlow hhigh ⊢
  have hsucc : ((q + 1 : ℕ) : ℚ) = q + 1 := Nat.cast_succ q
  split_ifs with h1 h2 h3
  · exact ⟨by linarith, by linarith, by rintro (h | h) <;> linarith⟩
  · exact ⟨by linarith, by linarith, by rintro (h | h) <;> linarith⟩
  · exact ⟨by linarith, by linarith, fun _ => Nat.even_iff.mpr h3⟩
  · refine ⟨by linarith, by linarith, fun _ => ?_⟩
    rw [Nat.even_add_one, Nat.even_iff]
    exact h3

theorem div_add_mod_cast (n : ℕ) {d : ℕ} (hd : 0 < d) :
    (n : ℚ) / d = ((n / d : ℕ) : ℚ) + ((n % d : ℕ) : ℚ) / d := by
  have hd' : (d : ℚ) ≠ 0 := by exact_mod_cast hd.ne'
  have hcast : (n : ℚ) = d * ((n / d : ℕ) : ℚ) + ((n % d : ℕ) : ℚ) := by
    exact_mod_cast (Nat.div_add_mod n d).symm
  rw [hcast]
  field_simp

theorem nearest_halfEven (n : ℕ) {d : ℕ} (hd : 0 < d) : Nearest (halfEven n d) ((n : ℚ) / d) := by
  have hd' : (0 : ℚ) < d := by exact_mod_cast hd
  have hmod : ((n % d : ℕ) : ℚ) < d := by exact_mod_cast Nat.mod_lt n hd
  rw [div_add_mod_cast n hd]
  refine nearest_halfEven_of (le_add_of_nonneg_right (by positivity)) ?_ ?_ ?_
  · have := (div_lt_one hd').mpr hmod
    linarith
  · rw [add_lt_add_iff_left, div_lt_div_iff₀ hd' two_pos, one_mul, mul_comm]
    exact_mod_cast Iff.rfl
  · rw [add_lt_add_iff_left, div_lt_div_iff₀ two_pos hd', one_mul, mul_comm]
    exact_mod_cast Iff.rfl

theorem halfEven_le {n d m : ℕ} (h : n < d * m) : halfEven n d ≤ m := by
  have hdiv : n / d < m := Nat.div_lt_of_lt_mul h
  unfold halfEven
  split_ifs <;> omega

/-- Rounding up from the middle is the integer part of the number and a half. -/
theorem halfUp_eq_floor (n : ℕ) {d : ℕ} (hd : 0 < d) : (halfUp n d : ℤ) = ⌊(n : ℚ) / d + 1 / 2⌋ := by
  have hd' : (0 : ℚ) < d := by exact_mod_cast hd
  have hmod : ((n % d : ℕ) : ℚ) < d := by exact_mod_cast Nat.mod_lt n hd
  have hfrac := (div_lt_one hd').mpr hmod
  have hnonneg : (0 : ℚ) ≤ ((n % d : ℕ) : ℚ) / d := by positivity
  have hiff : 2 * (n % d) < d ↔ ((n % d : ℕ) : ℚ) / d < 1 / 2 := by
    rw [div_lt_div_iff₀ hd' two_pos, one_mul, mul_comm]
    exact_mod_cast Iff.rfl
  rw [eq_comm, Int.floor_eq_iff, div_add_mod_cast n hd]
  unfold halfUp
  rw [if_congr hiff rfl rfl]
  generalize n / d = q
  split_ifs with h
  · exact ⟨by push_cast; linarith, by push_cast; linarith⟩
  · exact ⟨by push_cast; linarith, by push_cast; linarith⟩

/-! ### Results within a context -/

section

variable {c : Context} {x y r : Dec} {X : ℚ}

/-- The magnitude between two powers of ten. -/
theorem magnitude_bounds (hx : x.coefficient ≠ 0) :
    (10 : ℚ) ^ ((digitCount x.coefficient : ℤ) + x.exponent - 1) ≤ x.magnitude ∧
      x.magnitude < 10 ^ ((digitCount x.coefficient : ℤ) + x.exponent) := by
  have hpos := ten_zpow_pos x.exponent
  obtain ⟨d, hd⟩ := Nat.exists_eq_add_of_le' (digitCount_pos x.coefficient)
  have hlow : ((10 ^ d : ℕ) : ℚ) ≤ x.coefficient := by
    exact_mod_cast pow_le_of_lt_digitCount hx (by omega)
  have hhigh : (x.coefficient : ℚ) < ((10 ^ (d + 1) : ℕ) : ℚ) := by
    exact_mod_cast hd ▸ lt_pow_digitCount x.coefficient
  have hpow : ∀ k : ℕ, (10 : ℚ) ^ ((k : ℤ) + x.exponent) = ((10 ^ k : ℕ) : ℚ) * 10 ^ x.exponent := fun k => by
    rw [zpow_add₀ (by norm_num), zpow_natCast]
    push_cast
    rfl
  rw [show (digitCount x.coefficient : ℤ) + x.exponent - 1 = (d : ℤ) + x.exponent by rw [hd]; push_cast; ring,
    hd, hpow, hpow]
  exact ⟨mul_le_mul_of_nonneg_right hlow hpos.le, mul_lt_mul_of_pos_right hhigh hpos⟩

/-- A magnitude that is not too small is no subnormal number. -/
theorem etiny_le (hx : x.coefficient ≠ 0) (h : (10 : ℚ) ^ (c.etiny + c.prec) ≤ x.magnitude) :
    c.etiny ≤ digitCount x.coefficient + x.exponent - c.prec := by
  have hlt := lt_of_le_of_lt h (magnitude_bounds hx).2
  have := (zpow_lt_zpow_iff_right₀ (by norm_num : (1 : ℚ) < 10)).mp hlt
  omega

theorem fix_cases (hprec : 1 ≤ c.prec) (hx : x.coefficient ≠ 0)
    (htiny : c.etiny ≤ digitCount x.coefficient + x.exponent - c.prec) (h : fix c x = .ok r) :
    (digitCount x.coefficient ≤ c.prec ∧ r = x) ∨
      (c.prec < digitCount x.coefficient ∧ r.negative = x.negative ∧
        r.magnitude = halfEven x.coefficient (10 ^ (digitCount x.coefficient - c.prec)) *
          10 ^ (x.exponent + ((digitCount x.coefficient - c.prec : ℕ) : ℤ))) := by
  unfold fix at h
  rw [if_neg hx] at h
  dsimp only at h
  rw [max_eq_left htiny] at h
  by_cases hover : c.etop < digitCount x.coefficient + x.exponent - c.prec
  · rw [if_pos hover] at h
    cases h
  rw [if_neg hover] at h
  by_cases hlong : x.exponent < digitCount x.coefficient + x.exponent - c.prec
  · right
    have hdrop : ((digitCount x.coefficient : ℤ) + x.exponent - c.prec - x.exponent).toNat =
        digitCount x.coefficient - c.prec := by omega
    have hexp : (digitCount x.coefficient : ℤ) + x.exponent - c.prec =
        x.exponent + ((digitCount x.coefficient - c.prec : ℕ) : ℤ) := by omega
    have hle : halfEven x.coefficient (10 ^ (digitCount x.coefficient - c.prec)) ≤ 10 ^ c.prec := by
      refine halfEven_le ?_
      rw [← pow_add, Nat.sub_add_cancel (by omega)]
      exact lt_pow_digitCount _
    rw [if_pos hlong, hdrop, hexp] at h
    refine ⟨by omega, ?_⟩
    by_cases hcarry : c.prec < digitCount (halfEven x.coefficient (10 ^ (digitCount x.coefficient - c.prec)))
    · -- the carry makes it the next power of ten
      rw [if_pos hcarry] at h
      dsimp only at h
      split_ifs at h
      obtain rfl := Except.ok.inj h
      have hge := (digitCount_le_iff hprec).not.mp (Nat.not_le.mpr hcarry)
      obtain ⟨p, hp⟩ := Nat.exists_eq_add_of_le' hprec
      have heq : halfEven x.coefficient (10 ^ (digitCount x.coefficient - c.prec)) = 10 * 10 ^ p := by
        rw [← pow_succ', ← hp]
        exact le_antisymm hle (Nat.not_lt.mp hge)
      refine ⟨rfl, ?_⟩
      rw [Dec.magnitude, heq, Nat.mul_div_cancel_left _ (by norm_num), ten_zpow_succ]
      push_cast
      ring
    · rw [if_neg hcarry] at h
      dsimp only at h
      split_ifs at h
      obtain rfl := Except.ok.inj h
      exact ⟨rfl, rfl⟩
  · rw [if_neg hlong] at h
    exact .inl ⟨by omega, (Except.ok.inj h).symm⟩

/-- A magnitude that is not too large has a result. -/
theorem fix_isOk (hx : x.coefficient ≠ 0)
    (htiny : c.etiny ≤ digitCount x.coefficient + x.exponent - c.prec)
    (hmag : x.magnitude < 10 ^ c.emax) : ∃ r, fix c x = .ok r := by
  have hlt := lt_of_le_of_lt (magnitude_bounds hx).1 hmag
  have hexp := (zpow_lt_zpow_iff_right₀ (by norm_num : (1 : ℚ) < 10)).mp hlt
  unfold fix
  rw [if_neg hx]
  dsimp only
  rw [max_eq_left htiny, if_neg (by unfold Context.etop; omega)]
  by_cases hlong : x.exponent < digitCount x.coefficient + x.exponent - c.prec
  · rw [if_pos hlong]
    have hcarried : ∀ carried : ℕ × ℤ, carried.2 ≤ digitCount x.coefficient + x.exponent - c.prec + 1 →
        ∃ r, (if c.etop < carried.2 then .error .overflow
          else .ok ⟨x.negative, carried.1, carried.2⟩ : Except Signal Dec) = .ok r := fun carried hle => by
      rw [if_neg (by unfold Context.etop; omega)]
      exact ⟨_, rfl⟩
    refine hcarried _ ?_
    split_ifs
    · exact le_rfl
    · exact (lt_add_one _).le
  · rw [if_neg hlong]
    exact ⟨_, rfl⟩

theorem div_pow_div (n : ℕ) (e : ℤ) (k : ℕ) :
    (n : ℚ) * 10 ^ e / 10 ^ (e + (k : ℤ)) = n / ((10 ^ k : ℕ) : ℚ) := by
  rw [zpow_add₀ (by norm_num), zpow_natCast, mul_comm, mul_div_mul_left _ _ (ten_zpow_pos e).ne']
  push_cast
  rfl

/-- A number between two powers of ten, rounded by a coefficient of as many digits. -/
theorem rounded_of_nearest {P n : ℕ} {e : ℤ} (hlong : P < digitCount n)
    (hlow : (10 : ℚ) ^ ((digitCount n : ℤ) + e - 1) ≤ X) (hhigh : X < 10 ^ ((digitCount n : ℤ) + e))
    (hnear : Nearest (halfEven n (10 ^ (digitCount n - P))) (X / 10 ^ (e + ((digitCount n - P : ℕ) : ℤ)))) :
    Rounded P X (halfEven n (10 ^ (digitCount n - P)) * 10 ^ (e + ((digitCount n - P : ℕ) : ℤ))) := by
  have hpow : (10 : ℚ) ^ P * 10 ^ (e + ((digitCount n - P : ℕ) : ℤ)) = 10 ^ ((digitCount n : ℤ) + e) := by
    rw [← zpow_natCast, ← zpow_add₀ (by norm_num)]
    congr 1
    omega
  refine .inr ⟨_, _, rfl, ?_, by rw [hpow]; exact hhigh, hnear⟩
  have hstep := ten_zpow_succ ((digitCount n : ℤ) + e - 1)
  rw [sub_add_cancel] at hstep
  rw [hpow, hstep]
  linarith

/-- A result is the exact number, rounded to the precision. -/
theorem fix_rounded (hprec : 1 ≤ c.prec) (hx : x.coefficient ≠ 0)
    (htiny : c.etiny ≤ digitCount x.coefficient + x.exponent - c.prec) (h : fix c x = .ok r) :
    r.negative = x.negative ∧ Rounded c.prec x.magnitude r.magnitude := by
  obtain ⟨hshort, rfl⟩ | ⟨hlong, hneg, hmag⟩ := fix_cases hprec hx htiny h
  · refine ⟨rfl, .inl ⟨rfl, r.coefficient, r.exponent, ?_, rfl⟩⟩
    exact ((digitCount_le_iff hprec).mp hshort).le
  · obtain ⟨hlow, hhigh⟩ := magnitude_bounds hx
    refine ⟨hneg, hmag ▸ rounded_of_nearest hlong hlow hhigh ?_⟩
    rw [Dec.magnitude, div_pow_div]
    exact nearest_halfEven _ (by positivity)

theorem mul_magnitude (x y : Dec) :
    Dec.magnitude ⟨x.negative != y.negative, x.coefficient * y.coefficient, x.exponent + y.exponent⟩ =
      x.magnitude * y.magnitude := by
  rw [Dec.magnitude, Dec.magnitude, Dec.magnitude, zpow_add₀ (by norm_num)]
  push_cast
  ring

/-- A product is the exact one, rounded to the precision. -/
theorem mul_rounded (hprec : 1 ≤ c.prec) (hx : x.coefficient ≠ 0) (hy : y.coefficient ≠ 0)
    (htiny : (10 : ℚ) ^ (c.etiny + c.prec) ≤ x.magnitude * y.magnitude) (h : mul c x y = .ok r) :
    r.negative = (x.negative != y.negative) ∧ Rounded c.prec (x.magnitude * y.magnitude) r.magnitude := by
  have hxy : x.coefficient * y.coefficient ≠ 0 := mul_ne_zero hx hy
  rw [← mul_magnitude] at htiny ⊢
  exact fix_rounded hprec hxy (etiny_le hxy htiny) h

theorem mul_isOk (hx : x.coefficient ≠ 0) (hy : y.coefficient ≠ 0)
    (htiny : (10 : ℚ) ^ (c.etiny + c.prec) ≤ x.magnitude * y.magnitude)
    (hmag : x.magnitude * y.magnitude < 10 ^ c.emax) : ∃ r, mul c x y = .ok r := by
  have hxy : x.coefficient * y.coefficient ≠ 0 := mul_ne_zero hx hy
  rw [← mul_magnitude] at htiny hmag
  exact fix_isOk hxy (etiny_le hxy htiny) hmag

/-! ### Quotients -/

/-- The shifted quotient, the remainder over its divisor, and the exact quotient. -/
theorem shiftedDivMod_spec {n d : ℕ} (hd : d ≠ 0) (shift : ℤ) : ∃ den : ℕ, 0 < den ∧
    (shiftedDivMod n d shift).2 < den ∧
      (n : ℚ) / d * 10 ^ shift = (shiftedDivMod n d shift).1 + ((shiftedDivMod n d shift).2 : ℚ) / den := by
  have hd' : (d : ℚ) ≠ 0 := by exact_mod_cast hd
  unfold shiftedDivMod
  split_ifs with hshift
  · refine ⟨d, Nat.pos_of_ne_zero hd, Nat.mod_lt _ (Nat.pos_of_ne_zero hd), ?_⟩
    obtain ⟨k, rfl⟩ := Int.eq_ofNat_of_zero_le hshift
    rw [← div_add_mod_cast _ (Nat.pos_of_ne_zero hd), Int.toNat_natCast, zpow_natCast]
    push_cast
    ring
  · obtain ⟨k, hk⟩ := Int.eq_ofNat_of_zero_le (show 0 ≤ -shift by omega)
    have hpos : 0 < d * 10 ^ k := Nat.mul_pos (Nat.pos_of_ne_zero hd) (by positivity)
    obtain rfl : shift = -(k : ℤ) := by omega
    refine ⟨d * 10 ^ k, hpos, ?_, ?_⟩
    · simp only [neg_neg, Int.toNat_natCast]
      exact Nat.mod_lt _ hpos
    · simp only [neg_neg, Int.toNat_natCast]
      rw [← div_add_mod_cast _ hpos, zpow_neg, zpow_natCast]
      push_cast
      field_simp

theorem dropZeros_value (fuel n : ℕ) (e : ℤ) :
    ((dropZeros fuel n e).1 : ℚ) * 10 ^ (dropZeros fuel n e).2 = n * 10 ^ e := by
  induction fuel generalizing n e with
  | zero => rfl
  | succ fuel ih =>
    rw [dropZeros]
    split_ifs with hzero
    · rw [ih, ten_zpow_succ]
      have hn : (n : ℚ) = 10 * ((n / 10 : ℕ) : ℚ) := by
        exact_mod_cast (Nat.mul_div_cancel' (Nat.dvd_of_mod_eq_zero hzero)).symm
      rw [hn]
      ring
    · rfl

theorem le_sticky (n : ℕ) : n ≤ sticky n ∧ sticky n ≤ n + 1 := by
  unfold sticky
  split_ifs <;> omega

theorem digitCount_sticky {n : ℕ} (hn : n ≠ 0) : digitCount (sticky n) = digitCount n := by
  obtain ⟨k, hk⟩ := Nat.exists_eq_add_of_le' (digitCount_pos n)
  have hlow : 10 ^ k ≤ n := pow_le_of_lt_digitCount hn (by omega)
  have hhigh : n < 10 ^ (k + 1) := hk ▸ lt_pow_digitCount n
  rw [hk]
  refine digitCount_eq (hlow.trans (le_sticky n).1) ?_
  have hpow : 10 ^ (k + 1) % 5 = 0 := by rw [pow_succ, Nat.mul_mod]; simp
  unfold sticky
  split_ifs <;> omega

/-- The last digit keeps a quotient on its side of every middle. -/
theorem sticky_halves {n h : ℕ} (hdvd : h % 5 = 0) (hpos : 0 < h) : sticky n / (2 * h) = n / (2 * h) ∧
    (sticky n % (2 * h) < h ↔ n % (2 * h) < h) ∧ (h < sticky n % (2 * h) ↔ h ≤ n % (2 * h)) := by
  have hn := Nat.div_add_mod n (2 * h)
  have hlt := Nat.mod_lt n (show 0 < 2 * h by omega)
  have hmod : n % 5 = n % (2 * h) % 5 := (Nat.mod_mod_of_dvd n
    (Dvd.dvd.mul_left (Nat.dvd_of_mod_eq_zero hdvd) 2)).symm
  unfold sticky
  split_ifs with h5
  · have hstep : n + 1 = 2 * h * (n / (2 * h)) + (n % (2 * h) + 1) := by omega
    have hsmall : n % (2 * h) + 1 < 2 * h := by omega
    rw [hstep, Nat.mul_add_div (by omega), Nat.div_eq_of_lt hsmall, Nat.mul_add_mod, Nat.mod_eq_of_lt hsmall]
    exact ⟨rfl, by omega, by omega⟩
  · exact ⟨rfl, Iff.rfl, by omega⟩

/-- A quotient that is not exact is rounded by its last digit. -/
theorem nearest_sticky {q k : ℕ} {t : ℚ} (hk : 1 ≤ k) (hlow : (q : ℚ) < t) (hhigh : t < q + 1) :
    Nearest (halfEven (sticky q) (10 ^ k)) (t / ((10 ^ k : ℕ) : ℚ)) := by
  obtain ⟨j, rfl⟩ := Nat.exists_eq_add_of_le' hk
  have hpow : 10 ^ (j + 1) = 2 * (5 * 10 ^ j) := by ring
  rw [hpow]
  generalize hh : 5 * 10 ^ j = h
  have hpos : 0 < h := by rw [← hh]; positivity
  obtain ⟨hdiv, hlt, hgt⟩ := sticky_halves (n := q) (by rw [← hh]; omega) hpos
  have hd : (0 : ℚ) < ((2 * h : ℕ) : ℚ) := by positivity
  have hq := Nat.div_add_mod q (2 * h)
  have hmod := Nat.mod_lt q (show 0 < 2 * h by omega)
  have hcast : (q : ℚ) = ((2 * h : ℕ) : ℚ) * ((q / (2 * h) : ℕ) : ℚ) + ((q % (2 * h) : ℕ) : ℚ) := by
    exact_mod_cast hq.symm
  have hmodle : ((q % (2 * h) : ℕ) : ℚ) + 1 ≤ ((2 * h : ℕ) : ℚ) := by exact_mod_cast hmod
  have hhalf : ((2 * h : ℕ) : ℚ) = 2 * h := by push_cast; ring
  have hnonneg : (0 : ℚ) ≤ ((q % (2 * h) : ℕ) : ℚ) := by positivity
  have hside : q % (2 * h) < h ↔ t / ((2 * h : ℕ) : ℚ) < ((q / (2 * h) : ℕ) : ℚ) + 1 / 2 := by
    rw [div_lt_iff₀ hd]
    constructor
    · intro hr
      have hr' : ((q % (2 * h) : ℕ) : ℚ) + 1 ≤ h := by exact_mod_cast hr
      linarith
    · intro hr
      by_contra hle
      have hle' : (h : ℚ) ≤ ((q % (2 * h) : ℕ) : ℚ) := by exact_mod_cast Nat.le_of_not_lt hle
      linarith
  refine nearest_halfEven_of ?_ ?_ ?_ ?_
  · rw [hdiv, le_div_iff₀ hd]
    linarith
  · rw [hdiv, div_lt_iff₀ hd]
    linarith
  · rw [hdiv, ← hside, ← hlt]
    omega
  · rw [hdiv, show (2 * h < 2 * (sticky q % (2 * h)) ↔ h < sticky q % (2 * h)) by omega, hgt]
    constructor
    · intro hr
      have hr' : (h : ℚ) ≤ ((q % (2 * h) : ℕ) : ℚ) := by exact_mod_cast hr
      rw [lt_div_iff₀ hd]
      linarith
    · intro hr
      exact Nat.le_of_not_lt fun hlt' => absurd (hside.mp hlt') (not_lt.mpr hr.le)

/-- The shift of a division. -/
def divisionShift (c : Context) (x y : Dec) : ℤ :=
  digitCount y.coefficient - digitCount x.coefficient + c.prec + 1

/-- What a division gives to the context: the exact quotient, or one whose last digit stands for the rest. -/
inductive Quotient (c : Context) (x y : Dec) : Dec → Prop
  | exact (z : Dec) (negative : z.negative = (x.negative != y.negative))
      (magnitude : z.magnitude = x.magnitude / y.magnitude) : Quotient c x y z
  | inexact (q : ℕ) (e : ℤ) (digits : c.prec < digitCount q)
      (below : (q : ℚ) * 10 ^ e < x.magnitude / y.magnitude)
      (above : x.magnitude / y.magnitude < (q + 1) * 10 ^ e) :
      Quotient c x y ⟨x.negative != y.negative, sticky q, e⟩

theorem magnitude_pos (hx : x.coefficient ≠ 0) : 0 < x.magnitude :=
  mul_pos (by exact_mod_cast Nat.pos_of_ne_zero hx) (ten_zpow_pos _)

/-- The quotient has more digits than the precision. -/
theorem quotient_digits (hx : x.coefficient ≠ 0) (hy : y.coefficient ≠ 0) {q : ℕ}
    (hq : (x.coefficient : ℚ) / y.coefficient * 10 ^ divisionShift c x y < q + 1) :
    c.prec < digitCount q := by
  obtain ⟨k, hk⟩ := Nat.exists_eq_add_of_le' (digitCount_pos x.coefficient)
  have hlow : ((10 ^ k : ℕ) : ℚ) ≤ x.coefficient := by exact_mod_cast pow_le_of_lt_digitCount hx (by omega)
  have hhigh : (y.coefficient : ℚ) ≤ ((10 ^ digitCount y.coefficient : ℕ) : ℚ) := by
    exact_mod_cast (lt_pow_digitCount _).le
  have hypos : (0 : ℚ) < y.coefficient := by exact_mod_cast Nat.pos_of_ne_zero hy
  have hshift : divisionShift c x y = c.prec + (digitCount y.coefficient - k : ℤ) := by
    rw [divisionShift, hk]
    push_cast
    ring
  have hratio : (10 : ℚ) ^ (k : ℤ) / 10 ^ (digitCount y.coefficient : ℤ) ≤ x.coefficient / y.coefficient := by
    rw [zpow_natCast, zpow_natCast]
    push_cast at hlow hhigh
    exact div_le_div₀ (by positivity) hlow hypos hhigh
  have hprec : ((10 ^ c.prec : ℕ) : ℚ) ≤ x.coefficient / y.coefficient * 10 ^ divisionShift c x y := by
    calc ((10 ^ c.prec : ℕ) : ℚ) = 10 ^ (k : ℤ) / 10 ^ (digitCount y.coefficient : ℤ) * 10 ^ divisionShift c x y := by
          rw [hshift, ← zpow_sub₀ (by norm_num), ← zpow_add₀ (by norm_num)]
          push_cast
          rw [← zpow_natCast]
          congr 1
          ring
      _ ≤ _ := mul_le_mul_of_nonneg_right hratio (ten_zpow_pos _).le
  have hlt : (10 ^ c.prec : ℕ) < q + 1 := by exact_mod_cast lt_of_le_of_lt hprec hq
  by_contra hdigits
  obtain hzero | hpos := Nat.eq_zero_or_pos c.prec
  · have := digitCount_pos q
    omega
  · have := (digitCount_le_iff hpos).mp (Nat.le_of_not_lt hdigits)
    omega

theorem magnitude_div (x y : Dec) (shift : ℤ) :
    x.magnitude / y.magnitude = (x.coefficient : ℚ) / y.coefficient * 10 ^ shift *
      10 ^ (x.exponent - y.exponent - shift) := by
  rw [mul_assoc, ← zpow_add₀ (by norm_num), show shift + (x.exponent - y.exponent - shift) =
    x.exponent - y.exponent by ring, zpow_sub₀ (by norm_num), Dec.magnitude, Dec.magnitude]
  rw [mul_div_mul_comm]

/-- A division gives a quotient to the context. -/
theorem truediv_eq_fix (hx : x.coefficient ≠ 0) (hy : y.coefficient ≠ 0) :
    ∃ z, Quotient c x y z ∧ truediv c x y = fix c z := by
  obtain ⟨den, hden, hrem, hspec⟩ := shiftedDivMod_spec (n := x.coefficient) hy (divisionShift c x y)
  unfold truediv
  rw [if_neg hy]
  dsimp only
  rw [if_neg hx]
  rw [show (digitCount y.coefficient : ℤ) - digitCount x.coefficient + c.prec + 1 = divisionShift c x y from rfl]
  generalize shiftedDivMod x.coefficient y.coefficient (divisionShift c x y) = qr at hrem hspec ⊢
  obtain ⟨q, rem⟩ := qr
  dsimp only at hrem hspec ⊢
  have hden' : (0 : ℚ) < den := by exact_mod_cast hden
  have hpos := ten_zpow_pos (x.exponent - y.exponent - divisionShift c x y)
  have hrem' : (rem : ℚ) / den < 1 := (div_lt_one hden').mpr (by exact_mod_cast hrem)
  by_cases hexact : rem = 0
  · rw [if_neg (not_not.mpr hexact)]
    refine ⟨_, .exact _ rfl ?_, rfl⟩
    rw [Dec.magnitude, dropZeros_value, magnitude_div x y (divisionShift c x y), hspec, hexact]
    simp
  · rw [if_pos hexact]
    have hfrac : (0 : ℚ) < (rem : ℚ) / den := div_pos (by exact_mod_cast Nat.pos_of_ne_zero hexact) hden'
    refine ⟨_, .inexact q _ (quotient_digits hx hy (by rw [hspec]; linarith)) ?_ ?_, rfl⟩
    · rw [magnitude_div x y (divisionShift c x y)]
      exact mul_lt_mul_of_pos_right (by linarith) hpos
    · rw [magnitude_div x y (divisionShift c x y)]
      exact mul_lt_mul_of_pos_right (by linarith) hpos

/-- What is given to the context is no further from the exact quotient than the last digit. -/
theorem Quotient.bounds {z : Dec} (hprec : 1 ≤ c.prec) (hX : 0 < x.magnitude / y.magnitude)
    (hz : Quotient c x y z) : z.coefficient ≠ 0 ∧ x.magnitude / y.magnitude ≤ 10 * z.magnitude ∧
      z.magnitude ≤ 10 * (x.magnitude / y.magnitude) := by
  cases hz with
  | exact _ _ hmag =>
    refine ⟨fun hzero => ?_, by linarith, by linarith⟩
    rw [← hmag, Dec.magnitude, hzero] at hX
    simp at hX
  | inexact q e hdigits hbelow habove =>
    have hq : 1 ≤ q := by
      by_contra hlt
      obtain rfl : q = 0 := by omega
      have hone : digitCount 0 = 1 := rfl
      omega
    have hpos := ten_zpow_pos e
    obtain ⟨hle, hge⟩ := le_sticky q
    have hq' : (1 : ℚ) ≤ q := by exact_mod_cast hq
    have hle' : (q : ℚ) * 10 ^ e ≤ sticky q * 10 ^ e := mul_zpow_le hle
    have hge' : (sticky q : ℚ) * 10 ^ e ≤ ((q + 1 : ℕ) : ℚ) * 10 ^ e := mul_zpow_le hge
    have hone : (10 : ℚ) ^ e ≤ q * 10 ^ e := le_mul_of_one_le_left hpos.le hq'
    push_cast at hge'
    have hmag : Dec.magnitude ⟨x.negative != y.negative, sticky q, e⟩ = sticky q * 10 ^ e := rfl
    rw [hmag]
    refine ⟨fun hzero => ?_, by linarith, by linarith⟩
    simp only at hzero
    omega

/-- A quotient is the exact one, rounded to the precision. -/
theorem truediv_rounded (hprec : 1 ≤ c.prec) (hx : x.coefficient ≠ 0) (hy : y.coefficient ≠ 0)
    (htiny : (10 : ℚ) ^ (c.etiny + c.prec + 1) ≤ x.magnitude / y.magnitude) (h : truediv c x y = .ok r) :
    r.negative = (x.negative != y.negative) ∧ Rounded c.prec (x.magnitude / y.magnitude) r.magnitude := by
  obtain ⟨z, hz, heq⟩ := truediv_eq_fix (c := c) hx hy
  obtain ⟨hne, hnear, -⟩ := hz.bounds hprec (div_pos (magnitude_pos hx) (magnitude_pos hy))
  rw [heq] at h
  rw [ten_zpow_succ] at htiny
  have hetiny := etiny_le (c := c) hne (by linarith)
  cases hz with
  | exact _ hneg hmag =>
    obtain ⟨hsign, hround⟩ := fix_rounded hprec hne hetiny h
    exact ⟨hsign.trans hneg, hmag ▸ hround⟩
  | inexact q e hdigits hbelow habove =>
    have hq : q ≠ 0 := by
      rintro rfl
      have hone : digitCount 0 = 1 := rfl
      omega
    have hsame := digitCount_sticky hq
    obtain ⟨hshort, -⟩ | ⟨hlong, hsign, hmag⟩ := fix_cases hprec hne hetiny h
    · dsimp only at hshort
      omega
    · refine ⟨hsign, ?_⟩
      dsimp only at hlong hmag
      rw [hmag]
      have hpos := ten_zpow_pos e
      have hpow : ((q + 1 : ℕ) : ℚ) ≤ ((10 ^ digitCount q : ℕ) : ℚ) := by
        exact_mod_cast lt_pow_digitCount q
      refine rounded_of_nearest hlong ?_ ?_ ?_
      · rw [hsame]
        exact (magnitude_bounds (x := ⟨false, q, e⟩) hq).1.trans hbelow.le
      · rw [hsame, zpow_add₀ (by norm_num), zpow_natCast]
        push_cast at hpow
        exact lt_of_lt_of_le habove (mul_le_mul_of_nonneg_right hpow hpos.le)
      · rw [zpow_add₀ (by norm_num), zpow_natCast, ← div_div]
        have hk : ((10 ^ (digitCount (sticky q) - c.prec) : ℕ) : ℚ) = 10 ^ (digitCount (sticky q) - c.prec) := by
          push_cast
          rfl
        rw [← hk]
        exact nearest_sticky (by omega) ((lt_div_iff₀ hpos).mpr hbelow) ((div_lt_iff₀ hpos).mpr habove)

theorem truediv_isOk (hprec : 1 ≤ c.prec) (hx : x.coefficient ≠ 0) (hy : y.coefficient ≠ 0)
    (htiny : (10 : ℚ) ^ (c.etiny + c.prec + 1) ≤ x.magnitude / y.magnitude)
    (hmag : 10 * (x.magnitude / y.magnitude) < 10 ^ c.emax) : ∃ r, truediv c x y = .ok r := by
  obtain ⟨z, hz, heq⟩ := truediv_eq_fix (c := c) hx hy
  obtain ⟨hne, hbelow, habove⟩ := hz.bounds hprec (div_pos (magnitude_pos hx) (magnitude_pos hy))
  rw [ten_zpow_succ] at htiny
  rw [heq]
  exact fix_isOk hne (etiny_le hne (by linarith)) (by linarith)

/-! ### Quantizing -/

theorem rescale_coefficient (hx : x.coefficient ≠ 0) (exp : ℤ) :
    ((rescale x exp).coefficient : ℤ) = ⌊x.magnitude / 10 ^ exp + 1 / 2⌋ := by
  unfold rescale
  rw [if_neg hx, Dec.magnitude]
  split_ifs with hexp
  · obtain ⟨k, hk⟩ := Int.le.dest hexp
    have hval : (x.coefficient : ℚ) * 10 ^ x.exponent / 10 ^ exp = ((x.coefficient * 10 ^ k : ℕ) : ℚ) := by
      rw [← hk, zpow_add₀ (by norm_num), zpow_natCast, mul_left_comm,
        mul_div_cancel_left₀ _ (ten_zpow_pos exp).ne']
      push_cast
      rfl
    have hsub : (x.exponent - exp).toNat = k := by omega
    rw [hval, hsub, eq_comm, Int.floor_eq_iff]
    dsimp only
    push_cast
    constructor <;> linarith
  · obtain ⟨k, hk⟩ := Int.le.dest (show x.exponent ≤ exp by omega)
    have hsub : (exp - x.exponent).toNat = k := by omega
    rw [hsub, ← hk, div_pow_div]
    exact halfUp_eq_floor _ (by positivity)

theorem fix_eq_self (hlow : c.etiny ≤ x.exponent) (hhigh : x.exponent + c.prec ≤ c.emax)
    (hdigits : digitCount x.coefficient ≤ c.prec) : fix c x = .ok x := by
  unfold fix
  split_ifs with hzero
  · rw [max_eq_left hlow, min_eq_left (by omega), ← hzero]
  · dsimp only
    rw [if_neg (by unfold Context.etop; omega), if_neg (by omega)]

/-- Quantizing rounds up from the middle; it fails if the digits exceed the precision. -/
theorem quantize_eq {e : ℤ} {k : ℕ} (hprec : 1 ≤ c.prec) (hlow : c.etiny ≤ e) (hhigh : e + c.prec ≤ c.emax)
    (hx : x.coefficient ≠ 0) (hk : (k : ℤ) = ⌊x.magnitude / 10 ^ e + 1 / 2⌋) :
    quantize c x e = if k < 10 ^ c.prec then .ok ⟨x.negative, k, e⟩ else .error .invalidOperation := by
  have hcoefficient : (rescale x e).coefficient = k := by
    have := (rescale_coefficient hx e).trans hk.symm
    exact_mod_cast this
  have hexponent : (rescale x e).exponent = e := by unfold rescale; split_ifs <;> rfl
  have hnegative : (rescale x e).negative = x.negative := by unfold rescale; split_ifs <;> rfl
  have hlarge : e + c.prec ≤ x.adjusted → ¬ k < 10 ^ c.prec := fun hadj => by
    have hmag := (ten_zpow_le hadj).trans (magnitude_bounds hx).1
    rw [zpow_add₀ (by norm_num), zpow_natCast, mul_comm, ← le_div_iff₀ (ten_zpow_pos e)] at hmag
    have hfloor : ((10 ^ c.prec : ℕ) : ℤ) ≤ ⌊x.magnitude / 10 ^ e + 1 / 2⌋ := by
      rw [Int.le_floor]
      push_cast
      linarith
    rw [← hk] at hfloor
    exact not_lt.mpr (by exact_mod_cast hfloor)
  unfold quantize
  rw [if_neg (by rw [not_not]; omega), if_neg hx]
  by_cases hadj : e + c.prec ≤ x.adjusted
  · rw [if_neg (hlarge hadj)]
    split_ifs <;> first | rfl | omega
  rw [if_neg (by omega), if_neg (by omega)]
  dsimp only
  have hdigits : digitCount k ≤ c.prec ↔ k < 10 ^ c.prec := digitCount_le_iff hprec
  rw [Dec.adjusted, hcoefficient, hexponent]
  by_cases hfits : k < 10 ^ c.prec
  · have hle := hdigits.mpr hfits
    rw [if_pos hfits, if_neg (by omega), if_neg (by omega)]
    have hrescaled : rescale x e = ⟨x.negative, k, e⟩ := Dec.ext hnegative hcoefficient hexponent
    rw [hrescaled]
    exact fix_eq_self hlow hhigh hle
  · have hgt := hdigits.not.mpr hfits
    rw [if_neg hfits]
    split_ifs <;> first | rfl | omega

end

end CompanionBackend.DecimalArithmetic
