import CompanionBackend.DecimalTexts

/-!
# Simulated prices

An amount is a decimal number with at most twelve places, up to 10^18. An estimate is the product of
seconds and a price, divided for prices by the minute, and rounded to six places; its arithmetic has 48
digits. A price labels the daily metrics by its shortest text.
-/
namespace CompanionBackend.Pricing

open DecimalArithmetic DecimalTexts

/-- What is passed as an amount; `other` is a value of another type, or a boolean. -/
inductive Given
  | text (s : Text)
  | int (n : ℤ)
  | decimal (d : Dec)
  | nonFinite
  | other
  deriving DecidableEq

/-- An amount that is not negative, not too large and has not too many places. -/
def bounded (d : Dec) : Option Dec :=
  if d.value < 0 ∨ 10 ^ 18 < d.value ∨ d.exponent < -12 then none else some d

/-- `_amount`; nothing if it raises `ValueError`. -/
def amount (A : Alphabet) : Given → Option Dec
  | .text s => if 64 < s.length then none else (parse A s).bind bounded
  | .int n => if 64 < (strInt n).length then none else bounded ⟨n < 0, n.natAbs, 0⟩
  | .decimal d => if 64 < (str d).length then none else bounded d
  | .nonFinite => none
  | .other => none

inductive Failure
  | valueError
  /-- An exception of the decimal arithmetic. -/
  | signal (s : Signal)
  deriving DecidableEq

/-- The context of an estimate. -/
def estimateContext : Context := ⟨48, 999999, -999999⟩

def MINUTE : Text := "minute".toList

def SECOND : Text := "second".toList

def unitSeconds (unit : Text) : ℕ := if unit = MINUTE then 60 else 1

/-- The arithmetic of an estimate. -/
def quantized (seconds : ℕ) (price : Dec) (unit : Text) : Except Signal Dec := do
  let product ← mul estimateContext ⟨false, seconds, 0⟩ price
  let quotient ← truediv estimateContext product ⟨false, unitSeconds unit, 0⟩
  quantize estimateContext quotient (-6)

/-- `estimate_amount`. -/
def estimateAmount (A : Alphabet) (seconds : ℤ) (unitPrice : Given) (unit : Text) : Except Failure Dec :=
  if seconds < 0 ∨ ¬ (unit = MINUTE ∨ unit = SECOND) then .error .valueError
  else
    match amount A unitPrice with
    | none => .error .valueError
    | some price =>
      match quantized seconds.toNat price unit with
      | .error s => .error (.signal s)
      | .ok value =>
        match amount A (.decimal value) with
        | none => .error .valueError
        | some estimate => .ok estimate

structure SimulatedPricing where
  unitPrice : Text
  unit : Text
  currency : Text
  deriving DecidableEq

/-- `canonical`. -/
def canonical (price : Dec) : Text :=
  let canonical := if price.coefficient ≠ 0 then formatF price else ['0']
  if '.' ∈ canonical then rstrip '.' (rstrip '0' canonical) else canonical

/-- `SimulatedPricing(..)`; nothing if it raises `ValueError`. -/
def simulatedPricing (A : Alphabet) (unitPrice : Given) (unit currency : Text) : Option SimulatedPricing :=
  match amount A unitPrice with
  | none => none
  | some price =>
    if ¬ (unit = MINUTE ∨ unit = SECOND) ∨ ¬ (currency.length = 3 ∧ currency.all Char.isUpper) then none
    else some ⟨canonical price, unit, currency⟩

def SimulatedPricing.dimensions (p : SimulatedPricing) : List (String × Text) :=
  [("data_source", "simulated".toList), ("unit_price", p.unitPrice), ("unit", p.unit),
    ("currency", p.currency), ("rounding", "half_up_6_decimal_places".toList)]

def SimulatedPricing.estimate (A : Alphabet) (p : SimulatedPricing) (seconds : ℤ) : Except Failure Dec :=
  estimateAmount A seconds (.text p.unitPrice) p.unit

/-- What labels the daily metrics of a price. -/
structure DailyDimensions where
  timezone : String
  formulaVersion : String
  pricing : List (String × Text)
  deriving DecidableEq

/-- `daily_dimensions` of a price. -/
def dailyDimensions (p : SimulatedPricing) : DailyDimensions := ⟨"Asia/Shanghai", "voice-daily-v1", p.dimensions⟩

end CompanionBackend.Pricing

/-!
## Estimates that are exact

The product of seconds and a price has at most 48 digits as long as the estimate is not too large, and the
quotient stays on its side of every middle of two estimates. Far beyond the largest amount the digits do not
suffice to quantize, and what is raised then is no `ValueError`.
-/
namespace CompanionBackend.Pricing

open DecimalRounding DecimalArithmetic DecimalTexts

/-! ### Amounts -/

/-- An amount that was accepted. -/
structure Accepted (d : Dec) : Prop where
  nonneg : 0 ≤ d.value
  le_max : d.value ≤ 10 ^ 18
  places : -12 ≤ d.exponent

theorem accepted_of_bounded {d d' : Dec} (h : bounded d = some d') : d' = d ∧ Accepted d := by
  unfold bounded at h
  split_ifs at h with hbad
  obtain rfl := Option.some.inj h
  simp only [not_or, not_lt] at hbad
  exact ⟨rfl, hbad.1, hbad.2.1, hbad.2.2⟩

theorem bounded_of_accepted {d : Dec} (h : Accepted d) : bounded d = some d := by
  unfold bounded
  rw [if_neg]
  simp only [not_or, not_lt]
  exact ⟨h.nonneg, h.le_max, h.places⟩

theorem accepted_of_amount {A : Alphabet} {given : Given} {d : Dec} (h : amount A given = some d) :
    Accepted d := by
  unfold amount at h
  split at h
  · split_ifs at h
    obtain ⟨d', -, hbounded⟩ := Option.bind_eq_some_iff.mp h
    obtain ⟨rfl, haccepted⟩ := accepted_of_bounded hbounded
    exact haccepted
  · split_ifs at h
    obtain ⟨rfl, haccepted⟩ := accepted_of_bounded h
    exact haccepted
  · split_ifs at h
    obtain ⟨rfl, haccepted⟩ := accepted_of_bounded h
    exact haccepted
  · cases h
  · cases h

theorem Accepted.negative {d : Dec} (h : Accepted d) (hd : d.coefficient ≠ 0) : d.negative = false := by
  have hpos := magnitude_pos hd
  have hnonneg := h.nonneg
  unfold Dec.value at hnonneg
  split_ifs at hnonneg with hneg
  · linarith
  · simpa using hneg

theorem value_of_nonneg {d : Dec} (h : d.negative = false) : d.value = d.magnitude := by
  unfold Dec.value
  rw [h]
  rfl

theorem value_of_zero {d : Dec} (h : d.coefficient = 0) : d.value = 0 := by
  unfold Dec.value Dec.magnitude
  rw [h]
  simp

theorem Accepted.value_eq {d : Dec} (h : Accepted d) : d.value = d.magnitude := by
  by_cases hd : d.coefficient = 0
  · rw [value_of_zero hd, Dec.magnitude, hd]
    simp
  · exact value_of_nonneg (h.negative hd)

/-- The text of an amount with six places is short. -/
theorem length_str_places (negative : Bool) (k : ℕ) : (str ⟨negative, k, -6⟩).length ≤ digitCount k + 9 := by
  have hlen : 0 < (digitsOf k).length := digitCount_pos k
  have hcount : digitCount k = (digitsOf k).length := rfl
  have hplace : (if (-6 : ℤ) ≤ 0 ∧ (-6 : ℤ) < -6 + ((digitsOf k).length : ℤ) then
      (-6 : ℤ) + ((digitsOf k).length : ℤ) else 1) = -6 + ((digitsOf k).length : ℤ) := if_pos (by omega)
  have hsign : (if negative then ['-'] else []).length ≤ 1 := by cases negative <;> decide
  unfold str
  dsimp only
  rw [hplace, if_pos rfl, hcount, List.append_nil, List.length_append]
  generalize digitsOf k = int at hlen
  by_cases hsmall : (-6 : ℤ) + int.length ≤ 0
  · rw [if_pos hsmall]
    simp only [List.length_cons, List.length_append, List.length_replicate]
    omega
  · have hinner : ¬ (int.length : ℤ) ≤ -6 + int.length := by omega
    rw [if_neg hsmall, if_neg hinner]
    simp only [List.length_cons, List.length_append, List.length_take, List.length_drop]
    omega

/-- A result of at most 48 digits is an amount exactly if it is not too large. -/
theorem amount_places {A : Alphabet} {negative : Bool} {k : ℕ} (hk : k < 10 ^ 48)
    (hneg : k ≠ 0 → negative = false) :
    amount A (.decimal ⟨negative, k, -6⟩) = if k ≤ 10 ^ 24 then some ⟨negative, k, -6⟩ else none := by
  have hdigits : digitCount k ≤ 48 := (digitCount_le_iff (by norm_num)).mpr hk
  have hlen := length_str_places negative k
  have hvalue : Dec.value ⟨negative, k, -6⟩ = (k : ℚ) * 10 ^ (-6 : ℤ) := by
    by_cases hzero : k = 0
    · rw [value_of_zero hzero, hzero]
      simp
    · exact value_of_nonneg (hneg hzero)
  unfold amount
  dsimp only
  rw [if_neg (by omega), bounded, hvalue]
  have hnonneg : ¬ (k : ℚ) * 10 ^ (-6 : ℤ) < 0 := not_lt.mpr (by positivity)
  have hlarge : (10 : ℚ) ^ 18 < (k : ℚ) * 10 ^ (-6 : ℤ) ↔ 10 ^ 24 < k := by
    rw [zpow_neg, ← div_eq_mul_inv, lt_div_iff₀ (by positivity)]
    norm_num
  by_cases hle : k ≤ 10 ^ 24
  · rw [if_neg, if_pos hle]
    rintro (h | h | h)
    · exact hnonneg h
    · exact absurd (hlarge.mp h) (by omega)
    · exact absurd h (by norm_num)
  · rw [if_pos (.inr (.inl (hlarge.mpr (by omega)))), if_neg hle]

/-! ### Numbers -/

/-- The rounded product `m` and the rounded quotient. -/
def Steps (u : ℕ) (p d : ℚ) : Prop := ∃ m, Rounded 48 p m ∧ Rounded 48 (m / u) d

/-- Millionths, rounded up from the middle. -/
def millionths (x : ℚ) : ℤ := ⌊x * 10 ^ 6 + 1 / 2⌋

theorem le_millionths {x : ℚ} {k : ℤ} : k ≤ millionths x ↔ ((k : ℚ) - 1 / 2) / 10 ^ 6 ≤ x := by
  rw [millionths, Int.le_floor, div_le_iff₀ (by positivity)]
  constructor <;> intro h <;> linarith

theorem millionths_lt {x : ℚ} {k : ℤ} : millionths x < k ↔ x < ((k : ℚ) - 1 / 2) / 10 ^ 6 := by
  rw [← not_le, le_millionths, not_le]

section

variable {u n k : ℕ} {p d m : ℚ}

theorem units_cast (hu : u = 1 ∨ u = 60) : (1 : ℚ) ≤ u ∧ (u : ℚ) ≤ 60 := by
  obtain rfl | rfl := hu <;> norm_num

/-- A product that is not too large is exact. -/
theorem product_exact (hu : u = 1 ∨ u = 60) (hp : p = n * 10 ^ (-12 : ℤ))
    (hk : millionths (p / u) ≤ 10 ^ 24) (h : Rounded 48 p m) : m = p := by
  obtain ⟨hone, hsixty⟩ := units_cast hu
  have hlt : millionths (p / u) < 10 ^ 24 + 1 := by omega
  rw [millionths_lt, div_lt_iff₀ (by linarith)] at hlt
  have hbound : p < 10 ^ 20 := by
    push_cast at hlt
    norm_num at hlt ⊢
    linarith
  have hn : (n : ℚ) ≤ ((10 ^ 48 : ℕ) : ℚ) := by
    rw [hp] at hbound
    norm_num at hbound
    push_cast
    linarith
  exact h.eq_of_representable (by norm_num) (hp ▸ representable_of_le (by exact_mod_cast hn) _)

/-- The quotient stays between the middles around it. -/
theorem millionths_exact (hu : u = 1 ∨ u = 60) (hp : p = n * 10 ^ (-12 : ℤ))
    (hk : millionths (p / u) = k) (hle : k ≤ 10 ^ 24) (h : Rounded 48 (p / u) d) : millionths d = k := by
  obtain ⟨hone, hsixty⟩ := units_cast hu
  have hpos : (0 : ℚ) < u := by linarith
  have hlow : (((k : ℤ) : ℚ) - 1 / 2) / 10 ^ 6 ≤ p / u := le_millionths.mp hk.ge
  have hhigh : p / u < ((((k : ℤ) + 1 : ℤ) : ℚ) - 1 / 2) / 10 ^ 6 := millionths_lt.mp (by omega)
  push_cast at hlow hhigh
  have hnonneg : (0 : ℚ) ≤ p / u := by
    rw [hp]
    positivity
  refine le_antisymm ?_ ?_
  · -- between the quotient and the middle above it there is a number of 48 digits
    have hn : n + 1 ≤ (2 * k + 1) * 500000 * u := by
      have hlt : (n : ℚ) < (2 * k + 1) * 500000 * u := by
        rw [hp, div_lt_iff₀ hpos] at hhigh
        norm_num at hhigh
        linarith
      exact_mod_cast hlt
    have hrep : Representable 48 (((2 * k + 1) * 50000000 - 1 : ℕ) * 10 ^ (-14 : ℤ)) :=
      representable_of_le (by omega) _
    have hcast : (((2 * k + 1) * 50000000 - 1 : ℕ) : ℚ) = (2 * k + 1) * 50000000 - 1 := by
      rw [Nat.cast_sub (by omega)]
      push_cast
      ring
    have hbelow : p / u ≤ ((2 * k + 1) * 50000000 - 1 : ℕ) * 10 ^ (-14 : ℤ) := by
      have hn' : (n : ℚ) + 1 ≤ (2 * k + 1) * 500000 * u := by exact_mod_cast hn
      rw [hcast, div_le_iff₀ hpos, hp]
      norm_num
      linarith
    have hd := h.le (by norm_num) hrep hbelow
    rw [hcast] at hd
    refine Int.lt_add_one_iff.mp (millionths_lt.mpr ?_)
    push_cast
    norm_num at hd ⊢
    linarith
  · rw [le_millionths]
    push_cast
    obtain hzero | hpos' := Nat.eq_zero_or_pos k
    · have hd := h.ge (by norm_num) (representable_of_le (n := 0) (by norm_num) 0) (by simpa using hnonneg)
      rw [hzero]
      norm_num at hd ⊢
      linarith
    · have hcast : (((2 * k - 1) * 5 : ℕ) : ℚ) = (2 * k - 1) * 5 := by
        rw [Nat.cast_mul, Nat.cast_sub (by omega)]
        push_cast
        ring
      have hd := h.ge (by norm_num) (representable_of_le (n := (2 * k - 1) * 5) (by omega) (-7)) (by
        rw [hcast]
        norm_num at hlow ⊢
        linarith)
      rw [hcast] at hd
      norm_num at hd ⊢
      linarith

/-- An estimate that is too large stays so. -/
theorem millionths_large (hu : u = 1 ∨ u = 60) (hk : 10 ^ 24 < millionths (p / u)) (h : Steps u p d) :
    10 ^ 24 < millionths d := by
  obtain ⟨m, hm, hd⟩ := h
  obtain ⟨hone, hsixty⟩ := units_cast hu
  have hpos : (0 : ℚ) < u := by linarith
  have hu60 : u ≤ 60 := by exact_mod_cast hsixty
  have hp : (((2 * 10 ^ 24 + 1) * 5 * u : ℕ) : ℚ) * 10 ^ (-7 : ℤ) ≤ p := by
    have hle := le_millionths.mp (Int.add_one_le_iff.mpr hk)
    rw [le_div_iff₀ hpos] at hle
    push_cast at hle ⊢
    norm_num at hle ⊢
    linarith
  have hm' := hm.ge (by norm_num) (representable_of_le (by omega) _) hp
  have hd' := hd.ge (by norm_num) (representable_of_le (n := (2 * 10 ^ 24 + 1) * 5) (by norm_num) (-7)) (by
    rw [le_div_iff₀ hpos]
    push_cast at hm' ⊢
    linarith)
  refine Int.add_one_le_iff.mp (le_millionths.mpr ?_)
  push_cast at hd' ⊢
  norm_num at hd' ⊢
  linarith

/-- The product times seconds that the digits suffice for. -/
def bound (u : ℕ) : ℚ := if u = 60 then 6 * 10 ^ 43 - 5 / 10 ^ 5 else 10 ^ 42 - 5 / 10 ^ 7

/-- Below the bound, an estimate has at most 48 digits. -/
theorem millionths_fits (hu : u = 1 ∨ u = 60) (hp : p < bound u) (h : Steps u p d) : millionths d < 10 ^ 48 := by
  obtain ⟨m, hm, hd⟩ := h
  have hodd : ¬ Even (10 ^ 48 - 1) := by decide
  have hlt : d ≤ ((10 ^ 48 - 1 : ℕ) : ℚ) * 10 ^ (-6 : ℤ) := by
    obtain rfl | rfl := hu
    · have hm' := hm.step_down (n := 10 ^ 48 - 1) (e := -6) (by norm_num) (by norm_num) (by norm_num) (by
        rw [bound, if_neg (by norm_num)] at hp
        norm_num at hp ⊢
        exact hp)
      exact hd.le (by norm_num) (representable_of_le (by norm_num) _) (by rw [Nat.cast_one, div_one]; exact hm')
    · have hm' := hm.step_down (n := 6 * 10 ^ 47 - 1) (e := -4) (by norm_num) (by norm_num) (by norm_num) (by
        rw [bound, if_pos rfl] at hp
        norm_num at hp ⊢
        exact hp)
      refine hd.step_down (by norm_num) (by norm_num) (by norm_num) ?_
      norm_num at hm' ⊢
      linarith
  refine millionths_lt.mpr ?_
  push_cast
  norm_num at hlt ⊢
  linarith

/-- From the bound on, it has more. -/
theorem millionths_exceeds (hu : u = 1 ∨ u = 60) (hp : bound u ≤ p) (h : Steps u p d) :
    10 ^ 48 ≤ millionths d := by
  obtain ⟨m, hm, hd⟩ := h
  have hge : ((10 ^ 48 : ℕ) : ℚ) * 10 ^ (-6 : ℤ) ≤ d := by
    refine hd.ge (by norm_num) (representable_of_le le_rfl _) ?_
    obtain rfl | rfl := hu
    · have hm' := hm.step_up (n := 10 ^ 48 - 1) (e := -6) (by norm_num) (by norm_num) (by norm_num) (by decide) (by
        rw [bound, if_neg (by norm_num)] at hp
        norm_num at hp ⊢
        exact hp)
      norm_num at hm' ⊢
      exact hm'
    · have hm' := hm.step_up (n := 6 * 10 ^ 47 - 1) (e := -4) (by norm_num) (by norm_num) (by norm_num) (by decide) (by
        rw [bound, if_pos rfl] at hp
        norm_num at hp ⊢
        exact hp)
      norm_num at hm' ⊢
      linarith
  refine le_millionths.mpr ?_
  push_cast
  norm_num at hge ⊢
  linarith

end

/-! ### The arithmetic of an estimate -/

section

variable {seconds : ℕ} {price : Dec} {unit : Text}

theorem magnitude_nat (n : ℕ) : Dec.magnitude ⟨false, n, 0⟩ = n := by
  rw [Dec.magnitude, zpow_zero, mul_one]

theorem unitSeconds_cases (unit : Text) : unitSeconds unit = 1 ∨ unitSeconds unit = 60 := by
  unfold unitSeconds
  split_ifs
  · exact .inr rfl
  · exact .inl rfl

/-- A product that is not zero has its last digit in the twelfth place. -/
theorem product_places (hprice : Accepted price) :
    ∃ n : ℕ, (seconds : ℚ) * price.magnitude = n * 10 ^ (-12 : ℤ) := by
  obtain ⟨k, hk⟩ := Int.le.dest hprice.places
  refine ⟨seconds * (price.coefficient * 10 ^ k), ?_⟩
  rw [Dec.magnitude, ← hk, zpow_add₀ (by norm_num), zpow_natCast]
  push_cast
  ring

theorem small_of_pos {p : ℚ} {n : ℕ} (hp : p = n * 10 ^ (-12 : ℤ)) (hpos : 0 < p) : (10 : ℚ) ^ (-12 : ℤ) ≤ p := by
  have hn : n ≠ 0 := by
    rintro rfl
    rw [hp] at hpos
    simp at hpos
  have hone : (1 : ℚ) ≤ n := by exact_mod_cast Nat.one_le_iff_ne_zero.mpr hn
  rw [hp]
  exact le_mul_of_one_le_left (ten_zpow_pos _).le hone

theorem bound_lt (u : ℕ) : bound u < 10 ^ (44 : ℤ) := by
  unfold bound
  split_ifs <;> norm_num

theorem lt_emax {a : ℚ} {e : ℤ} (h : a < 10 ^ e) (he : e ≤ 999999) : a < 10 ^ estimateContext.emax :=
  lt_of_lt_of_le h (ten_zpow_le he)

theorem emin_le {a : ℚ} {e : ℤ} (h : (10 : ℚ) ^ e ≤ a) (he : -999997 ≤ e) :
    (10 : ℚ) ^ (estimateContext.etiny + estimateContext.prec + 1) ≤ a :=
  (ten_zpow_le (by unfold Context.etiny estimateContext; dsimp only; omega)).trans h

/-- The rounded product, unless it overflows. -/
theorem product_cases (hprice : Accepted price) (hseconds : seconds ≠ 0) (hcoefficient : price.coefficient ≠ 0) :
    (∃ s, mul estimateContext ⟨false, seconds, 0⟩ price = .error s ∧
      (10 : ℚ) ^ (44 : ℤ) ≤ seconds * price.magnitude) ∨
    ∃ m, mul estimateContext ⟨false, seconds, 0⟩ price = .ok m ∧ m.negative = false ∧
      Rounded 48 (seconds * price.magnitude) m.magnitude ∧ (10 : ℚ) ^ (-12 : ℤ) ≤ m.magnitude := by
  obtain ⟨n, hn⟩ := product_places hprice
  have hpos : (0 : ℚ) < seconds * price.magnitude :=
    mul_pos (by exact_mod_cast Nat.pos_of_ne_zero hseconds) (magnitude_pos hcoefficient)
  have hsmall := small_of_pos hn hpos
  have htiny : (10 : ℚ) ^ (estimateContext.etiny + estimateContext.prec) ≤
      Dec.magnitude ⟨false, seconds, 0⟩ * price.magnitude := by
    rw [magnitude_nat]
    exact (ten_zpow_le (by omega)).trans (emin_le hsmall (by norm_num))
  cases hmul : mul estimateContext ⟨false, seconds, 0⟩ price with
  | error s =>
    refine .inl ⟨s, rfl, not_lt.mp fun hlt => ?_⟩
    obtain ⟨r, hr⟩ := mul_isOk (c := estimateContext) (x := ⟨false, seconds, 0⟩) hseconds hcoefficient htiny
      (by rw [magnitude_nat]; exact lt_emax hlt (by norm_num))
    rw [hmul] at hr
    cases hr
  | ok m =>
    obtain ⟨hneg, hround⟩ := mul_rounded (c := estimateContext) (x := ⟨false, seconds, 0⟩) (by decide)
      hseconds hcoefficient htiny hmul
    rw [magnitude_nat] at hround
    refine .inr ⟨m, rfl, ?_, hround, ?_⟩
    · rw [hneg, hprice.negative hcoefficient]
      rfl
    · have hge := hround.ge (by decide) (representable_of_le (n := 1) (by decide) (-12)) (by simpa using hsmall)
      simpa using hge

theorem coefficient_ne_zero {d : Dec} (h : 0 < d.magnitude) : d.coefficient ≠ 0 := by
  intro hzero
  rw [Dec.magnitude, hzero] at h
  simp at h

/-- The arithmetic gives the rounded quotient in millionths, if their digits suffice. -/
theorem quantized_cases (hprice : Accepted price) (hseconds : seconds ≠ 0) (hcoefficient : price.coefficient ≠ 0) :
    (∃ s, quantized seconds price unit = .error s ∧
      bound (unitSeconds unit) ≤ seconds * price.magnitude) ∨
    ∃ (d : ℚ) (k : ℕ), Steps (unitSeconds unit) (seconds * price.magnitude) d ∧ (k : ℤ) = millionths d ∧
      quantized seconds price unit =
        if k < 10 ^ 48 then .ok ⟨false, k, -6⟩ else .error .invalidOperation := by
  have hunit := unitSeconds_cases unit
  obtain ⟨hone, hsixty⟩ := units_cast hunit
  have hupos : (0 : ℚ) < unitSeconds unit := by linarith
  unfold quantized
  obtain ⟨s, hmul, hlarge⟩ | ⟨m, hmul, hneg, hround, hsmall⟩ := product_cases hprice hseconds hcoefficient
  · rw [hmul]
    exact .inl ⟨s, rfl, (bound_lt _).le.trans hlarge⟩
  rw [hmul]
  simp only [bind, Except.bind]
  have hm : m.coefficient ≠ 0 := coefficient_ne_zero (lt_of_lt_of_le (ten_zpow_pos _) hsmall)
  have hu : Dec.coefficient ⟨false, unitSeconds unit, 0⟩ ≠ 0 := by
    obtain h | h := hunit <;> simp [h]
  have hquotient : (10 : ℚ) ^ (-14 : ℤ) ≤ m.magnitude / unitSeconds unit := by
    rw [le_div_iff₀ hupos]
    norm_num at hsmall ⊢
    linarith
  have htiny := emin_le hquotient (by norm_num)
  rw [← magnitude_nat (unitSeconds unit)] at htiny
  cases hdiv : truediv estimateContext m ⟨false, unitSeconds unit, 0⟩ with
  | error s =>
    refine .inl ⟨s, rfl, not_lt.mp fun hlt => ?_⟩
    have hle := hround.le (by decide) (representable_of_le (n := 1) (by decide) 44)
      (by simpa using (hlt.trans (bound_lt _)).le)
    obtain ⟨r, hr⟩ := truediv_isOk (c := estimateContext) (by decide) hm hu htiny (by
      refine lt_emax (e := 46) ?_ (by norm_num)
      rw [magnitude_nat]
      have hdivle : m.magnitude / unitSeconds unit ≤ m.magnitude :=
        div_le_self (by linarith [ten_zpow_pos (-12)]) hone
      norm_num at hle ⊢
      linarith)
    rw [hdiv] at hr
    cases hr
  | ok d =>
    obtain ⟨hsign, hrounded⟩ := truediv_rounded (c := estimateContext) (by decide) hm hu htiny hdiv
    rw [magnitude_nat] at hrounded
    have hge := hrounded.ge (by decide) (representable_of_le (n := 1) (by decide) (-14)) (by simpa using hquotient)
    have hd : d.coefficient ≠ 0 :=
      coefficient_ne_zero (lt_of_lt_of_le (ten_zpow_pos (-14)) (by simpa using hge))
    have hmillionths : ⌊d.magnitude / 10 ^ (-6 : ℤ) + 1 / 2⌋ = millionths d.magnitude := by
      have hpow : (10 : ℚ) ^ (-6 : ℤ) = (10 ^ 6)⁻¹ := by norm_num
      rw [millionths, hpow, div_inv_eq_mul]
    have hnonneg : 0 ≤ millionths d.magnitude := by
      rw [le_millionths]
      have := magnitude_pos hd
      norm_num
      linarith
    obtain ⟨k, hk⟩ := Int.eq_ofNat_of_zero_le hnonneg
    refine .inr ⟨d.magnitude, k, ⟨m.magnitude, hround, hrounded⟩, hk.symm, ?_⟩
    have hquantize := quantize_eq (c := estimateContext) (x := d) (e := -6) (k := k) (by decide) (by decide)
      (by decide) hd (by rw [hmillionths]; exact hk.symm)
    rw [hneg] at hsign
    dsimp only
    rw [hquantize, hsign]
    rfl

/-- Without seconds or a price the result is zero. -/
theorem quantized_zero (hzero : seconds = 0 ∨ price.coefficient = 0) :
    ∃ negative, quantized seconds price unit = .ok ⟨negative, 0, -6⟩ := by
  have hproduct : seconds * price.coefficient = 0 := mul_eq_zero.mpr hzero
  have hu : unitSeconds unit ≠ 0 := by
    obtain h | h := unitSeconds_cases unit <;> simp [h]
  refine ⟨(false != price.negative) != false, ?_⟩
  unfold quantized mul truediv quantize fix
  simp only [hproduct, hu, if_true, if_false, bind, Except.bind]
  rfl

/-! ### Estimates -/

/-- The product, or its part for a minute, rounded to six places. -/
def exactAmount (seconds : ℕ) (price : ℚ) (unit : Text) : ℚ :=
  millionths (seconds * price / unitSeconds unit) / 10 ^ 6

/-- The estimate is exact, or a `ValueError` if it is too large. -/
def Exact (A : Alphabet) (seconds : ℕ) (unitPrice : Given) (price : ℚ) (unit : Text) : Prop :=
  if exactAmount seconds price unit ≤ 10 ^ 18 then
    ∃ v, estimateAmount A seconds unitPrice unit = .ok v ∧ v.value = exactAmount seconds price unit
  else estimateAmount A seconds unitPrice unit = .error .valueError

/-- Below 10^42, or sixty times as much for a price by the minute. -/
def Moderate (seconds : ℕ) (price : ℚ) (unit : Text) : Prop := seconds * price < bound (unitSeconds unit)

theorem exactAmount_le {seconds : ℕ} {price : ℚ} {unit : Text} : exactAmount seconds price unit ≤ 10 ^ 18 ↔
    millionths (seconds * price / unitSeconds unit) ≤ 10 ^ 24 := by
  rw [exactAmount, div_le_iff₀ (by positivity)]
  norm_num
  exact_mod_cast Iff.rfl

theorem value_places {k : ℕ} : Dec.value ⟨false, k, -6⟩ = (k : ℚ) / 10 ^ 6 := by
  have hpow : (10 : ℚ) ^ (-6 : ℤ) = (10 ^ 6)⁻¹ := by norm_num
  rw [value_of_nonneg rfl, Dec.magnitude, hpow, div_eq_mul_inv]

variable {A : Alphabet} {given : Given}

theorem estimateAmount_eq (h : amount A given = some price) (hunit : unit = MINUTE ∨ unit = SECOND) :
    estimateAmount A seconds given unit =
      match quantized seconds price unit with
      | .error s => .error (.signal s)
      | .ok value =>
        match amount A (.decimal value) with
        | none => .error .valueError
        | some estimate => .ok estimate := by
  unfold estimateAmount
  rw [if_neg (by rw [not_or, not_not]; exact ⟨by omega, hunit⟩), h, Int.toNat_natCast]

theorem estimate_zero (h : amount A given = some price) (hunit : unit = MINUTE ∨ unit = SECOND)
    (hzero : seconds = 0 ∨ price.coefficient = 0) :
    ∃ v, estimateAmount A seconds given unit = .ok v ∧ v.value = 0 := by
  obtain ⟨negative, hq⟩ := quantized_zero hzero
  rw [estimateAmount_eq h hunit, hq]
  dsimp only
  rw [amount_places (by norm_num) (fun h => absurd rfl h), if_pos (by norm_num)]
  exact ⟨_, rfl, value_of_zero rfl⟩

theorem exactAmount_zero (hzero : seconds = 0 ∨ price.coefficient = 0) :
    exactAmount seconds price.value unit = 0 ∧ Moderate seconds price.value unit := by
  have hproduct : (seconds : ℚ) * price.value = 0 := by
    obtain rfl | hzero := hzero
    · simp
    · rw [value_of_zero hzero, mul_zero]
  have hmillionths : millionths 0 = 0 := by
    rw [millionths]
    norm_num
  refine ⟨by rw [exactAmount, hproduct, zero_div, hmillionths]; norm_num, ?_⟩
  unfold Moderate bound
  rw [hproduct]
  split_ifs <;> norm_num

/-- What an estimate is, by the rounded quotient. -/
theorem estimate_cases (h : amount A given = some price) (hunit : unit = MINUTE ∨ unit = SECOND)
    (hseconds : seconds ≠ 0) (hcoefficient : price.coefficient ≠ 0) :
    (∃ s, estimateAmount A seconds given unit = .error (.signal s) ∧ ¬ Moderate seconds price.value unit) ∨
    ∃ (d : ℚ) (k : ℕ), Steps (unitSeconds unit) (seconds * price.value) d ∧ (k : ℤ) = millionths d ∧
      estimateAmount A seconds given unit =
        if k < 10 ^ 48 then if k ≤ 10 ^ 24 then .ok ⟨false, k, -6⟩ else .error .valueError
        else .error (.signal .invalidOperation) := by
  have hprice := accepted_of_amount h
  rw [estimateAmount_eq h hunit, hprice.value_eq]
  obtain ⟨s, hq, hlarge⟩ | ⟨d, k, hsteps, hk, hq⟩ :=
    quantized_cases hprice hseconds hcoefficient
  · rw [hq]
    exact .inl ⟨s, rfl, not_lt.mpr hlarge⟩
  · refine .inr ⟨d, k, hsteps, hk, ?_⟩
    rw [hq]
    by_cases hfits : k < 10 ^ 48
    · rw [if_pos hfits, if_pos hfits]
      dsimp only
      rw [amount_places hfits fun _ => rfl]
      split_ifs <;> rfl
    · rw [if_neg hfits, if_neg hfits]

theorem millionths_nonneg {x : ℚ} (hx : 0 ≤ x) : 0 ≤ millionths x := by
  rw [le_millionths]
  norm_num
  linarith

/-- The rounded quotient has the millionths of the exact one, unless they are too many. -/
theorem steps_exact (hprice : Accepted price) {d : ℚ}
    (hsteps : Steps (unitSeconds unit) (seconds * price.value) d)
    (hle : millionths (seconds * price.value / unitSeconds unit) ≤ 10 ^ 24) :
    millionths d = millionths (seconds * price.value / unitSeconds unit) := by
  have hunit := unitSeconds_cases unit
  obtain ⟨n, hn⟩ := product_places hprice
  rw [← hprice.value_eq] at hn
  obtain ⟨m, hm, hd⟩ := hsteps
  rw [product_exact hunit hn hle hm] at hd
  have hnonneg : 0 ≤ (seconds : ℚ) * price.value / unitSeconds unit :=
    div_nonneg (mul_nonneg (Nat.cast_nonneg _) hprice.nonneg) (Nat.cast_nonneg _)
  obtain ⟨k, hk⟩ := Int.eq_ofNat_of_zero_le (millionths_nonneg hnonneg)
  rw [hk] at hle ⊢
  exact millionths_exact hunit hn hk (by exact_mod_cast hle) hd

/-- An estimate that is returned is exact. -/
theorem estimate_value (h : amount A given = some price) (hunit : unit = MINUTE ∨ unit = SECOND) {v : Dec}
    (hv : estimateAmount A seconds given unit = .ok v) : v.value = exactAmount seconds price.value unit := by
  have hprice := accepted_of_amount h
  by_cases hzero : seconds = 0 ∨ price.coefficient = 0
  · obtain ⟨v', hv', hvalue⟩ := estimate_zero h hunit hzero
    rw [hv] at hv'
    obtain rfl := Except.ok.inj hv'
    rw [hvalue, (exactAmount_zero hzero).1]
  · rw [not_or] at hzero
    obtain ⟨s, heq, -⟩ | ⟨d, k, hsteps, hk, heq⟩ := estimate_cases h hunit hzero.1 hzero.2
    · rw [hv] at heq
      cases heq
    · rw [hv] at heq
      split_ifs at heq with hfits hle
      obtain rfl := Except.ok.inj heq
      have hexact : millionths (seconds * price.value / unitSeconds unit) ≤ 10 ^ 24 := by
        refine not_lt.mp fun hlt => ?_
        have := millionths_large (unitSeconds_cases unit) hlt hsteps
        omega
      rw [value_places, exactAmount, ← steps_exact hprice hsteps hexact, ← hk]
      push_cast
      rfl

/-- The estimate is exact or refused, exactly below the bound. -/
theorem exact_iff (h : amount A given = some price) (hunit : unit = MINUTE ∨ unit = SECOND) :
    Exact A seconds given price.value unit ↔ Moderate seconds price.value unit := by
  have hprice := accepted_of_amount h
  have hu := unitSeconds_cases unit
  by_cases hzero : seconds = 0 ∨ price.coefficient = 0
  · obtain ⟨hexact, hmoderate⟩ := exactAmount_zero hzero
    refine iff_of_true ?_ hmoderate
    unfold Exact
    rw [hexact, if_pos (by norm_num)]
    exact estimate_zero h hunit hzero
  rw [not_or] at hzero
  unfold Exact
  rw [if_congr exactAmount_le rfl rfl]
  obtain ⟨s, heq, hlarge⟩ | ⟨d, k, hsteps, hk, heq⟩ := estimate_cases h hunit hzero.1 hzero.2
  · refine iff_of_false ?_ hlarge
    rw [heq]
    split_ifs
    · rintro ⟨v, hv, -⟩
      cases hv
    · exact nofun
  · by_cases hmoderate : Moderate seconds price.value unit
    · refine iff_of_true ?_ hmoderate
      have hfits : k < 10 ^ 48 := by
        have := millionths_fits hu hmoderate hsteps
        omega
      rw [if_pos hfits] at heq
      split_ifs with hle
      · have hsame := steps_exact hprice hsteps hle
        rw [if_pos (by omega)] at heq
        exact ⟨_, heq, estimate_value h hunit heq⟩
      · have := millionths_large hu (not_le.mp hle) hsteps
        rw [if_neg (by omega)] at heq
        exact heq
    · refine iff_of_false ?_ hmoderate
      have hexceeds := millionths_exceeds hu (not_lt.mp hmoderate) hsteps
      rw [if_neg (by omega)] at heq
      rw [heq]
      split_ifs
      · rintro ⟨v, hv, -⟩
        cases hv
      · exact nofun

/-- Estimates grow with the seconds. -/
theorem estimate_mono (h : amount A given = some price) (hunit : unit = MINUTE ∨ unit = SECOND)
    {seconds' : ℕ} (hle : seconds ≤ seconds') {v v' : Dec}
    (hv : estimateAmount A seconds given unit = .ok v)
    (hv' : estimateAmount A seconds' given unit = .ok v') : v.value ≤ v'.value := by
  rw [estimate_value h hunit hv, estimate_value h hunit hv', exactAmount, exactAmount]
  have hprice := (accepted_of_amount h).nonneg
  have hcast : (seconds : ℚ) ≤ seconds' := by exact_mod_cast hle
  have hquotient : (seconds : ℚ) * price.value / unitSeconds unit ≤ seconds' * price.value / unitSeconds unit :=
    div_le_div_of_nonneg_right (mul_le_mul_of_nonneg_right hcast hprice) (Nat.cast_nonneg _)
  have hmono : millionths (seconds * price.value / unitSeconds unit) ≤
      millionths (seconds' * price.value / unitSeconds unit) := by
    unfold millionths
    exact Int.floor_le_floor (by linarith)
  exact div_le_div_of_nonneg_right (by exact_mod_cast hmono) (by positivity)

end

end CompanionBackend.Pricing
