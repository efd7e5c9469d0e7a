import CompanionBackend.Pricing

/-!
# Labels of prices

The label of a price is its shortest text. It depends on the value alone, it is accepted as a price of this
value again, and so two prices share the dimensions of the daily metrics exactly if they are equal.
-/
namespace CompanionBackend.Pricing

open DecimalRounding DecimalArithmetic DecimalTexts

variable {A : Alphabet} {price price' : Dec}

theorem canonical_eq_plain (d : Dec) : canonical d = plain d := by
  unfold canonical plain
  rw [ite_not]

theorem canonical_zero {d : Dec} (h : d.coefficient = 0) : canonical d = ['0'] := by
  rw [canonical_eq_plain]
  unfold plain
  rw [if_pos h]
  rfl

/-- Equal prices have the same label. -/
theorem canonical_eq_of_value (h : Accepted price) (h' : Accepted price') (hvalue : price.value = price'.value) :
    canonical price = canonical price' := by
  rw [h.value_eq, h'.value_eq] at hvalue
  by_cases hzero : price.coefficient = 0
  · have hzero' : price'.coefficient = 0 := by
      by_contra hne
      have hpos := magnitude_pos hne
      rw [← hvalue, Dec.magnitude, hzero] at hpos
      simp at hpos
    rw [canonical_zero hzero, canonical_zero hzero']
  · have hne : price'.coefficient ≠ 0 := coefficient_ne_zero (hvalue ▸ magnitude_pos hzero)
    rw [canonical_eq_plain, canonical_eq_plain]
    exact plain_eq_of_magnitude (h.negative hzero) (h'.negative hne) hzero hne hvalue

/-- A label is a plain number of the price's value with few digits. -/
structure Label (price : Dec) (whole fraction : Text) : Prop where
  text : canonical price = numeral whole fraction
  whole_ne_nil : whole ≠ []
  whole_digits : AllDigits whole
  fraction_digits : AllDigits fraction
  whole_length : whole.length ≤ 19
  fraction_length : fraction.length ≤ 12
  value : (valueOf (whole ++ fraction) : ℚ) * 10 ^ (-(fraction.length : ℤ)) = price.value

/-- The digits before the point are at most nineteen. -/
theorem digits_le (h : Accepted price) (hne : price.coefficient ≠ 0) :
    (digitCount price.coefficient : ℤ) + price.exponent ≤ 19 := by
  have hle := (magnitude_bounds hne).1.trans (h.value_eq ▸ h.le_max)
  rw [← zpow_natCast] at hle
  have := (zpow_le_zpow_iff_right₀ (by norm_num : (1 : ℚ) < 10)).mp hle
  push_cast at this
  omega

theorem label_of_zero (h : price.coefficient = 0) : Label price ['0'] [] where
  text := canonical_zero h
  whole_ne_nil := List.cons_ne_nil _ _
  whole_digits := allDigits_zeros 1
  fraction_digits _ hc := nomatch hc
  whole_length := by decide
  fraction_length := by decide
  value := by
    rw [value_of_zero h]
    simp [valueOf, Nat.ofDigitChars]

theorem label_of_nonneg {c : ℕ} {e : ℤ} (h : Accepted ⟨false, c, e⟩) (hc : c ≠ 0) (he : 0 ≤ e) :
    Label ⟨false, c, e⟩ (digitsOf c ++ List.replicate e.toNat '0') [] where
  text := by
    rw [canonical_eq_plain, plain_of_nonneg hc he, numeral, if_pos rfl, List.append_nil]
  whole_ne_nil := List.append_ne_nil_of_left_ne_nil (digitsOf_ne_nil c) _
  whole_digits := (allDigits_digitsOf c).append (allDigits_zeros _)
  fraction_digits _ hc := nomatch hc
  whole_length := by
    have hdigits : ((digitsOf c).length : ℤ) + e ≤ 19 := digits_le h hc
    rw [List.length_append, List.length_replicate]
    omega
  fraction_length := Nat.zero_le _
  value := by
    obtain ⟨k, rfl⟩ := Int.eq_ofNat_of_zero_le he
    rw [List.append_nil, valueOf_append_zeros, valueOf_digitsOf, value_of_nonneg rfl, Dec.magnitude]
    simp

theorem label_of_neg {c n : ℕ} (h : Accepted ⟨false, c, -(n : ℤ)⟩) (hc : c ≠ 0) :
    Label ⟨false, c, -(n : ℤ)⟩ (wholePart n c) (rstrip '0' (fractionPart n c)) := by
  have hplaces : n ≤ 12 := by
    have := h.places
    dsimp only at this
    omega
  have hlen := length_padded n c
  have hdigits : ((digitsOf c).length : ℤ) + -(n : ℤ) ≤ 19 := digits_le h hc
  have hwhole : (wholePart n c).length = (padded n c).length - n := by
    rw [wholePart, List.length_take]
    omega
  have hfraction : (fractionPart n c).length = n := by
    rw [fractionPart, List.length_drop]
    omega
  have hprefix : rstrip '0' (fractionPart n c) <+: fractionPart n c := List.rdropWhile_prefix _ _
  refine ⟨?_, fun hnil => ?_, allDigits_wholePart n c, (allDigits_fractionPart n c).of_subset hprefix.subset,
    by omega, hprefix.length_le.trans (by omega), ?_⟩
  · rw [canonical_eq_plain, plain_of_nonpos n hc]
  · rw [hnil, List.length_nil] at hwhole
    omega
  · -- the zeros that are left out count in the exponent
    have hzeros := rstrip_append_zeros (fractionPart n c)
    rw [hfraction] at hzeros
    have hlenle := hprefix.length_le
    rw [hfraction] at hlenle
    have hvalue : valueOf (wholePart n c ++ rstrip '0' (fractionPart n c)) *
        10 ^ (n - (rstrip '0' (fractionPart n c)).length) = c := by
      rw [← valueOf_append_zeros, List.append_assoc, hzeros, wholePart_append, padded, valueOf_zeros_append,
        valueOf_digitsOf]
    rw [value_of_nonneg rfl, Dec.magnitude]
    dsimp only
    generalize valueOf (wholePart n c ++ rstrip '0' (fractionPart n c)) = v at hvalue ⊢
    generalize hk : (rstrip '0' (fractionPart n c)).length = k at hvalue hlenle ⊢
    obtain ⟨j, rfl⟩ := Nat.exists_eq_add_of_le hlenle
    rw [← hvalue, Nat.add_sub_cancel_left]
    push_cast
    rw [neg_add, zpow_add₀ (by norm_num), zpow_neg, zpow_neg, zpow_natCast, zpow_natCast]
    field_simp

theorem exists_label (h : Accepted price) : ∃ whole fraction, Label price whole fraction := by
  by_cases hzero : price.coefficient = 0
  · exact ⟨_, _, label_of_zero hzero⟩
  obtain ⟨negative, c, e⟩ := price
  obtain rfl : negative = false := h.negative hzero
  obtain he | he := le_or_gt 0 e
  · exact ⟨_, _, label_of_nonneg h hzero he⟩
  · obtain ⟨n, hn⟩ := Int.eq_ofNat_of_zero_le (show 0 ≤ -e by omega)
    obtain rfl : e = -(n : ℤ) := by omega
    exact ⟨_, _, label_of_neg h hzero⟩

/-- A label is accepted as a price of the same value. -/
theorem amount_canonical (hA : A.Lawful) (h : Accepted price) :
    ∃ again, amount A (.text (canonical price)) = some again ∧ again.value = price.value := by
  obtain ⟨whole, fraction, hlabel⟩ := exists_label h
  have hlen : (numeral whole fraction).length ≤ 32 := by
    have hw := hlabel.whole_length
    have hf := hlabel.fraction_length
    rw [numeral, List.length_append]
    split_ifs
    · rw [List.length_nil]
      omega
    · rw [List.length_cons]
      omega
  have hfraction := hlabel.fraction_length
  have hvalue : Dec.value ⟨false, valueOf (whole ++ fraction), -(fraction.length : ℤ)⟩ = price.value :=
    (value_of_nonneg rfl).trans hlabel.value
  have haccepted : Accepted ⟨false, valueOf (whole ++ fraction), -(fraction.length : ℤ)⟩ :=
    ⟨hvalue ▸ h.nonneg, hvalue ▸ h.le_max, by dsimp only; omega⟩
  have hrange : constructible ⟨false, valueOf (whole ++ fraction), -(fraction.length : ℤ)⟩ = true := by
    unfold constructible
    rw [Bool.and_eq_true, decide_eq_true_eq, decide_eq_true_eq]
    refine ⟨by unfold MIN_ETINY; dsimp only; omega, ?_⟩
    unfold MAX_EMAX
    split_ifs with hzero
    · dsimp only
      omega
    · have := digits_le haccepted hzero
      unfold Dec.adjusted
      omega
  have hparse := parse_numeral hA hlabel.whole_ne_nil hlabel.whole_digits hlabel.fraction_digits hrange
  refine ⟨_, ?_, hvalue⟩
  unfold amount
  rw [hlabel.text]
  dsimp only
  rw [if_neg (by omega), hparse, Option.bind_some, bounded_of_accepted haccepted]

/-- Prices have the same label exactly if they are equal. -/
theorem canonical_eq_iff (hA : A.Lawful) (h : Accepted price) (h' : Accepted price') :
    canonical price = canonical price' ↔ price.value = price'.value := by
  refine ⟨fun hlabel => ?_, canonical_eq_of_value h h'⟩
  obtain ⟨again, hagain, hvalue⟩ := amount_canonical hA h
  obtain ⟨again', hagain', hvalue'⟩ := amount_canonical hA h'
  rw [← hlabel, hagain] at hagain'
  obtain rfl := Option.some.inj hagain'
  rw [← hvalue, hvalue']

/-! ### Simulated pricing -/

variable {given given' : Given} {unit currency : Text} {p p' : SimulatedPricing}

theorem simulatedPricing_spec (h : simulatedPricing A given unit currency = some p) :
    ∃ price, amount A given = some price ∧ p = ⟨canonical price, unit, currency⟩ ∧
      (unit = MINUTE ∨ unit = SECOND) ∧ currency.length = 3 ∧ currency.all Char.isUpper = true := by
  unfold simulatedPricing at h
  split at h
  · cases h
  next price hprice =>
    split_ifs at h with hbad
    obtain rfl := Option.some.inj h
    rw [not_or, not_not, not_not] at hbad
    exact ⟨price, hprice, rfl, hbad.1, hbad.2.1, hbad.2.2⟩

/-- The pricing of a label is the pricing it labels. -/
theorem simulatedPricing_again (hA : A.Lawful) (h : simulatedPricing A given unit currency = some p) :
    simulatedPricing A (.text p.unitPrice) p.unit p.currency = some p := by
  obtain ⟨price, hprice, rfl, hunit, hlength, hupper⟩ := simulatedPricing_spec h
  have haccepted := accepted_of_amount hprice
  obtain ⟨again, hagain, hvalue⟩ := amount_canonical hA haccepted
  unfold simulatedPricing
  rw [hagain]
  dsimp only
  rw [if_neg (by rw [not_or, not_not, not_not]; exact ⟨hunit, hlength, hupper⟩),
    canonical_eq_of_value (accepted_of_amount hagain) haccepted hvalue]

/-- Two prices and their pricings. -/
structure Priced (A : Alphabet) (given given' : Given) (p p' : SimulatedPricing) (price price' : Dec) : Prop where
  amount : amount A given = some price
  amount' : Pricing.amount A given' = some price'
  pricing : simulatedPricing A given p.unit p.currency = some p
  pricing' : simulatedPricing A given' p'.unit p'.currency = some p'

theorem Priced.labels (h : Priced A given given' p p' price price') :
    p.unitPrice = canonical price ∧ p'.unitPrice = canonical price' := by
  obtain ⟨d, hd, heq, -⟩ := simulatedPricing_spec h.pricing
  obtain ⟨d', hd', heq', -⟩ := simulatedPricing_spec h.pricing'
  rw [h.amount] at hd
  rw [h.amount'] at hd'
  obtain rfl := Option.some.inj hd
  obtain rfl := Option.some.inj hd'
  exact ⟨congrArg SimulatedPricing.unitPrice heq, congrArg SimulatedPricing.unitPrice heq'⟩

theorem Priced.unitPrice_iff (hA : A.Lawful) (h : Priced A given given' p p' price price') :
    p.unitPrice = p'.unitPrice ↔ price.value = price'.value := by
  rw [← canonical_eq_iff hA (accepted_of_amount h.amount) (accepted_of_amount h.amount'), h.labels.1, h.labels.2]

theorem dailyDimensions_eq_iff : dailyDimensions p = dailyDimensions p' ↔
    p.unitPrice = p'.unitPrice ∧ p.unit = p'.unit ∧ p.currency = p'.currency := by
  constructor
  · intro hsame
    have hdims := congrArg DailyDimensions.pricing hsame
    simp only [dailyDimensions, SimulatedPricing.dimensions, List.cons.injEq, Prod.mk.injEq] at hdims
    exact ⟨hdims.2.1.2, hdims.2.2.1.2, hdims.2.2.2.1.2⟩
  · rintro ⟨hprice, hunit, hcurrency⟩
    simp only [dailyDimensions, SimulatedPricing.dimensions, hprice, hunit, hcurrency]

/-- Unless they collide, the digests of one unit and currency agree exactly if the prices are equal. -/
theorem Priced.digest_iff (hA : A.Lawful) (h : Priced A given given' p p' price price')
    (digest : DailyDimensions → Text)
    (hdigest : digest (dailyDimensions p) = digest (dailyDimensions p') → dailyDimensions p = dailyDimensions p') :
    digest (dailyDimensions p) = digest (dailyDimensions p') ↔
      price.value = price'.value ∧ p.unit = p'.unit ∧ p.currency = p'.currency := by
  rw [← h.unitPrice_iff hA, ← dailyDimensions_eq_iff]
  exact ⟨hdigest, congrArg digest⟩

/-- Estimates are exact or refused exactly as long as the product stays below its bound; they grow with the
seconds. Labels, and the digests of the daily metrics, tell prices apart exactly by their values. -/
theorem pricing_exact (A : Alphabet) (hA : A.Lawful) :
    (∀ seconds given price unit, amount A given = some price → unit = MINUTE ∨ unit = SECOND →
      (Exact A seconds given price.value unit ↔ Moderate seconds price.value unit)) ∧
    (∀ seconds seconds' given price unit v v', amount A given = some price → unit = MINUTE ∨ unit = SECOND →
      seconds ≤ seconds' → estimateAmount A (seconds : ℕ) given unit = .ok v →
      estimateAmount A (seconds' : ℕ) given unit = .ok v' → v.value ≤ v'.value) ∧
    (∀ given unit currency p, simulatedPricing A given unit currency = some p →
      simulatedPricing A (.text p.unitPrice) p.unit p.currency = some p) ∧
    ∀ given given' p p' price price', Priced A given given' p p' price price' →
      (p.unitPrice = p'.unitPrice ↔ price.value = price'.value) ∧
      ∀ digest : DailyDimensions → Text,
        (digest (dailyDimensions p) = digest (dailyDimensions p') → dailyDimensions p = dailyDimensions p') →
        (digest (dailyDimensions p) = digest (dailyDimensions p') ↔
          price.value = price'.value ∧ p.unit = p'.unit ∧ p.currency = p'.currency) :=
  ⟨fun _ _ _ _ h hunit => exact_iff h hunit,
    fun _ _ _ _ _ _ _ h hunit hle hv hv' => estimate_mono h hunit hle hv hv',
    fun _ _ _ _ h => simulatedPricing_again hA h,
    fun _ _ _ _ _ _ h => ⟨h.unitPrice_iff hA, fun digest hdigest => h.digest_iff hA digest hdigest⟩⟩

/-- ASCII digits and blanks. -/
def ascii : Alphabet where
  digit c := if c.isDigit then some (c.toNat - '0'.toNat) else none
  blank c := c = ' ' ∨ (9 ≤ c.toNat ∧ c.toNat ≤ 13)

theorem ascii_lawful : ascii.Lawful where
  digit_ascii c hc := if_pos hc
  digit_point := by decide
  blank_ascii c hc := by
    have hlow : 48 ≤ c.toNat := (Char.isDigit_iff_toNat.mp hc).1
    have hne : c ≠ ' ' := by
      rintro rfl
      cases hc
    simp only [ascii, decide_eq_false_iff_not, not_or, not_and, not_le]
    exact ⟨hne, fun _ => by omega⟩
  blank_point := by decide

/-- A price by the minute, estimated for a minute and a second. -/
theorem minute_estimated : Exact ascii 61 (.text "0.06".toList) (Dec.value ⟨false, 6, -2⟩) MINUTE := by
  refine ((pricing_exact ascii ascii_lawful).1 61 (.text "0.06".toList) ⟨false, 6, -2⟩ MINUTE
    (by decide +kernel) (.inl rfl)).mpr ?_
  rw [Moderate, value_of_nonneg rfl, Dec.magnitude]
  simp only [unitSeconds, if_pos, bound]
  norm_num

/-- The digits of a large estimate exceed the precision, which raises no `ValueError`. -/
theorem large_estimate_signals : estimateAmount ascii (10 ^ 60) (.text "1".toList) SECOND =
    .error (.signal .invalidOperation) := by
  decide +kernel

/-! ### A call in parts -/

theorem exactAmount_near (seconds : ℕ) (price : ℚ) (unit : Text) :
    |exactAmount seconds price unit - seconds * price / unitSeconds unit| ≤ 1 / (2 * 10 ^ 6) := by
  have hlow := Int.floor_le ((seconds : ℚ) * price / unitSeconds unit * 10 ^ 6 + 1 / 2)
  have hhigh := Int.lt_floor_add_one ((seconds : ℚ) * price / unitSeconds unit * 10 ^ 6 + 1 / 2)
  rw [exactAmount, millionths, abs_le]
  constructor <;> linarith

theorem parts_near {A : Alphabet} {given : Given} {price : Dec} {unit : Text} {parts : List ℕ} {vs : List Dec}
    (h : amount A given = some price) (hunit : unit = MINUTE ∨ unit = SECOND)
    (hparts : List.Forall₂ (fun s v => estimateAmount A (s : ℕ) given unit = .ok v) parts vs) :
    |(vs.map Dec.value).sum - parts.sum * price.value / unitSeconds unit| ≤
      parts.length * (1 / (2 * 10 ^ 6)) := by
  induction hparts with
  | nil => simp
  | @cons s v parts vs hv _ ih =>
    have hone := exactAmount_near s price.value unit
    rw [← estimate_value h hunit hv] at hone
    rw [abs_le] at hone ih ⊢
    simp only [List.map_cons, List.sum_cons, List.length_cons, Nat.cast_add, Nat.cast_one]
    rw [add_mul, add_mul, add_div]
    constructor <;> linarith [hone.1, hone.2, ih.1, ih.2]

/-- A call charged in parts costs what it does as a whole, up to half a millionth for each estimate. -/
theorem estimate_parts (A : Alphabet) (given : Given) (price : Dec) (unit : Text) (parts : List ℕ)
    (vs : List Dec) (whole : Dec) (h : amount A given = some price) (hunit : unit = MINUTE ∨ unit = SECOND)
    (hparts : List.Forall₂ (fun s v => estimateAmount A (s : ℕ) given unit = .ok v) parts vs)
    (hwhole : estimateAmount A (parts.sum : ℕ) given unit = .ok whole) :
    |(vs.map Dec.value).sum - whole.value| ≤ (parts.length + 1) * (1 / (2 * 10 ^ 6)) := by
  have hsum := parts_near h hunit hparts
  have hall := exactAmount_near parts.sum price.value unit
  rw [← estimate_value h hunit hwhole] at hall
  rw [abs_le] at hsum hall ⊢
  constructor <;> linarith [hsum.1, hsum.2, hall.1, hall.2]

theorem seconds_estimated : amount ascii (.text "0.06".toList) = some ⟨false, 6, -2⟩ ∧
    estimateAmount ascii 1 (.text "0.06".toList) MINUTE = .ok ⟨false, 1000, -6⟩ ∧
    estimateAmount ascii 2 (.text "0.06".toList) MINUTE = .ok ⟨false, 2000, -6⟩ := by
  decide +kernel

/-- Two seconds at a price by the minute, one by one. -/
theorem seconds_near : |([⟨false, 1000, -6⟩, ⟨false, 1000, -6⟩].map Dec.value).sum -
    Dec.value ⟨false, 2000, -6⟩| ≤ (([1, 1] : List ℕ).length + 1) * (1 / (2 * 10 ^ 6)) :=
  estimate_parts ascii (.text "0.06".toList) ⟨false, 6, -2⟩ MINUTE [1, 1] _ _ seconds_estimated.1 (.inl rfl)
    (.cons seconds_estimated.2.1 (.cons seconds_estimated.2.1 .nil)) seconds_estimated.2.2

end CompanionBackend.Pricing
