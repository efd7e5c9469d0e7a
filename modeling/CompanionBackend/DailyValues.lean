import Mathlib.Tactic.Positivity
import CompanionBackend.DailyMetrics

/-!
# The values of a day

What `_validated_values` returns are the measured metrics. It accepts a projection whenever no
metric is negative and no rate is above one, and this is so of all that is computed of durations and
ledger seconds whose sums are not negative.
-/
namespace CompanionBackend.DailyMetrics

open MetricName

variable {H : Host}

/-! ### Measured metrics -/

/-- The names and values of the measured metrics. -/
def measured (H : Host) (ms : List Metric) : List (MetricName × ℚ) :=
  ms.filterMap fun m =>
    if m.status = .measured then m.value.map fun v => (m.name, v.asFloat H) else none

@[simp] theorem measured_nil : measured H [] = [] := rfl

theorem measured_cons (m : Metric) (ms : List Metric) :
    measured H (m :: ms) =
      (if m.status = .measured then (m.value.map fun v => (m.name, v.asFloat H)).toList else []) ++
        measured H ms := by
  unfold measured
  rw [List.filterMap_cons]
  by_cases hm : m.status = .measured
  · cases hv : m.value <;> simp [hm]
  · simp [hm]

theorem measured_names (ms : List Metric) :
    (measured H ms).map Prod.fst ⊆ ms.map (·.name) := by
  intro name hname
  simp only [measured, List.mem_map, List.mem_filterMap] at hname
  obtain ⟨p, ⟨m, hm, hp⟩, rfl⟩ := hname
  split at hp
  · obtain ⟨v, -, rfl⟩ := Option.map_eq_some_iff.mp hp
    exact List.mem_map.mpr ⟨m, hm, rfl⟩
  · cases hp

theorem measured_nodup {ms : List Metric} (h : (ms.map (·.name)).Nodup) :
    ((measured H ms).map Prod.fst).Nodup := by
  induction ms with
  | nil => simp
  | cons m ms ih =>
    rw [List.map_cons, List.nodup_cons] at h
    have hrest := ih h.2
    have hout : m.name ∉ (measured H ms).map Prod.fst := fun hmem => h.1 (measured_names ms hmem)
    rw [measured_cons, List.map_append, List.nodup_append]
    refine ⟨?_, hrest, ?_⟩
    · split
      · cases m.value <;> simp
      · simp
    · intro name hname name' hname' heq
      subst heq
      refine hout ?_
      split at hname
      · cases hv : m.value <;> simp_all
      · simp at hname

/-! ### Validation -/

/-- A metric that may be stored, or has no value. -/
def Metric.Ok (m : Metric) : Prop :=
  match m.value with
  | none => m.status = .notMeasurable
  | some v => m.status ≠ .notMeasurable ∧ 0 ≤ v.toRat ∧ (m.name ∈ RATE_NAMES → v.toRat ≤ 1)

theorem validateMetrics_of_ok {ms : List Metric} {seen : List MetricName}
    {values : List (MetricName × ℚ)} (hok : ∀ m ∈ ms, m.Ok) (hnodup : (ms.map (·.name)).Nodup)
    (hseen : ∀ m ∈ ms, m.name ∉ seen) :
    validateMetrics H ms seen values = some (values ++ measured H ms) := by
  induction ms generalizing seen values with
  | nil => simp [validateMetrics]
  | cons m ms ih =>
    rw [List.map_cons, List.nodup_cons] at hnodup
    have hm := hok m (by simp)
    have hnew : ¬(m.name ∉ METRIC_NAMES ∨ m.name ∈ seen) := by
      simp only [mem_METRIC_NAMES, not_true_eq_false, false_or]
      exact hseen m (by simp)
    have hseen' : ∀ m' ∈ ms, m'.name ∉ m.name :: seen := by
      intro m' hm' hmem
      rcases List.mem_cons.mp hmem with heq | hmem
      · exact hnodup.1 (heq ▸ List.mem_map_of_mem hm')
      · exact hseen m' (by simp [hm']) hmem
    have hrest : ∀ values, validateMetrics H ms (m.name :: seen) values = some (values ++ measured H ms) :=
      fun values => ih (fun m' hm' => hok m' (by simp [hm'])) hnodup.2 hseen'
    rw [validateMetrics, if_neg hnew, measured_cons]
    unfold Metric.Ok at hm
    cases hv : m.value with
    | none =>
      simp only [hv] at hm
      simp [hm, hrest]
    | some v =>
      simp only [hv] at hm
      obtain ⟨hstatus, hzero, hone⟩ := hm
      have hvalid : ¬(m.status = .notMeasurable ∨ v.toRat < 0) := by
        simp only [hstatus, false_or, not_lt]
        exact hzero
      have hrate : ¬(m.name ∈ RATE_NAMES ∧ 1 < v.toRat) := by
        rintro ⟨hmem, hlt⟩
        exact absurd (hone hmem) (not_le.mpr hlt)
      simp only [if_neg hvalid, if_neg hrate, hrest]
      split <;> simp

/-- What is accepted are the measured metrics, of distinct names. -/
theorem validateMetrics_eq_some {ms : List Metric} {seen : List MetricName}
    {values values' : List (MetricName × ℚ)} (h : validateMetrics H ms seen values = some values') :
    values' = values ++ measured H ms ∧ (ms.map (·.name)).Nodup ∧ ∀ m ∈ ms, m.name ∉ seen := by
  induction ms generalizing seen values with
  | nil =>
    simp only [validateMetrics, Option.some.injEq] at h
    simp [h]
  | cons m ms ih =>
    rw [validateMetrics] at h
    split at h
    · cases h
    next hnew =>
      simp only [mem_METRIC_NAMES, not_true_eq_false, false_or] at hnew
      have hfinish : ∀ {values₁}, validateMetrics H ms (m.name :: seen) values₁ = some values' →
          values' = values₁ ++ measured H ms ∧ ((m :: ms).map (·.name)).Nodup ∧
            ∀ m' ∈ m :: ms, m'.name ∉ seen := by
        intro values₁ h
        obtain ⟨hvalues, hnodup, hseen⟩ := ih h
        refine ⟨hvalues, ?_, ?_⟩
        · rw [List.map_cons, List.nodup_cons]
          refine ⟨?_, hnodup⟩
          intro hmem
          obtain ⟨m', hm', heq⟩ := List.mem_map.mp hmem
          exact hseen m' hm' (by simp [heq])
        · intro m' hm'
          rcases List.mem_cons.mp hm' with rfl | hm'
          · exact hnew
          · exact fun hmem => hseen m' hm' (List.mem_cons_of_mem _ hmem)
      rw [measured_cons]
      cases hv : m.value with
      | none =>
        simp only [hv] at h
        split at h
        next hstatus =>
          obtain ⟨hvalues, hrest⟩ := hfinish h
          exact ⟨by simp [hvalues], hrest⟩
        next => cases h
      | some v =>
        simp only [hv] at h
        split at h
        · cases h
        · split at h
          · cases h
          · obtain ⟨hvalues, hrest⟩ := hfinish h
            refine ⟨?_, hrest⟩
            rw [hvalues]
            split <;> simp

theorem validatedValues_eq_some {p : Projection} {day : Day} {values : List (MetricName × ℚ)}
    (h : validatedValues H p day = some values) :
    values = measured H p.metrics ∧ (p.metrics.map (·.name)).Nodup := by
  unfold validatedValues at h
  split at h
  · cases h
  · split at h
    · cases h
    · obtain ⟨hvalues, hnodup, -⟩ := validateMetrics_eq_some h
      exact ⟨hvalues, hnodup⟩

/-! ### What is computed -/

theorem metric_ok {name : MetricName} {value : Option Value} {reason : Option Reason}
    {provisional : Bool}
    (h : ∀ v ∈ value, 0 ≤ v.toRat ∧ (name ∈ RATE_NAMES → v.toRat ≤ 1)) :
    (metric name value reason provisional).Ok := by
  unfold Metric.Ok metric
  cases value with
  | none => simp
  | some v =>
    refine ⟨?_, h v rfl⟩
    cases provisional <;> simp

theorem rate_ok (hH : H.Lawful) {name : MetricName} {n d : ℤ} {provisional : Bool} (hn : 0 ≤ n)
    (hd : 0 ≤ d) (h : name ∈ RATE_NAMES → n ≤ d) : (rate H name n d provisional).Ok := by
  unfold rate
  split
  next hne =>
    have hpos : (0 : ℚ) < d := by
      exact_mod_cast lt_of_le_of_ne hd (Ne.symm hne)
    refine metric_ok ?_
    simp only [Option.mem_some_iff, forall_eq', Value.toRat]
    constructor
    · rw [← hH.zero]
      exact hH.mono (by positivity)
    · intro hmem
      rw [← hH.one]
      refine hH.mono ?_
      rw [div_le_one hpos]
      exact_mod_cast h hmem
  next =>
    exact metric_ok (by simp)

theorem estimate_nonneg {p : SimulatedPricing} {seconds : ℤ} {cost : ℚ}
    (h : p.estimate seconds = some cost) : 0 ≤ cost := by
  unfold SimulatedPricing.estimate at h
  split at h
  · cases h
  next hseconds =>
    simp only [Option.ite_none_left_eq_some, Option.some.injEq] at h
    obtain ⟨-, rfl⟩ := h
    have hs : (0 : ℚ) ≤ seconds := by exact_mod_cast not_lt.mp hseconds
    have hp := p.nonneg
    have hamount : (0 : ℚ) ≤ seconds * p.unitPrice / (if p.unit = .minute then 60 else 1) := by
      split <;> positivity
    have hfloor : (0 : ℤ) ≤
        ⌊seconds * p.unitPrice / (if p.unit = .minute then 60 else 1) * 10 ^ 6 + (1 / 2 : ℚ)⌋ := by
      rw [Int.floor_nonneg]
      positivity
    positivity

@[simp] theorem metric_name (name : MetricName) (value : Option Value) (reason : Option Reason)
    (provisional : Bool) : (metric name value reason provisional).name = name := rfl

@[simp] theorem rate_name (name : MetricName) (n d : ℤ) (provisional : Bool) :
    (rate H name n d provisional).name = name := by
  unfold rate
  split <;> rfl

@[simp] theorem fallbackMetric_name (calls : List Call) :
    (fallbackMetric H calls).name = call01FallbackRate := by
  unfold fallbackMetric
  split <;> simp

theorem usageMetrics_names {pricing : Option SimulatedPricing} {billable : ℤ}
    {legacy unsettled : Bool} {ms : List Metric}
    (h : usageMetrics H pricing billable legacy unsettled = some ms) :
    ms.map (·.name) = [billableSeconds, estimatedCost] := by
  unfold usageMetrics at h
  cases pricing with
  | none =>
    cases h
    rfl
  | some p =>
    simp only at h
    split at h
    · cases h
      rfl
    · obtain ⟨cost, -, hms⟩ := Option.bind_eq_some_iff.mp h
      cases hms
      rfl

/-- The ten names, each once. -/
theorem computed_names {source : Source} {day : Day} {pricing : Option SimulatedPricing}
    {p : Projection} (h : computeDailyMetrics H source day pricing = some p) :
    p.metrics.map (·.name) = METRIC_NAMES := by
  simp only [computeDailyMetrics, Option.bind_eq_bind, Option.bind_eq_some_iff] at h
  obtain ⟨bounds, -, usage, husage, hp⟩ := h
  cases hp
  simp only [List.map_append, usageMetrics_names husage, callMetrics, List.map_cons, List.map_nil,
    metric_name, rate_name, fallbackMetric_name, successMetric]
  rfl

/-- No total of seconds is negative, as far as it is reported. -/
structure Source.Settled (source : Source) (day : Day) (bounds : Instant × Instant) : Prop where
  duration : 0 ≤ source.duration bounds
  billable : source.legacy = 0 → 0 ≤ source.billable day

theorem callMetrics_ok (hH : H.Lawful) {calls : List Call} {duration : ℤ} (h : 0 ≤ duration) :
    ∀ m ∈ callMetrics H calls duration, m.Ok := by
  have hcount : ∀ f : Call → Bool, ((calls.countP f : ℕ) : ℤ) ≤ (calls.length : ℕ) := fun f => by
    exact_mod_cast List.countP_le_length
  intro m hm
  simp only [callMetrics, List.mem_cons, List.not_mem_nil, or_false] at hm
  rcases hm with rfl | rfl | rfl | rfl | rfl
  · refine metric_ok ?_
    simp only [Option.mem_some_iff, forall_eq', Value.toRat]
    exact ⟨by positivity, fun hrate => absurd hrate (by decide)⟩
  · exact rate_ok hH (by positivity) (by positivity) fun _ => hcount _
  · exact rate_ok hH (by positivity) (by positivity) fun _ => hcount _
  · exact rate_ok hH (by positivity) (by positivity) fun _ => hcount _
  · exact rate_ok hH h (by positivity) fun hrate => absurd hrate (by decide)

theorem usageMetrics_ok (hH : H.Lawful) {pricing : Option SimulatedPricing} {billable : ℤ}
    {legacy unsettled : Bool} {ms : List Metric} (hb : legacy = false → 0 ≤ billable)
    (h : usageMetrics H pricing billable legacy unsettled = some ms) : ∀ m ∈ ms, m.Ok := by
  have hseconds : ∀ reason, (metric billableSeconds (if legacy then none else some (.int billable))
      reason unsettled).Ok := by
    intro reason
    refine metric_ok ?_
    intro v hv
    split at hv
    · cases hv
    next hlegacy =>
      cases hv
      have := hb (by simpa using hlegacy)
      exact ⟨by simpa [Value.toRat] using this, fun hrate => absurd hrate (by decide)⟩
  have hnone : ∀ reason, (metric estimatedCost none reason false).Ok := fun reason =>
    metric_ok (by simp)
  unfold usageMetrics at h
  cases pricing with
  | none =>
    cases h
    simp only [List.mem_cons, List.not_mem_nil, or_false, forall_eq_or_imp, forall_eq]
    exact ⟨hseconds _, hnone _⟩
  | some p =>
    simp only at h
    split at h
    · cases h
      simp only [List.mem_cons, List.not_mem_nil, or_false, forall_eq_or_imp, forall_eq]
      exact ⟨hseconds _, hnone _⟩
    · obtain ⟨cost, hcost, hms⟩ := Option.bind_eq_some_iff.mp h
      cases hms
      simp only [List.mem_cons, List.not_mem_nil, or_false, forall_eq_or_imp, forall_eq]
      refine ⟨hseconds _, metric_ok ?_⟩
      simp only [Option.mem_some_iff, forall_eq', Value.toRat]
      refine ⟨?_, fun hrate => absurd hrate (by decide)⟩
      rw [← hH.zero]
      exact hH.mono (estimate_nonneg hcost)

theorem fallbackMetric_ok (hH : H.Lawful) (calls : List Call) : (fallbackMetric H calls).Ok := by
  unfold fallbackMetric
  split
  · exact metric_ok (by simp)
  · refine rate_ok hH (by positivity) (by positivity) fun _ => ?_
    exact_mod_cast List.countP_le_length

theorem successMetric_ok (hH : H.Lawful) (name : MetricName) (succeeded unsuccessful pending : ℕ) :
    (successMetric H name succeeded unsuccessful pending).Ok :=
  rate_ok hH (by positivity) (by positivity) fun _ => by omega

theorem computed_ok (hH : H.Lawful) {source : Source} {day : Day}
    {pricing : Option SimulatedPricing} {p : Projection}
    (hsettled : ∀ bounds ∈ H.bounds day, source.Settled day bounds)
    (h : computeDailyMetrics H source day pricing = some p) : ∀ m ∈ p.metrics, m.Ok := by
  simp only [computeDailyMetrics, Option.bind_eq_bind, Option.bind_eq_some_iff] at h
  obtain ⟨bounds, hbounds, usage, husage, hp⟩ := h
  cases hp
  have hs := hsettled bounds hbounds
  intro m hm
  simp only [List.mem_append, List.mem_cons, List.not_mem_nil, or_false] at hm
  rcases hm with (hm | hm) | rfl | rfl | rfl
  · exact callMetrics_ok hH hs.duration m hm
  · exact usageMetrics_ok hH (fun hnone => hs.billable (by simpa using hnone)) husage m hm
  · exact fallbackMetric_ok hH _
  · exact successMetric_ok hH _ _ _ _
  · exact successMetric_ok hH _ _ _ _

/-- What is computed of settled seconds is accepted. -/
theorem validatedValues_computed (hH : H.Lawful) {source : Source} {day : Day}
    {pricing : Option SimulatedPricing} {p : Projection}
    (hsettled : ∀ bounds ∈ H.bounds day, source.Settled day bounds)
    (h : computeDailyMetrics H source day pricing = some p) :
    validatedValues H p day = some (measured H p.metrics) := by
  have hnames := computed_names h
  have hok := computed_ok hH hsettled h
  have hlen : p.metrics.length = METRIC_NAMES.length := by
    rw [← hnames, List.length_map]
  have hnodup : (p.metrics.map (·.name)).Nodup := by
    rw [hnames]
    decide
  have hident : p.date = day ∧ p.timezone = "Asia/Shanghai" ∧ p.formulaVersion = "voice-daily-v1" := by
    simp only [computeDailyMetrics, Option.bind_eq_bind, Option.bind_eq_some_iff] at h
    obtain ⟨bounds, -, usage, -, hp⟩ := h
    cases hp
    exact ⟨rfl, rfl, rfl⟩
  have hvalid : validateMetrics H p.metrics [] [] = some ([] ++ measured H p.metrics) :=
    validateMetrics_of_ok hok hnodup (by simp)
  simpa [validatedValues, hident, hlen] using hvalid

end CompanionBackend.DailyMetrics
