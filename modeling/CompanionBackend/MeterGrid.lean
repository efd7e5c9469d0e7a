import CompanionBackend.VoiceQuota

/-!
# The connected meter on the microsecond grid

With the wall clock in step with the monotonic clock, an instant is one whole
number of microseconds, and observation is integer arithmetic. A tick meter
holds those integers. Every loop below mirrors a loop of `observe`, and
`observeCandidate_meter` shows that the rational meter computes the same thing
with every tolerance and every bound on its passes.
-/
namespace CompanionBackend.MeterGrid

open Runs KeyedSums ShanghaiClock VoiceModels VoiceQuota

/-- The fields of a meter that no observation changes. -/
structure Terms where
  callId : CallId
  userId : UserId
  dailySeconds : ℕ
  graceLimit : ℕ
  graceLimit_le : graceLimit ≤ 30

/-- What charging changes: the slices, the microseconds carried, the instant of grace. -/
structure Billing where
  slices : List UsageSlice
  carry : ℤ
  grace : Option ℤ

/-- The other fields; `growth` and every instant are in microseconds. -/
structure TickMeter extends Billing where
  graceSeconds : ℤ
  last : Option ℤ
  connected : Bool
  muted : Bool
  growth : ℤ

/-- Both clocks at an instant, where `base` is the monotonic reading at wall zero. -/
def reading (base : ℚ) (t : ℤ) : Reading := ⟨base + seconds t, t⟩

namespace TickMeter

/-- The meter of the service. -/
def meter (x : TickMeter) (terms : Terms) (base : ℚ) : ConnectedMeter where
  callId := terms.callId
  userId := terms.userId
  dailySeconds := terms.dailySeconds
  graceLimit := terms.graceLimit
  lastSeen := x.last.map (reading base)
  connected := x.connected
  remainder := seconds x.carry
  grace := x.grace.map (reading base)
  graceSeconds := x.graceSeconds
  slices := x.slices
  muted := x.muted
  growthSeconds := seconds x.growth
  graceLimit_le := terms.graceLimit_le

/-- The meter of a new call. -/
def fresh : TickMeter := ⟨⟨[], 0, none⟩, 0, none, false, false, 0⟩

/-- The meter with new billing. -/
def bill (x : TickMeter) (y : Billing) : TickMeter := { x with toBilling := y }

@[simp] theorem bill_toBilling (x : TickMeter) (y : Billing) : (x.bill y).toBilling = y := rfl

@[simp] theorem bill_self (x : TickMeter) : x.bill x.toBilling = x := rfl

@[simp] theorem bill_last (x : TickMeter) (y : Billing) : (x.bill y).last = x.last := rfl

@[simp] theorem bill_connected (x : TickMeter) (y : Billing) :
    (x.bill y).connected = x.connected := rfl

@[simp] theorem bill_muted (x : TickMeter) (y : Billing) : (x.bill y).muted = x.muted := rfl

@[simp] theorem bill_graceSeconds (x : TickMeter) (y : Billing) :
    (x.bill y).graceSeconds = x.graceSeconds := rfl

@[simp] theorem bill_growth (x : TickMeter) (y : Billing) : (x.bill y).growth = x.growth := rfl

end TickMeter

/-- A scheduled change, or a heartbeat that repeats the flags in force. -/
structure Observation where
  instant : ℤ
  connected : Bool
  muted : Bool
  deriving DecidableEq, Repr

/-- What the call may still use on the day of `t`. -/
def available (db : VoiceDb) (terms : Terms) (slices : List UsageSlice) (t : ℤ) :
    Except QuotaError Balance := do
  let b ← balance db terms.userId terms.dailySeconds t false
  unreserved b slices (db.ledgerOf terms.callId) (shanghaiDay t)

/-- Microseconds until what is available is used up. -/
def exhaustion (x : Billing) (b : Balance) : ℤ := max 0 (b.total * 1000000 - x.carry)

/-- The next day's allowance takes over from an exhaustion exactly at midnight. -/
def resets (terms : Terms) (x : Billing) (b : Balance) (cursor : ℤ) : Prop :=
  0 < terms.dailySeconds ∧ exhaustion x b = nextMidnight cursor - cursor

instance (terms : Terms) (x : Billing) (b : Balance) (cursor : ℤ) :
    Decidable (resets terms x b cursor) := inferInstanceAs (Decidable (_ ∧ _))

/-- What is available is used up within `portion`, and no reset follows. -/
def exhausts (terms : Terms) (x : Billing) (b : Balance) (cursor portion : ℤ) : Prop :=
  b.total ≤ (portion + x.carry) / 1000000 ∧ ¬ resets terms x b cursor

instance (terms : Terms) (x : Billing) (b : Balance) (cursor portion : ℤ) :
    Decidable (exhausts terms x b cursor portion) := inferInstanceAs (Decidable (_ ∧ _))

/-- Charge `portion` microseconds of the day of `cursor` to the balance `b`. -/
def charge (terms : Terms) (x : Billing) (b : Balance) (cursor portion : ℤ) : Billing :=
  let charged := min ((portion + x.carry) / 1000000) b.total
  let fromFree := min charged b.free
  { slices := append x.slices (shanghaiDay cursor) .connected charged fromFree (charged - fromFree)
    carry := if exhausts terms x b cursor portion then 0 else (portion + x.carry) % 1000000
    grace := if exhausts terms x b cursor portion then some (cursor + exhaustion x b)
      else x.grace }

/-- The connected-time loop: one day, or what is left of the interval, at a time. -/
def chargeSpan (db : VoiceDb) (terms : Terms) (x : Billing) (cursor left : ℤ) :
    Except QuotaError Billing :=
  if 0 < left ∧ x.grace = none then do
    let portion := min left (nextMidnight cursor - cursor)
    let b ← available db terms x.slices cursor
    chargeSpan db terms (charge terms x b cursor portion) (cursor + portion) (left - portion)
  else pure x
termination_by left.toNat
decreasing_by
  have := lt_nextMidnight cursor
  omega

/-- Connected time since the last observation, charged to the account. -/
def chargeTo (db : VoiceDb) (terms : Terms) (x : TickMeter) (t : ℤ) :
    Except QuotaError Billing :=
  match x.last with
  | some l => if x.connected = true then chargeSpan db terms x.toBilling l (t - l)
    else pure x.toBilling
  | none => pure x.toBilling

/-- Whole grace seconds passed at `t`, up to the limit. -/
def graceAt (terms : Terms) (g t : ℤ) : ℤ := min terms.graceLimit (max 0 ((t - g) / 1000000))

def graceTo (terms : Terms) (x : TickMeter) (t : ℤ) : TickMeter :=
  match x.grace with
  | some g =>
    { x with
      slices := fileGrace x.slices (g + x.graceSeconds * 1000000)
        (graceAt terms g t - x.graceSeconds)
      graceSeconds := graceAt terms g t }
  | none => x

/-- Where growth stops: at grace, or at the observation. -/
def growthStop (grace : Option ℤ) (t : ℤ) : ℤ := grace.elim t (min t)

def growTo (x : TickMeter) (t : ℤ) : TickMeter :=
  match x.last with
  | some l =>
    if x.connected = true ∧ x.muted = false then
      { x with growth := x.growth + max 0 (growthStop x.grace t - l) }
    else x
  | none => x

/-- The meter after an observation, once connected time is charged. -/
def advance (terms : Terms) (x : TickMeter) (charged : Billing) (o : Observation) : TickMeter :=
  { growTo (graceTo terms (x.bill charged) o.instant) o.instant with
    muted := o.muted
    last := some o.instant
    connected := o.connected }

/-- One observation. -/
def observeTick (db : VoiceDb) (terms : Terms) (x : TickMeter) (o : Observation) :
    Except QuotaError TickMeter := do
  require (∀ l ∈ x.last, l ≤ o.instant) .observationOutOfOrder
  let charged ← chargeTo db terms x o.instant
  pure (advance terms x charged o)

/-! ### The rational meter computes the same -/

section Bridge

variable {db : VoiceDb} {terms : Terms} {base : ℚ}

theorem availableOn_meter (x : TickMeter) (t : ℤ) :
    availableOn db (x.meter terms base) t = available db terms x.slices t := rfl

@[simp] theorem meter_lastSeen (x : TickMeter) :
    (x.meter terms base).lastSeen = x.last.map (reading base) := rfl

@[simp] theorem meter_grace (x : TickMeter) :
    (x.meter terms base).grace = x.grace.map (reading base) := rfl

@[simp] theorem meter_connected (x : TickMeter) :
    (x.meter terms base).connected = x.connected := rfl

@[simp] theorem meter_muted (x : TickMeter) : (x.meter terms base).muted = x.muted := rfl

@[simp] theorem meter_growthSeconds (x : TickMeter) :
    (x.meter terms base).growthSeconds = seconds x.growth := rfl

theorem meter_grace_eq_none (x : TickMeter) :
    (x.meter terms base).grace = none ↔ x.grace = none := by
  simp

theorem offset_eq (x : Billing) (b : Balance) :
    max 0 ((b.total : ℚ) - seconds x.carry) = seconds (exhaustion x b) := by
  have h : (b.total : ℚ) - seconds x.carry = seconds (b.total * 1000000 - x.carry) := by
    rw [seconds_sub, seconds_mul_million]
  rw [h, ← seconds_zero, seconds_max]
  rfl

/-- One pass of the rational loop is one charge. -/
theorem chargePortion_meter (x : TickMeter) (start cursor left : ℤ) :
    chargePortion db (base + seconds start)
        ⟨x.meter terms base, cursor, seconds left, seconds (cursor - start)⟩ =
      (available db terms x.slices cursor).map fun b =>
        let portion := min left (nextMidnight cursor - cursor)
        ⟨(x.bill (charge terms x.toBilling b cursor portion)).meter terms base,
          cursor + portion, seconds (left - portion), seconds (cursor + portion - start)⟩ := by
  unfold chargePortion
  simp only [availableOn_meter, seconds_min, timedelta_seconds]
  cases available db terms x.slices cursor with
  | error e => rfl
  | ok b =>
    set portion := min left (nextMidnight cursor - cursor) with hportion
    have hfloor : ⌊seconds portion + seconds x.carry + tolerance⌋ =
        (portion + x.carry) / 1000000 := by
      rw [← seconds_add, floor_seconds_tolerance]
    have hreset : (0 < terms.dailySeconds ∧
        |seconds (exhaustion x.toBilling b - (nextMidnight cursor - cursor))| < tolerance) ↔
        resets terms x.toBilling b cursor := by
      refine and_congr_right fun _ => ?_
      rw [abs_seconds_lt_tolerance]
      omega
    have hcarry : seconds portion + seconds x.carry - ((portion + x.carry) / 1000000 : ℤ) =
        seconds ((portion + x.carry) % 1000000) := by
      rw [← seconds_add, ← seconds_mul_million, ← seconds_sub]
      congr 1
      omega
    have helapsed : seconds (cursor - start) + seconds portion =
        seconds (cursor + portion - start) := by
      rw [← seconds_add]
      congr 1
      ring
    have hgrace : base + seconds start + seconds (cursor - start) +
        seconds (exhaustion x.toBilling b) =
        base + seconds (cursor + exhaustion x.toBilling b) := by
      simp only [seconds_sub, seconds_add]
      ring
    simp only [TickMeter.meter, ok_bind, Except.map, hfloor, offset_eq, hcarry, timedelta_seconds,
      hreset, helapsed, hgrace, ← seconds_sub]
    by_cases he : exhausts terms x.toBilling b cursor portion
    · have he' := he
      unfold exhausts at he'
      simp only [TickMeter.bill, charge, if_pos he, if_pos he', seconds_zero, Option.map_some,
        reading]
      rfl
    · have he' := he
      unfold exhausts at he'
      simp only [TickMeter.bill, charge, if_neg he, if_neg he']
      rfl

/-- The bounded rational loop never runs out of passes. -/
theorem chargeLoop_meter (fuel : ℕ) (x : TickMeter) (start cursor left : ℤ)
    (hfuel : 0 < left → shanghaiDay (cursor + left) - shanghaiDay cursor < fuel) :
    (chargeLoop db (base + seconds start) fuel
        ⟨x.meter terms base, cursor, seconds left, seconds (cursor - start)⟩).map (·.candidate) =
      (chargeSpan db terms x.toBilling cursor left).map fun y =>
        (x.bill y).meter terms base := by
  induction fuel generalizing x cursor left with
  | zero =>
    have hleft : ¬ 0 < left := fun h => by
      have := hfuel h
      have := shanghaiDay_mono (show cursor ≤ cursor + left by omega)
      omega
    rw [chargeSpan, if_neg fun h => hleft h.1]
    rfl
  | succ fuel ih =>
    rw [chargeLoop, chargeSpan]
    simp only [tolerance_lt_seconds, meter_grace_eq_none]
    split_ifs with h
    · rw [chargePortion_meter]
      cases available db terms x.slices cursor with
      | error e => rfl
      | ok b =>
        refine ih (x.bill _) _ _ fun hrest => ?_
        -- Another pass is needed only beyond midnight, where the day is the next one.
        have hportion : min left (nextMidnight cursor - cursor) = nextMidnight cursor - cursor := by
          omega
        have hday := hfuel h.1
        rw [hportion]
        simp only [add_sub_cancel, shanghaiDay_nextMidnight]
        rw [show nextMidnight cursor + (left - (nextMidnight cursor - cursor)) = cursor + left by ring]
        push_cast at hday
        omega
    · rfl

theorem chargeTo_meter (x : TickMeter) (t : ℤ) :
    chargeConnected db (x.meter terms base) (base + seconds t) =
      (chargeTo db terms x t).map fun y =>
        (x.bill y).meter terms base := by
  unfold chargeConnected chargeTo
  rw [meter_lastSeen]
  cases x.last with
  | none => rfl
  | some l =>
    simp only [Option.map_some, meter_connected, meter_grace_eq_none]
    by_cases hc : x.connected = true
    · by_cases hg : x.grace = none
      · have hleft : base + seconds t - (base + seconds l) = seconds (t - l) := by
          rw [add_sub_add_left_eq_sub, ← seconds_sub]
        have hloop : (chargeLoop db (base + seconds l) (daysTouched l (seconds (t - l)))
            ⟨x.meter terms base, l, seconds (t - l), seconds (l - l)⟩).map (·.candidate) = _ :=
          chargeLoop_meter _ x l l (t - l) fun _ => by
            unfold daysTouched
            rw [timedelta_seconds]
            push_cast
            omega
        rw [if_pos ⟨hc, hg⟩, if_pos hc, ← hloop]
        simp only [reading, hleft, sub_self, seconds_zero]
        cases chargeLoop db _ _ _ <;> rfl
      · rw [if_neg fun h => hg h.2, if_pos hc, chargeSpan, if_neg fun h => hg h.2]
        rfl
    · rw [if_neg fun h => hc h.1, if_neg hc]
      rfl

theorem graceTo_meter (x : TickMeter) (t : ℤ) :
    extendGrace (x.meter terms base) (base + seconds t) =
      (graceTo terms x t).meter terms base := by
  unfold extendGrace graceTo
  rw [meter_grace]
  cases x.grace with
  | none => rfl
  | some g =>
    have hpassed : gracePassed (x.meter terms base) (base + seconds g)
        (base + seconds t) = graceAt terms g t := by
      unfold gracePassed graceAt
      rw [add_sub_add_left_eq_sub, ← seconds_sub, max_zero_pyInt_seconds]
      rfl
    simp only [Option.map_some, reading, hpassed]
    rfl

theorem growthStop_meter (x : TickMeter) (t : ℤ) :
    growthEnd (x.meter terms base) (base + seconds t) =
      base + seconds (growthStop x.grace t) := by
  unfold growthEnd
  rw [meter_grace]
  cases x.grace with
  | none => rfl
  | some g =>
    simp only [Option.map_some, reading, growthStop, Option.elim]
    rw [min_add_add_left, seconds_min]

theorem growTo_meter (x : TickMeter) (t : ℤ) :
    extendGrowth (x.meter terms base) (base + seconds t) =
      (growTo x t).meter terms base := by
  unfold extendGrowth growTo
  rw [meter_lastSeen]
  cases hlast : x.last with
  | none => rfl
  | some l =>
    by_cases h : x.connected = true ∧ x.muted = false
    · have hgrowth : seconds x.growth + max 0 (base + seconds (growthStop x.grace t) -
          (base + seconds l)) = seconds (x.growth + max 0 (growthStop x.grace t - l)) := by
        rw [add_sub_add_left_eq_sub, ← seconds_sub, seconds_add, ← seconds_max, seconds_zero]
      simp only [Option.map_some, meter_connected, meter_muted, if_pos h, growthStop_meter, reading,
        meter_growthSeconds, hgrowth]
      simp [TickMeter.meter, hlast, reading]
    · simp only [Option.map_some, meter_connected, meter_muted, if_neg h]
      exact if_neg h

/-- An observation of the service is an observation on the grid. -/
theorem observeCandidate_meter (x : TickMeter) (o : Observation) :
    observeCandidate db (x.meter terms base) o.connected (base + seconds o.instant) o.instant
        o.muted =
      (observeTick db terms x o).map fun y => y.meter terms base := by
  have horder : (∀ seen ∈ (x.meter terms base).lastSeen, seen.monotonic ≤ base + seconds o.instant) ↔
      ∀ l ∈ x.last, l ≤ o.instant := by
    simp [reading, seconds_le]
  unfold observeCandidate observeTick advance
  rw [chargeTo_meter]
  by_cases h : ∀ l ∈ x.last, l ≤ o.instant
  · rw [require_of_pos h, require_of_pos (horder.mpr h)]
    cases chargeTo db terms x o.instant with
    | error e => rfl
    | ok y =>
      simp only [ok_bind, Except.map, graceTo_meter, growTo_meter]
      rfl
  · rw [require, require, if_neg h, if_neg fun h' => h (horder.mp h')]
    rfl

end Bridge

end CompanionBackend.MeterGrid
