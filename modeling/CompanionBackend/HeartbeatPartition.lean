import CompanionBackend.MeterCharging

/-!
# Billing does not depend on when heartbeats fire

An observation that repeats the flags in force changes nothing that the next
observation computes, so every way of inserting heartbeats into a schedule of
changes ends with the same meter, or raises the same error.
-/
namespace CompanionBackend.HeartbeatPartition

open Runs KeyedSums ShanghaiClock VoiceModels VoiceQuota MeterGrid

variable {db : VoiceDb} {terms : Terms}

/-! ### One observation in two -/

/-- What every meter keeps from its first observation on. -/
structure Valid (terms : Terms) (x : TickMeter) : Prop where
  carries : Carries x.toBilling
  unseen : x.last = none → x.connected = false ∧ x.grace = none
  unstarted : x.grace = none → x.graceSeconds = 0
  started : ∀ g, x.grace = some g → ∀ l, x.last = some l → x.graceSeconds ≤ graceAt terms g l

theorem fresh_valid : Valid terms TickMeter.fresh where
  carries := ⟨le_rfl, by decide⟩
  unseen := fun _ => ⟨rfl, rfl⟩
  unstarted := fun _ => rfl
  started := fun _ h => nomatch h

theorem graceAt_mono {g s t : ℤ} (h : s ≤ t) :
    graceAt terms g s ≤ graceAt terms g t := by
  unfold graceAt
  omega

theorem graceAt_nonneg (g t : ℤ) : 0 ≤ graceAt terms g t := by
  unfold graceAt
  omega

/-- Slices with the grace passed at `t` filed. -/
def graceFiled (terms : Terms) (filed : ℤ) (y : Billing) (t : ℤ) : List UsageSlice :=
  match y.grace with
  | some g => fileGrace y.slices (g + filed * 1000000) (graceAt terms g t - filed)
  | none => y.slices

def graceTotal (terms : Terms) (filed : ℤ) (grace : Option ℤ) (t : ℤ) : ℤ :=
  grace.elim filed fun g => graceAt terms g t

/-- Growth time added between the last observation and `t`. -/
def grownBy (x : TickMeter) (grace : Option ℤ) (t : ℤ) : ℤ :=
  match x.last with
  | some l => if x.connected = true ∧ x.muted = false then max 0 (growthStop grace t - l) else 0
  | none => 0

theorem advance_eq (x : TickMeter) (y : Billing) (o : Observation) :
    advance terms x y o =
      ⟨⟨graceFiled terms x.graceSeconds y o.instant, y.carry, y.grace⟩,
        graceTotal terms x.graceSeconds y.grace o.instant, some o.instant, o.connected, o.muted,
        x.growth + grownBy x y.grace o.instant⟩ := by
  obtain ⟨slices, carry, grace⟩ := y
  obtain ⟨bill, filed, last, connected, muted, growth⟩ := x
  unfold advance growTo graceTo graceFiled graceTotal grownBy TickMeter.bill
  cases grace <;> cases last <;> simp <;> split_ifs <;> simp

theorem observeTick_eq_ok {x z : TickMeter} {o : Observation} :
    observeTick db terms x o = .ok z ↔ (∀ l ∈ x.last, l ≤ o.instant) ∧
      ∃ y, chargeTo db terms x o.instant = .ok y ∧ advance terms x y o = z := by
  simp only [observeTick, bind_eq_ok, require_eq_ok, exists_const, pure_eq_ok]

/-- Connected charging up to `t` leaves a carry, and grace no later than `t`. -/
theorem chargeTo_charged {x : TickMeter} {y : Billing} {l t : ℤ} (hx : Valid terms x)
    (hlast : x.last = some l) (hlt : l ≤ t) (h : chargeTo db terms x t = .ok y) :
    Charged x.toBilling y l (t - l) := by
  unfold chargeTo at h
  rw [hlast] at h
  simp only at h
  split_ifs at h
  · exact chargeSpan_charged hx.carries (by omega) h
  · obtain rfl := pure_eq_ok.mp h
    exact ⟨hx.carries, fun g hg => .inl hg⟩

/-- Grace filed so far is no more than the grace passed at `t`. -/
theorem graceSeconds_le {x : TickMeter} {y : Billing} {g l t : ℤ} (hx : Valid terms x)
    (hlast : x.last = some l) (hlt : l ≤ t) (hy : Charged x.toBilling y l (t - l))
    (hg : y.grace = some g) : x.graceSeconds ≤ graceAt terms g t := by
  rcases hy.grace g hg with hsame | ⟨hnone, -⟩
  · exact (hx.started g hsame l hlast).trans (graceAt_mono hlt)
  · rw [hx.unstarted hnone]
    exact graceAt_nonneg g t

theorem advance_valid {x : TickMeter} {y : Billing} {o : Observation} (hy : Carries y)
    (hfiled : y.grace = none → x.graceSeconds = 0) : Valid terms (advance terms x y o) := by
  rw [advance_eq]
  refine ⟨⟨hy.nonneg, hy.lt⟩, (fun h => nomatch h), fun h => ?_, fun g h l hl => ?_⟩
  · simp only at h
    simp only [graceTotal, h, Option.elim]
    exact hfiled h
  · simp only at h
    obtain rfl := Option.some.inj hl
    simp [graceTotal, h]

/-- An observation keeps the meter valid. -/
theorem observeTick_valid {x z : TickMeter} {o : Observation} (hx : Valid terms x)
    (h : observeTick db terms x o = .ok z) : Valid terms z := by
  obtain ⟨hle, y, hy, rfl⟩ := observeTick_eq_ok.mp h
  cases hlast : x.last with
  | none =>
    rw [chargeTo, hlast] at hy
    obtain rfl := pure_eq_ok.mp hy
    exact advance_valid hx.carries hx.unstarted
  | some l =>
    have hcharged := chargeTo_charged hx hlast (hle l hlast) hy
    refine advance_valid hcharged.carries fun hnone => ?_
    cases hxg : x.grace with
    | none => exact hx.unstarted hxg
    | some g =>
      -- Once grace has begun nothing more is charged.
      have hsame : y = x.toBilling := by
        unfold chargeTo at hy
        simp only [hlast, chargeSpan_of_grace hxg] at hy
        split_ifs at hy
        · exact (Except.ok.inj hy).symm
        · exact (pure_eq_ok.mp hy).symm
      rw [hsame, hxg] at hnone
      cases hnone

theorem grownBy_split {x : TickMeter} {grace grace' : Option ℤ} {l t u : ℤ}
    (hlast : x.last = some l) (hlt : l ≤ t) (htu : t ≤ u)
    (hgrace : grace' = grace ∨ grace = none ∧ ∀ g, grace' = some g → t ≤ g) :
    grownBy x grace t + (if x.connected = true ∧ x.muted = false
      then max 0 (growthStop grace' u - t) else 0) = grownBy x grace' u := by
  unfold grownBy growthStop
  simp only [hlast]
  split_ifs
  · rcases hgrace with rfl | ⟨rfl, hg⟩
    · cases grace' <;> simp only [Option.elim] <;> omega
    · cases grace' with
      | none => simp only [Option.elim]; omega
      | some g =>
        have := hg g rfl
        simp only [Option.elim]
        omega
  · rfl

/-- Advancing in two steps, when grace does not begin in the first. -/
theorem advance_advance_none {x : TickMeter} {y w : Billing} {l t : ℤ} {o : Observation}
    (hlast : x.last = some l) (hlt : l ≤ t) (ht : t ≤ o.instant) (hy : y.grace = none)
    (hw : ∀ g, w.grace = some g → t ≤ g) :
    advance terms (advance terms x y ⟨t, x.connected, x.muted⟩) w o = advance terms x w o := by
  have hgrown := grownBy_split hlast hlt ht (.inr ⟨hy, hw⟩)
  rw [advance_eq x y, advance_eq, advance_eq]
  simp only [graceTotal, hy, Option.elim, TickMeter.mk.injEq, true_and]
  rw [← hgrown, hy]
  simp only [grownBy]
  omega

/-- Advancing in two steps, when grace has begun. -/
theorem advance_advance_some {x : TickMeter} {y : Billing} {g l t : ℤ} {o : Observation}
    (hlast : x.last = some l) (hlt : l ≤ t) (ht : t ≤ o.instant) (hy : y.grace = some g)
    (hfiled : x.graceSeconds ≤ graceAt terms g t) :
    advance terms (advance terms x y ⟨t, x.connected, x.muted⟩)
      (advance terms x y ⟨t, x.connected, x.muted⟩).toBilling o = advance terms x y o := by
  have hgrown : grownBy x y.grace t + _ = grownBy x y.grace o.instant :=
    grownBy_split hlast hlt ht (.inl rfl)
  have hmono : graceAt terms g t ≤ graceAt terms g o.instant := graceAt_mono ht
  have hgrace := fileGrace_add y.slices (g + x.graceSeconds * 1000000)
    (graceAt terms g t - x.graceSeconds) (graceAt terms g o.instant - graceAt terms g t)
    (by omega) (by omega)
  rw [show g + x.graceSeconds * 1000000 + (graceAt terms g t - x.graceSeconds) * 1000000 =
      g + graceAt terms g t * 1000000 by ring,
    show graceAt terms g t - x.graceSeconds + (graceAt terms g o.instant - graceAt terms g t) =
      graceAt terms g o.instant - x.graceSeconds by ring] at hgrace
  rw [advance_eq x y, advance_eq, advance_eq]
  simp only [graceFiled, graceTotal, hy, Option.elim, hgrace, TickMeter.mk.injEq, true_and]
  rw [hy] at hgrown
  rw [← hgrown]
  simp only [grownBy]
  omega

/-- An observation that repeats the flags in force is absorbed by the next one. -/
theorem observe_split {x : TickMeter} (hx : Valid terms x) {t : ℤ} {o : Observation}
    (hlast : ∀ l ∈ x.last, l ≤ t) (ht : t ≤ o.instant) :
    (observeTick db terms x ⟨t, x.connected, x.muted⟩ >>= fun z => observeTick db terms z o) =
      observeTick db terms x o := by
  have hle : ∀ l ∈ x.last, l ≤ o.instant := fun l hl => (hlast l hl).trans ht
  unfold observeTick
  rw [require_of_pos hlast, require_of_pos hle, ok_bind, ok_bind]
  cases hl : x.last with
  | none =>
    -- Before its first reading the meter is neither connected nor in grace.
    obtain ⟨hconn, hgrace⟩ := hx.unseen hl
    have hcharge : ∀ u, chargeTo db terms x u = .ok x.toBilling := fun u => by
      unfold chargeTo
      rw [hl]
      rfl
    have hz : advance terms x x.toBilling ⟨t, x.connected, x.muted⟩ = { x with last := some t } := by
      rw [advance_eq]
      simp [graceFiled, graceTotal, grownBy, hgrace, hl]
      rw [← hgrace]
    simp only [hcharge, ok_bind, pure_bind, hz]
    rw [require_of_pos (by simpa using ht), ok_bind]
    have hcharge' : chargeTo db terms { x with last := some t } o.instant = .ok x.toBilling := by
      simp [chargeTo, hconn, pure, Except.pure]
    rw [hcharge', ok_bind]
    congr 1
    rw [advance_eq, advance_eq]
    simp [grownBy, hconn, hl]
  | some l =>
    have hlt : l ≤ t := hlast l hl
    -- The rest of the interval, charged after its part up to `t`.
    let rest (y : Billing) : Except QuotaError Billing :=
      if x.connected = true then chargeSpan db terms y t (o.instant - t) else pure y
    have hsplit : chargeTo db terms x o.instant = chargeTo db terms x t >>= rest := by
      simp only [chargeTo, hl, rest]
      split_ifs
      · have hadd : chargeSpan db terms x.toBilling l (t - l + (o.instant - t)) = _ :=
          chargeSpan_add hx.carries l (by omega) (by omega)
        rw [show t - l + (o.instant - t) = o.instant - l by ring,
          show l + (t - l) = t by ring] at hadd
        exact hadd
      · rfl
    rw [hsplit]
    cases hy : chargeTo db terms x t with
    | error e => rfl
    | ok y =>
      have hcharged := chargeTo_charged hx hl hlt hy
      have hnext : ∀ z : TickMeter, z.last = some t → z.connected = x.connected →
          chargeTo db terms z o.instant = rest z.toBilling := fun z hzl hzc => by
        simp only [chargeTo, hzl, hzc, rest]
      simp only [ok_bind, pure_bind]
      rw [require_of_pos (by rw [advance_eq]; simpa using ht), ok_bind,
        hnext _ (by rw [advance_eq]) (by rw [advance_eq])]
      cases hg : y.grace with
      | none =>
        have hbill : (advance terms x y ⟨t, x.connected, x.muted⟩).toBilling = y := by
          rw [advance_eq]
          simp only [graceFiled, hg]
          rw [← hg]
        rw [hbill]
        cases hw : rest y with
        | error e => rfl
        | ok w =>
          have hgw : ∀ g, w.grace = some g → t ≤ g := fun g hgw => by
            simp only [rest] at hw
            split_ifs at hw
            · rcases (chargeSpan_charged hcharged.carries (by omega) hw).grace g hgw with h | h
              · rw [hg] at h
                cases h
              · exact h.2.1
            · obtain rfl := pure_eq_ok.mp hw
              rw [hg] at hgw
              cases hgw
          simp only [ok_bind]
          rw [advance_advance_none hl hlt ht hg hgw]
      | some g =>
        have hsame : ∀ z : Billing, z.grace = some g → rest z = .ok z := fun z hz => by
          simp only [rest, chargeSpan_of_grace hz]
          split_ifs <;> rfl
        rw [hsame y hg, hsame _ (by rw [advance_eq]; exact hg), ok_bind, ok_bind,
          advance_advance_some hl hlt ht hg (graceSeconds_le hx hl hlt hcharged hg)]

/-! ### Schedules and inserted heartbeats -/

/-- `Inserted since connected muted schedule fine`: `fine` is the schedule with
heartbeats inserted before its entries, each with the flags then in force. -/
inductive Inserted : Option ℤ → Bool → Bool → List Observation → List Observation → Prop
  | done (since : Option ℤ) (connected muted : Bool) : Inserted since connected muted [] []
  | scheduled {since : Option ℤ} {connected muted : Bool} {o : Observation}
      {rest fine : List Observation} (h : Inserted (some o.instant) o.connected o.muted rest fine) :
      Inserted since connected muted (o :: rest) (o :: fine)
  | heartbeat {since : Option ℤ} {connected muted : Bool} {t : ℤ} {o : Observation}
      {rest fine : List Observation} (hsince : ∀ s ∈ since, s ≤ t) (ht : t ≤ o.instant)
      (h : Inserted (some t) connected muted (o :: rest) fine) :
      Inserted since connected muted (o :: rest) (⟨t, connected, muted⟩ :: fine)

/-- The entries of a schedule up to `u`, then a heartbeat at `u`. -/
def upTo (connected muted : Bool) : List Observation → ℤ → List Observation
  | [], u => [⟨u, connected, muted⟩]
  | o :: rest, u =>
    if o.instant ≤ u then o :: upTo o.connected o.muted rest u else [⟨u, connected, muted⟩]

def observeTicks (db : VoiceDb) (terms : Terms) (x : TickMeter) (os : List Observation) :
    Except QuotaError TickMeter :=
  os.foldlM (observeTick db terms) x

theorem observeTicks_cons (x : TickMeter) (o : Observation) (os : List Observation) :
    observeTicks db terms x (o :: os) =
      observeTick db terms x o >>= fun z => observeTicks db terms z os :=
  List.foldlM_cons

theorem observeTicks_cons_eq_ok {x z : TickMeter} {o : Observation} {os : List Observation} :
    observeTicks db terms x (o :: os) = .ok z ↔
      ∃ z₁, observeTick db terms x o = .ok z₁ ∧ observeTicks db terms z₁ os = .ok z := by
  rw [observeTicks_cons, bind_eq_ok]

theorem observeTick_flags {x z : TickMeter} {o : Observation}
    (h : observeTick db terms x o = .ok z) :
    z.last = some o.instant ∧ z.connected = o.connected ∧ z.muted = o.muted := by
  obtain ⟨-, y, -, rfl⟩ := observeTick_eq_ok.mp h
  rw [advance_eq]
  exact ⟨rfl, rfl, rfl⟩

/-- Inserted heartbeats leave no trace. -/
theorem observeTicks_inserted {x : TickMeter} {schedule fine : List Observation}
    (hx : Valid terms x) (h : Inserted x.last x.connected x.muted schedule fine) :
    observeTicks db terms x fine = observeTicks db terms x schedule := by
  generalize hlast : x.last = since at h
  generalize hconn : x.connected = connected at h
  generalize hmuted : x.muted = muted at h
  induction h generalizing x with
  | done => rfl
  | @scheduled since connected muted o rest fine h ih =>
    rw [observeTicks_cons, observeTicks_cons]
    cases hz : observeTick db terms x o with
    | error e => rfl
    | ok z =>
      obtain ⟨hl, hc, hm⟩ := observeTick_flags hz
      exact ih (observeTick_valid hx hz) hl hc hm
  | @heartbeat since connected muted t o rest fine hsince ht h ih =>
    have hsplit : (observeTick db terms x ⟨t, x.connected, x.muted⟩ >>= _) =
        observeTick db terms x o := observe_split hx (hlast ▸ hsince) ht
    rw [hconn, hmuted] at hsplit
    rw [observeTicks_cons, observeTicks_cons, ← hsplit, bind_assoc]
    cases hz : observeTick db terms x ⟨t, connected, muted⟩ with
    | error e => rfl
    | ok z =>
      obtain ⟨hl, hc, hm⟩ := observeTick_flags hz
      rw [ok_bind, ok_bind, ih (observeTick_valid hx hz) hl hc hm, observeTicks_cons]

/-! ### The instant grace begins -/

theorem chargeTo_of_grace {x : TickMeter} {g : ℤ} (h : x.grace = some g) (t : ℤ) :
    chargeTo db terms x t = .ok x.toBilling := by
  unfold chargeTo
  cases x.last with
  | none => rfl
  | some l =>
    simp only [chargeSpan_of_grace h]
    split_ifs <;> rfl

theorem observeTick_grace {x z : TickMeter} {o : Observation} {g : ℤ}
    (hg : x.grace = some g) (h : observeTick db terms x o = .ok z) : z.grace = some g := by
  obtain ⟨-, y, hy, rfl⟩ := observeTick_eq_ok.mp h
  rw [chargeTo_of_grace hg] at hy
  obtain rfl := Except.ok.inj hy
  rw [advance_eq]
  exact hg

theorem observeTicks_grace {x z : TickMeter} {os : List Observation} {g : ℤ}
    (hg : x.grace = some g) (h : observeTicks db terms x os = .ok z) : z.grace = some g := by
  induction os generalizing x with
  | nil =>
    obtain rfl := pure_eq_ok.mp h
    exact hg
  | cons o os ih =>
    obtain ⟨z₁, h₁, h⟩ := observeTicks_cons_eq_ok.mp h
    exact ih (observeTick_grace hg h₁) h

/-- Grace begun by an observation lies within the interval it closes. -/
theorem observeTick_grace_mem {x z : TickMeter} {o : Observation} {g : ℤ} (hx : Valid terms x)
    (hgrace : x.grace = none) (h : observeTick db terms x o = .ok z) (hg : z.grace = some g) :
    ∃ l y, x.last = some l ∧ l ≤ g ∧ g ≤ o.instant ∧ y.grace = some g ∧
      chargeSpan db terms x.toBilling l (o.instant - l) = .ok y ∧
      z.slices = graceFiled terms 0 y o.instant := by
  obtain ⟨hle, y, hy, rfl⟩ := observeTick_eq_ok.mp h
  rw [advance_eq] at hg
  have hyg : y.grace = some g := hg
  cases hlast : x.last with
  | none =>
    rw [chargeTo, hlast] at hy
    obtain rfl := pure_eq_ok.mp hy
    rw [hgrace] at hyg
    cases hyg
  | some l =>
    have hlt := hle l hlast
    have hcharged := chargeTo_charged hx hlast hlt hy
    obtain ⟨hlo, hhi⟩ : l ≤ g ∧ g ≤ l + (o.instant - l) := by
      rcases hcharged.grace g hyg with h | h
      · rw [hgrace] at h
        cases h
      · exact h.2
    refine ⟨l, y, rfl, hlo, by omega, hyg, ?_, ?_⟩
    · simp only [chargeTo, hlast] at hy
      split_ifs at hy
      · exact hy
      · obtain rfl := pure_eq_ok.mp hy
        rw [hgrace] at hyg
        cases hyg
    · rw [advance_eq, hx.unstarted hgrace]

end CompanionBackend.HeartbeatPartition
