import CompanionBackend.HeartbeatPartition

/-!
# Grace begins at the instant of exhaustion

Over a whole schedule, whatever heartbeats fired: the meter as a heartbeat at the
instant of grace would leave it has nothing available, and at every earlier
connected instant something still is.
-/
namespace CompanionBackend.HeartbeatPartition

open Runs KeyedSums ShanghaiClock VoiceModels VoiceQuota MeterGrid

variable {db : VoiceDb} {terms : Terms}

/-- A span charged as a whole is charged up to each of its instants. -/
theorem chargeSpan_prefix {x y : Billing} {cursor left : ℤ} (part : ℤ) (hx : Carries x)
    (hpart : 0 ≤ part) (hle : part ≤ left) (h : chargeSpan db terms x cursor left = .ok y) :
    ∃ w, chargeSpan db terms x cursor part = .ok w ∧
      ∀ g, w.grace = some g → y = w := by
  have hadd : chargeSpan db terms x cursor (part + (left - part)) = _ :=
    chargeSpan_add hx cursor hpart (by omega)
  rw [show part + (left - part) = left by ring, h] at hadd
  obtain ⟨w, hw, hy⟩ := bind_eq_ok.mp hadd.symm
  refine ⟨w, hw, fun g hg => ?_⟩
  rw [chargeSpan_of_grace hg] at hy
  exact (Except.ok.inj hy).symm

theorem graceFiled_of_none {y : Billing} (h : y.grace = none) (filed t : ℤ) :
    graceFiled terms filed y t = y.slices := by
  simp [graceFiled, h]

/-- At the instant it begins no grace has passed. -/
theorem graceFiled_at {y : Billing} {g : ℤ} (h : y.grace = some g) :
    graceFiled terms 0 y g = y.slices := by
  have hzero : graceAt terms g g = 0 := by
    unfold graceAt
    omega
  simp [graceFiled, h, hzero, fileGrace_zero]

/-- A heartbeat of a connected meter files what is charged up to it. -/
theorem heartbeat_slices {x w : TickMeter} {l u : ℤ} {c : Billing} (hx : Valid terms x)
    (hgrace : x.grace = none) (hlast : x.last = some l) (hconn : x.connected = true)
    (hc : chargeSpan db terms x.toBilling l (u - l) = .ok c)
    (hcg : ∀ g, c.grace = some g → g = u)
    (h : observeTick db terms x ⟨u, x.connected, x.muted⟩ = .ok w) : w.slices = c.slices := by
  obtain ⟨-, y, hy, rfl⟩ := observeTick_eq_ok.mp h
  have hyc : y = c := by
    simp only [chargeTo, hlast, hconn, if_true, hc] at hy
    exact (Except.ok.inj hy).symm
  subst hyc
  rw [advance_eq, hx.unstarted hgrace]
  cases hg : y.grace with
  | none => exact graceFiled_of_none hg 0 u
  | some g =>
    obtain rfl := hcg g hg
    exact graceFiled_at hg

/-- A meter read at the very instant its grace began. -/
structure AtGrace (x : TickMeter) (g : ℤ) : Prop where
  grace : x.grace = some g
  last : x.last = some g
  filed : x.graceSeconds = 0

variable (db terms) in
/-- A further observation at that instant files nothing. -/
theorem observeTick_at_grace {x : TickMeter} {g : ℤ} (hx : AtGrace x g) {o : Observation}
    (ho : o.instant = g) :
    ∃ w, observeTick db terms x o = .ok w ∧ AtGrace w g ∧ w.slices = x.slices := by
  refine ⟨_, observeTick_eq_ok.mpr ⟨fun l hl => ?_, _, chargeTo_of_grace hx.grace _, rfl⟩, ?_⟩
  · rw [hx.last] at hl
    obtain rfl := Option.some.inj hl
    exact ho.ge
  · rw [advance_eq, hx.filed, ho]
    refine ⟨⟨hx.grace, rfl, ?_⟩, graceFiled_at hx.grace⟩
    simp only [graceTotal, hx.grace, Option.elim, graceAt]
    omega

theorem observeTicks_at_grace {x z : TickMeter} {os : List Observation} {g : ℤ}
    (hx : AtGrace x g) (h : observeTicks db terms x os = .ok z) (connected muted : Bool) :
    ∃ w, observeTicks db terms x (upTo connected muted os g) = .ok w ∧ w.slices = x.slices := by
  have hbeat : ∀ (x : TickMeter) (connected muted : Bool), AtGrace x g →
      ∃ w, observeTicks db terms x [⟨g, connected, muted⟩] = .ok w ∧ w.slices = x.slices :=
    fun x connected muted hx => by
      obtain ⟨w, hw, -, hslices⟩ := observeTick_at_grace db terms hx
        (o := ⟨g, connected, muted⟩) rfl
      exact ⟨w, by rw [observeTicks_cons, hw]; rfl, hslices⟩
  induction os generalizing x connected muted with
  | nil => exact hbeat x connected muted hx
  | cons o os ih =>
    by_cases ho : o.instant ≤ g
    · obtain ⟨z₁, h₁, h⟩ := observeTicks_cons_eq_ok.mp h
      have heq : o.instant = g := le_antisymm ho ((observeTick_eq_ok.mp h₁).1 g hx.last)
      obtain ⟨w₁, hw₁, hat, hws⟩ := observeTick_at_grace db terms hx heq
      obtain rfl := Except.ok.inj (h₁.symm.trans hw₁)
      obtain ⟨w, hw, hslices⟩ := ih hat h o.connected o.muted
      exact ⟨w, by rw [upTo, if_pos ho, observeTicks_cons, h₁, ok_bind, hw], hslices.trans hws⟩
    · rw [upTo, if_neg ho]
      exact hbeat x connected muted hx

/-- Where grace began, nothing was available. -/
theorem observeTicks_exhausted {x z : TickMeter} {os : List Observation} {g : ℤ}
    (hx : Valid terms x) (hgrace : x.grace = none) (h : observeTicks db terms x os = .ok z)
    (hg : z.grace = some g) :
    (∀ l ∈ x.last, l ≤ g) ∧
      ∃ w, observeTicks db terms x (upTo x.connected x.muted os g) = .ok w ∧
        Exhausted db terms w.slices g := by
  induction os generalizing x with
  | nil =>
    obtain rfl := pure_eq_ok.mp h
    rw [hgrace] at hg
    cases hg
  | cons o os ih =>
    obtain ⟨z₁, h₁, h⟩ := observeTicks_cons_eq_ok.mp h
    obtain ⟨hl₁, hc₁, hm₁⟩ := observeTick_flags h₁
    cases hg₁ : z₁.grace with
    | none =>
      obtain ⟨hle, w, hw, hexh⟩ := ih (observeTick_valid hx h₁) hg₁ h
      have hog : o.instant ≤ g := hle _ hl₁
      refine ⟨fun l hl => ((observeTick_eq_ok.mp h₁).1 l hl).trans hog, w, ?_, hexh⟩
      rw [upTo, if_pos hog, observeTicks_cons, h₁, ok_bind, ← hc₁, ← hm₁]
      exact hw
    | some g₁ =>
      obtain rfl : g₁ = g := Option.some.inj ((observeTicks_grace hg₁ h).symm.trans hg)
      obtain ⟨l, y, hlast, hlg, hgo, hyg, hy, hz₁⟩ := observeTick_grace_mem hx hgrace h₁ hg₁
      refine ⟨fun l' hl' => by rw [hlast] at hl'; exact Option.some.inj hl' ▸ hlg, ?_⟩
      obtain ⟨c, hc, hsame⟩ := chargeSpan_prefix (g₁ - l) hx.carries (by omega) (by omega) hy
      have hexh := chargeSpan_exhausted hx.carries hgrace hy hyg hc
      by_cases ho : o.instant ≤ g₁
      · -- Grace began exactly at this entry.
        obtain rfl : o.instant = g₁ := le_antisymm ho hgo
        obtain rfl := Except.ok.inj (hc.symm.trans hy)
        have hfiled : z₁.graceSeconds = 0 := by
          obtain ⟨-, y', -, rfl⟩ := observeTick_eq_ok.mp h₁
          rw [advance_eq] at hg₁ ⊢
          have hyg' : y'.grace = some o.instant := hg₁
          simp only [graceTotal, hyg', Option.elim, graceAt]
          omega
        obtain ⟨w, hw, hws⟩ := observeTicks_at_grace ⟨hg₁, hl₁, hfiled⟩ h o.connected o.muted
        refine ⟨w, by rw [upTo, if_pos ho, observeTicks_cons, h₁, ok_bind, hw], ?_⟩
        rw [hws, hz₁, graceFiled_at hyg]
        exact hexh
      · have hconn : x.connected = true := by
          by_contra hno
          obtain ⟨-, y', hy', rfl⟩ := observeTick_eq_ok.mp h₁
          rw [chargeTo, hlast] at hy'
          simp only [hno] at hy'
          obtain rfl := pure_eq_ok.mp hy'
          rw [advance_eq] at hg₁
          rw [show x.grace = some g₁ from hg₁] at hgrace
          cases hgrace
        have hbeat : ∃ w, observeTick db terms x ⟨g₁, x.connected, x.muted⟩ = .ok w := by
          refine ⟨_, observeTick_eq_ok.mpr ⟨fun l' hl' => ?_, c, ?_, rfl⟩⟩
          · rw [hlast] at hl'
            exact Option.some.inj hl' ▸ hlg
          · simp only [chargeTo, hlast, hconn, if_true, hc]
        obtain ⟨w, hw⟩ := hbeat
        refine ⟨w, by rw [upTo, if_neg ho, observeTicks_cons, hw]; rfl, ?_⟩
        rw [heartbeat_slices hx hgrace hlast hconn hc (fun g' hg' => ?_) hw]
        · exact hexh
        · rw [hsame g' hg', hg'] at hyg
          exact Option.some.inj hyg

/-- Before grace, something was available at every connected instant. -/
theorem observeTicks_not_exhausted {x z w : TickMeter} {os : List Observation} {u T : ℤ}
    {a : Balance} (hx : Valid terms x) (hgrace : x.grace = none)
    (h : observeTicks db terms x os = .ok z) (hT : z.last = some T) (hlo : ∀ l ∈ x.last, l ≤ u)
    (hu : u < T) (hug : ∀ g, z.grace = some g → u < g)
    (hw : observeTicks db terms x (upTo x.connected x.muted os u) = .ok w)
    (hconn : w.connected = true) (ha : available db terms w.slices u = .ok a) : a.total ≠ 0 := by
  induction os generalizing x with
  | nil =>
    obtain rfl := pure_eq_ok.mp h
    have := hlo T hT
    omega
  | cons o os ih =>
    obtain ⟨z₁, h₁, h⟩ := observeTicks_cons_eq_ok.mp h
    obtain ⟨hl₁, hc₁, hm₁⟩ := observeTick_flags h₁
    have hafter : ∀ g, z₁.grace = some g → u < g := fun g hg => hug g (observeTicks_grace hg h)
    by_cases ho : o.instant ≤ u
    · have hg₁ : z₁.grace = none := by
        by_contra hne
        obtain ⟨g, hg⟩ := Option.ne_none_iff_exists'.mp hne
        obtain ⟨l, y, -, -, hgo, -⟩ := observeTick_grace_mem hx hgrace h₁ hg
        have := hafter g hg
        omega
      rw [upTo, if_pos ho, observeTicks_cons, h₁, ok_bind, ← hc₁, ← hm₁] at hw
      refine ih (observeTick_valid hx h₁) hg₁ h (fun l hl => ?_) hw
      rw [hl₁] at hl
      exact Option.some.inj hl ▸ ho
    · rw [upTo, if_neg ho, observeTicks_cons] at hw
      obtain ⟨w', hbeat, hw⟩ := bind_eq_ok.mp hw
      obtain rfl := pure_eq_ok.mp hw
      have hxc : x.connected = true := (observeTick_flags hbeat).2.1.symm.trans hconn
      cases hlast : x.last with
      | none => rw [(hx.unseen hlast).1] at hxc; cases hxc
      | some l =>
        have hlu := hlo l hlast
        obtain ⟨-, y, hy, rfl⟩ := observeTick_eq_ok.mp h₁
        simp only [chargeTo, hlast, hxc, if_true] at hy
        obtain ⟨c, hc, hsame⟩ := chargeSpan_prefix (u - l) hx.carries (by omega) (by omega) hy
        have hyu : ∀ g, y.grace = some g → u < g := fun g hg => hafter g (by rw [advance_eq]; exact hg)
        rw [heartbeat_slices hx hgrace hlast hxc hc (fun g hg => ?_) hbeat] at ha
        · exact chargeSpan_not_exhausted hx.carries hgrace hy hlu (by omega) hyu hc ha
        · have hgu := hyu g (hsame g hg ▸ hg)
          rcases (chargeSpan_charged hx.carries (by omega) hc).grace g hg with h' | h'
          · rw [hgrace] at h'
            cases h'
          · omega

/-! ### On the meters of the service -/

/-- One `observe` with both clocks in step: the caller's meter, or the error. -/
def observeAt (db : VoiceDb) (base : ℚ) (m : ConnectedMeter) (o : Observation) :
    Except QuotaError ConnectedMeter :=
  match observe db m o.connected (base + seconds o.instant) o.instant o.muted with
  | (m', .ok _) => .ok m'
  | (_, .error e) => .error e

/-- A sequence of `observe` calls that ends at the first one raised. -/
def observeAll (db : VoiceDb) (base : ℚ) (m : ConnectedMeter) (os : List Observation) :
    Except QuotaError ConnectedMeter :=
  os.foldlM (observeAt db base) m

/-- The meter as a heartbeat at `u` would leave it within a schedule. -/
def asOf (db : VoiceDb) (base : ℚ) (m : ConnectedMeter) (schedule : List Observation) (u : ℤ) :
    Except QuotaError ConnectedMeter :=
  observeAll db base m (upTo m.connected m.muted schedule u)

/-- The wall instant of the last observation. -/
def seenAt (m : ConnectedMeter) : Option ℤ := m.lastSeen.map (·.wall)

/-- A meter whose observations all had the clocks in step. -/
def OnGrid (base : ℚ) (m : ConnectedMeter) : Prop :=
  ∃ (terms : Terms) (x : TickMeter), Valid terms x ∧ m = x.meter terms base

theorem observeAt_meter (base : ℚ) (x : TickMeter) (o : Observation) :
    observeAt db base (x.meter terms base) o =
      (observeTick db terms x o).map fun y => y.meter terms base := by
  unfold observeAt observe
  rw [observeCandidate_meter]
  cases observeTick db terms x o <;> rfl

theorem observeAll_meter (base : ℚ) (x : TickMeter) (os : List Observation) :
    observeAll db base (x.meter terms base) os =
      (observeTicks db terms x os).map fun y => y.meter terms base := by
  induction os generalizing x with
  | nil => rfl
  | cons o os ih =>
    rw [observeTicks_cons, observeAll, List.foldlM_cons, observeAt_meter]
    cases observeTick db terms x o with
    | error e => rfl
    | ok z => exact ih z

theorem seenAt_meter (base : ℚ) (x : TickMeter) : seenAt (x.meter terms base) = x.last := by
  unfold seenAt
  rw [meter_lastSeen]
  cases x.last <;> rfl

/-- A new meter has its clocks in step, and observation keeps them so. -/
theorem fresh_onGrid (base : ℚ) (callId : CallId) (userId : UserId) (dailySeconds graceLimit : ℕ)
    (h : graceLimit ≤ 30) :
    OnGrid base (ConnectedMeter.fresh callId userId dailySeconds graceLimit h) :=
  ⟨⟨callId, userId, dailySeconds, graceLimit, h⟩, TickMeter.fresh, fresh_valid, by
    simp [ConnectedMeter.fresh, TickMeter.meter, TickMeter.fresh]⟩

/-- Billing does not depend on when heartbeats fire: every two insertions end with
the same meter or error. Grace begins where the user's seconds are exhausted: as of
that instant nothing remains (or the ledger has outrun the meter), and something
remains as of every earlier connected instant before the last reading. -/
theorem billing_independent_of_heartbeats {base : ℚ} {m : ConnectedMeter}
    {schedule fine fine' : List Observation} (hm : OnGrid base m)
    (hfine : Inserted (seenAt m) m.connected m.muted schedule fine)
    (hfine' : Inserted (seenAt m) m.connected m.muted schedule fine') :
    observeAll db base m fine = observeAll db base m fine' ∧
    ∀ m', observeAll db base m fine = .ok m' → m.grace = none →
      (∀ g, m'.grace = some g → g.monotonic = base + seconds g.wall ∧
        ∃ mg, asOf db base m schedule g.wall = .ok mg ∧
          (remaining db mg g.wall = .ok 0 ∨ freeOn mg.slices (shanghaiDay g.wall) <
            committedFreeOn (db.ledgerOf mg.callId) (shanghaiDay g.wall))) ∧
      (∀ u T mu, (∀ l ∈ seenAt m, l ≤ u) → seenAt m' = some T → u < T →
        (∀ g, m'.grace = some g → u < g.wall) → asOf db base m schedule u = .ok mu →
        mu.connected = true → remaining db mu u ≠ .ok 0) := by
  obtain ⟨terms, x, hx, rfl⟩ := hm
  rw [seenAt_meter] at hfine hfine' ⊢
  have hone : observeTicks db terms x fine = _ := observeTicks_inserted hx hfine
  have htwo : observeTicks db terms x fine' = _ := observeTicks_inserted hx hfine'
  refine ⟨by rw [observeAll_meter, observeAll_meter, hone, htwo], fun m' hm' hgrace => ?_⟩
  rw [meter_grace_eq_none] at hgrace
  rw [observeAll_meter, hone] at hm'
  cases hz : observeTicks db terms x schedule with
  | error e => rw [hz] at hm'; cases hm'
  | ok z =>
    rw [hz] at hm'
    obtain rfl := Except.ok.inj hm'
    have hasOf : ∀ u, asOf db base (x.meter terms base) schedule u =
        (observeTicks db terms x (upTo x.connected x.muted schedule u)).map fun y =>
          y.meter terms base := fun u => observeAll_meter base x _
    have hremaining : ∀ (y : TickMeter) u, remaining db (y.meter terms base) u =
        (available db terms y.slices u).map Balance.total := fun y u => by
      unfold remaining
      rw [availableOn_meter]
      cases available db terms y.slices u <;> rfl
    constructor
    · intro g hg
      rw [meter_grace] at hg
      obtain ⟨t, ht, rfl⟩ := Option.map_eq_some_iff.mp hg
      obtain ⟨-, w, hw, hexh⟩ := observeTicks_exhausted hx hgrace hz ht
      refine ⟨rfl, w.meter terms base, by rw [hasOf, show (reading base t).wall = t from rfl, hw]; rfl,
        ?_⟩
      rcases hexh with ⟨b, hb, htotal⟩ | hledger
      · left
        rw [hremaining, show (reading base t).wall = t from rfl, hb, ← htotal]
        rfl
      · exact .inr hledger
    · intro u T mu hlo hT hu hug hmu hconn hrem
      rw [seenAt_meter] at hT
      rw [hasOf] at hmu
      cases hw : observeTicks db terms x (upTo x.connected x.muted schedule u) with
      | error e => rw [hw] at hmu; cases hmu
      | ok w =>
        rw [hw] at hmu
        obtain rfl := Except.ok.inj hmu
        rw [hremaining] at hrem
        cases ha : available db terms w.slices u with
        | error e => rw [ha] at hrem; cases hrem
        | ok a =>
          rw [ha] at hrem
          have hzero : a.total = 0 := Except.ok.inj hrem
          refine observeTicks_not_exhausted hx hgrace hz hT hlo hu (fun g hg => ?_) hw hconn ha hzero
          exact hug (reading base g) (by rw [meter_grace, hg]; rfl)

/-- A call of ninety seconds over a midnight, muted halfway, with two heartbeats. -/
theorem billing_independent_of_heartbeats_midnight :
    observeAll ⟨[1], ∅, ∅, [], fun _ => [], ∅, [], [], ∅⟩ 5
        (ConnectedMeter.fresh 7 1 20 15 ConnectedMeter.fifteen_le)
        [⟨57570000000, true, false⟩, ⟨57589999999, true, false⟩, ⟨57600000000, true, true⟩,
          ⟨57600500000, true, true⟩, ⟨57660000000, false, false⟩] =
      observeAll ⟨[1], ∅, ∅, [], fun _ => [], ∅, [], [], ∅⟩ 5
        (ConnectedMeter.fresh 7 1 20 15 ConnectedMeter.fifteen_le)
        [⟨57570000000, true, false⟩, ⟨57600000000, true, true⟩, ⟨57660000000, false, false⟩] :=
  (billing_independent_of_heartbeats (fresh_onGrid 5 7 1 20 15 ConnectedMeter.fifteen_le)
    (.scheduled (.heartbeat (by decide) (by decide) (.scheduled
      (.heartbeat (by decide) (by decide) (.scheduled (.done _ _ _))))))
    (.scheduled (.scheduled (.scheduled (.done _ _ _))))).1

end CompanionBackend.HeartbeatPartition
