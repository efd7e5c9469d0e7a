import CompanionBackend.UsageSlices
import CompanionBackend.MeterGrid

/-!
# Charging an interval of connected time

Charging an interval of one day in two portions charges the same seconds, files
the same slice and finds the same instant of exhaustion as charging it at once;
so does charging across any number of midnights. Grace begins exactly where
nothing is available any more.
-/
namespace CompanionBackend.MeterGrid

open Runs KeyedSums ShanghaiClock VoiceModels VoiceQuota

variable {db : VoiceDb} {terms : Terms}

/-! ### One day in two portions -/

theorem unreserved_eq_ok {b a : Balance} {slices : List UsageSlice}
    {committed : List VoiceUsageLedger} {day : ℤ} :
    unreserved b slices committed day = .ok a ↔
      (0 ≤ freeOn slices day - committedFreeOn committed day ∧
        0 ≤ extraTotal slices - committedExtra committed) ∧
      a = ⟨max 0 (b.free - (freeOn slices day - committedFreeOn committed day)),
        max 0 (b.extra - (extraTotal slices - committedExtra committed))⟩ := by
  simp only [unreserved, bind_eq_ok, require_eq_ok, exists_const, pure_eq_ok]
  exact and_congr_right fun _ => eq_comm

theorem balance_congr {user : UserId} {daily s t : ℤ} {published : Bool}
    (h : shanghaiDay s = shanghaiDay t) :
    balance db user daily s published = balance db user daily t published := by
  simp only [balance, h]

theorem available_of_balance {slices : List UsageSlice} {t : ℤ} {b : Balance}
    (hb : balance db terms.userId terms.dailySeconds t false = .ok b)
    (hfree : 0 ≤ freeOn slices (shanghaiDay t) -
      committedFreeOn (db.ledgerOf terms.callId) (shanghaiDay t))
    (hextra : 0 ≤ extraTotal slices - committedExtra (db.ledgerOf terms.callId)) :
    available db terms slices t =
      .ok ⟨max 0 (b.free - (freeOn slices (shanghaiDay t) -
          committedFreeOn (db.ledgerOf terms.callId) (shanghaiDay t))),
        max 0 (b.extra - (extraTotal slices - committedExtra (db.ledgerOf terms.callId)))⟩ := by
  rw [available, hb, ok_bind]
  exact unreserved_eq_ok.mpr ⟨⟨hfree, hextra⟩, rfl⟩

theorem available_nonneg {slices : List UsageSlice} {t : ℤ} {a : Balance}
    (h : available db terms slices t = .ok a) : 0 ≤ a.free ∧ 0 ≤ a.extra := by
  obtain ⟨b, -, h⟩ := bind_eq_ok.mp h
  obtain ⟨-, rfl⟩ := unreserved_eq_ok.mp h
  exact ⟨le_max_left _ _, le_max_left _ _⟩

/-- Usage filed on a day is no longer available later on that day. -/
theorem available_append {slices : List UsageSlice} {t t' secs free extra : ℤ} {a : Balance}
    (h : available db terms slices t = .ok a) (hday : shanghaiDay t' = shanghaiDay t)
    (hzero : secs = 0 → free = 0 ∧ extra = 0) (hfree : 0 ≤ free ∧ free ≤ a.free)
    (hextra : 0 ≤ extra ∧ extra ≤ a.extra) :
    available db terms (append slices (shanghaiDay t) .connected secs free extra) t' =
      .ok ⟨a.free - free, a.extra - extra⟩ := by
  obtain ⟨b, hb, h⟩ := bind_eq_ok.mp h
  obtain ⟨⟨hf, he⟩, rfl⟩ := unreserved_eq_ok.mp h
  unfold available
  rw [balance_congr hday, hb, ok_bind, unreserved_eq_ok, hday, freeOn_append _ _ _ hzero,
    extraTotal_append _ _ _ hzero, if_pos rfl]
  simp only at hfree hextra
  refine ⟨⟨by omega, by omega⟩, ?_⟩
  simp only [Balance.mk.injEq]
  omega

/-- A carry is a fraction of a second. -/
structure Carries (x : Billing) : Prop where
  nonneg : 0 ≤ x.carry
  lt : x.carry < 1000000

theorem charge_carries {x : Billing} (b : Balance) (cursor portion : ℤ) :
    Carries (charge terms x b cursor portion) := by
  constructor
  · simp only [charge]
    split_ifs <;> omega
  · simp only [charge]
    split_ifs <;> omega

/-- Two portions of one day charge what their sum charges. -/
theorem charge_charge {x : Billing} {b : Balance} {cursor p q : ℤ} (hx : Carries x)
    (hb : available db terms x.slices cursor = .ok b) (hgrace : x.grace = none)
    (hp : 0 < p) (hq : 0 < q) (hpq : p + q ≤ nextMidnight cursor - cursor) :
    if (charge terms x b cursor p).grace = none then
      ∃ b', available db terms (charge terms x b cursor p).slices (cursor + p) = .ok b' ∧
        charge terms (charge terms x b cursor p) b' (cursor + p) q = charge terms x b cursor (p + q)
    else charge terms x b cursor (p + q) = charge terms x b cursor p := by
  obtain ⟨hfree, hextra⟩ := available_nonneg hb
  obtain ⟨hlo, hhi⟩ := hx
  have htotal : b.total = b.free + b.extra := rfl
  have hexh : exhaustion x b = max 0 (b.total * 1000000 - x.carry) := rfl
  by_cases he : exhausts terms x b cursor p
  · -- Exhausted in the first portion: the second adds nothing.
    have he' : exhausts terms x b cursor (p + q) := by
      refine ⟨?_, he.2⟩
      have := he.1
      omega
    have hwhole : min ((p + q + x.carry) / 1000000) b.total = b.total :=
      min_eq_right he'.1
    have hwhole' : min ((p + x.carry) / 1000000) b.total = b.total := min_eq_right he.1
    have hsome : (charge terms x b cursor p).grace ≠ none := by
      simp [charge, he]
    rw [if_neg hsome]
    simp only [charge, if_pos he, if_pos he', hwhole, hwhole']
  · have hnone : (charge terms x b cursor p).grace = none := by
      simp [charge, he, hgrace]
    rw [if_pos hnone]
    -- Not exhausted before midnight, so whole seconds are left after the first portion.
    have hless : (p + x.carry) / 1000000 < b.total := by
      by_contra hge
      have hreset : resets terms x b cursor := by
        by_contra hno
        exact he ⟨by omega, hno⟩
      have := hreset.2
      omega
    have hcharged : min ((p + x.carry) / 1000000) b.total = (p + x.carry) / 1000000 :=
      min_eq_left hless.le
    have hday : shanghaiDay (cursor + p) = shanghaiDay cursor :=
      shanghaiDay_eq_of_lt (by omega) (by omega)
    have hnext : nextMidnight (cursor + p) = nextMidnight cursor :=
      nextMidnight_eq_of_lt (by omega) (by omega)
    have hy : charge terms x b cursor p =
        ⟨append x.slices (shanghaiDay cursor) .connected ((p + x.carry) / 1000000)
          (min ((p + x.carry) / 1000000) b.free)
          ((p + x.carry) / 1000000 - min ((p + x.carry) / 1000000) b.free),
          (p + x.carry) % 1000000, x.grace⟩ := by
      simp only [charge, if_neg he, hcharged]
    set whole := (p + x.carry) / 1000000 with hwhole
    set carry := (p + x.carry) % 1000000 with hcarry
    have hzero : whole = 0 → min whole b.free = 0 ∧ whole - min whole b.free = 0 := by omega
    rw [hy]
    refine ⟨_, available_append hb hday hzero (by omega) (by omega), ?_⟩
    set y : Billing := ⟨append x.slices (shanghaiDay cursor) .connected whole (min whole b.free)
      (whole - min whole b.free), carry, x.grace⟩ with hydef
    set b' : Balance := ⟨b.free - min whole b.free, b.extra - (whole - min whole b.free)⟩ with hb'
    have htotal' : b'.total = b.total - whole := by
      simp only [hb', Balance.total]
      omega
    have hexh' : exhaustion y b' = exhaustion x b - p := by
      unfold exhaustion
      rw [htotal']
      simp only [hydef]
      omega
    have hreset : resets terms y b' (cursor + p) ↔ resets terms x b cursor := by
      unfold resets
      rw [hexh', hnext]
      omega
    have hwhole2 : (p + q + x.carry) / 1000000 = whole + (q + carry) / 1000000 := by omega
    have hexhausts : exhausts terms y b' (cursor + p) q ↔ exhausts terms x b cursor (p + q) := by
      unfold exhausts
      rw [hreset, htotal', hwhole2]
      refine and_congr_left fun _ => ?_
      simp only [hydef]
      omega
    have hcarry2 : (p + q + x.carry) % 1000000 = (q + carry) % 1000000 := by omega
    unfold charge
    rw [hday, htotal', hexh', hwhole2, hcarry2]
    simp only [hexhausts]
    congr 1
    · simp only [hydef, hb']
      rw [append_append _ _ _ (by omega) (by omega) hzero (by omega)]
      congr 1 <;> omega
    · simp only [hydef]
      congr 2
      omega

/-! ### Any number of days -/

theorem chargeSpan_of_grace {x : Billing} {g : ℤ} (h : x.grace = some g) (cursor left : ℤ) :
    chargeSpan db terms x cursor left = .ok x := by
  rw [chargeSpan, if_neg fun h' => by simp [h] at h']
  rfl

theorem chargeSpan_of_le {left : ℤ} (h : left ≤ 0) (x : Billing) (cursor : ℤ) :
    chargeSpan db terms x cursor left = .ok x := by
  rw [chargeSpan, if_neg fun h' => by omega]
  rfl

theorem chargeSpan_of_pos {x : Billing} {left : ℤ} (hgrace : x.grace = none) (h : 0 < left)
    (cursor : ℤ) :
    chargeSpan db terms x cursor left =
      available db terms x.slices cursor >>= fun b =>
        chargeSpan db terms (charge terms x b cursor (min left (nextMidnight cursor - cursor)))
          (cursor + min left (nextMidnight cursor - cursor))
          (left - min left (nextMidnight cursor - cursor)) := by
  rw [chargeSpan, if_pos ⟨h, hgrace⟩]

/-- Charging an interval is charging its first part and then the rest. -/
theorem chargeSpan_add {x : Billing} (hx : Carries x) (cursor : ℤ) {left more : ℤ}
    (hleft : 0 ≤ left) (hmore : 0 ≤ more) :
    chargeSpan db terms x cursor (left + more) =
      chargeSpan db terms x cursor left >>= fun y =>
        chargeSpan db terms y (cursor + left) more := by
  have hmidnight := lt_nextMidnight cursor
  cases hgrace : x.grace with
  | some g => simp [chargeSpan_of_grace hgrace]
  | none =>
    rcases hleft.eq_or_lt with rfl | hpos
    · simp [chargeSpan_of_le le_rfl]
    rcases hmore.eq_or_lt with rfl | hmorepos
    · simp only [add_zero, chargeSpan_of_le le_rfl]
      cases chargeSpan db terms x cursor left <;> rfl
    rw [chargeSpan_of_pos hgrace (by omega : 0 < left + more), chargeSpan_of_pos hgrace hpos]
    cases hb : available db terms x.slices cursor with
    | error e => rfl
    | ok b =>
      simp only [ok_bind]
      by_cases hin : left < nextMidnight cursor - cursor
      · -- The first part ends before midnight: two portions of one day.
        rw [min_eq_left hin.le, sub_self, chargeSpan_of_le le_rfl, ok_bind]
        have hnext : nextMidnight (cursor + left) = nextMidnight cursor :=
          nextMidnight_eq_of_lt (by omega) (by omega)
        set q := min more (nextMidnight cursor - cursor - left) with hq
        have hmin : min (left + more) (nextMidnight cursor - cursor) = left + q := by omega
        have hsplit := charge_charge hx hb hgrace hpos (q := q) (by omega) (by omega)
        rw [hmin]
        split_ifs at hsplit with hnone
        · obtain ⟨b', hb', hcharge⟩ := hsplit
          have hmin' : min more (nextMidnight (cursor + left) - (cursor + left)) = q := by
            rw [hnext]
            omega
          rw [chargeSpan_of_pos hnone hmorepos, hb', ok_bind, hmin', hcharge]
          congr 1 <;> omega
        · obtain ⟨g, hg⟩ := Option.ne_none_iff_exists'.mp hnone
          rw [hsplit, chargeSpan_of_grace hg, chargeSpan_of_grace hg]
      · -- The first part reaches midnight: the same first day, then the induction.
        have hmin : min left (nextMidnight cursor - cursor) = nextMidnight cursor - cursor := by
          omega
        have hmin' : min (left + more) (nextMidnight cursor - cursor) =
            nextMidnight cursor - cursor := by
          omega
        rw [hmin, hmin']
        have ih : chargeSpan db terms (charge terms x b cursor (nextMidnight cursor - cursor))
            (cursor + (nextMidnight cursor - cursor))
            (left - (nextMidnight cursor - cursor) + more) = _ :=
          chargeSpan_add (charge_carries b cursor _) _ (by omega) hmore
        rw [show left + more - (nextMidnight cursor - cursor) =
          left - (nextMidnight cursor - cursor) + more by ring, ih]
        simp only [show cursor + (nextMidnight cursor - cursor) +
          (left - (nextMidnight cursor - cursor)) = cursor + left by ring]
termination_by left.toNat
decreasing_by
  omega

/-- What charging an interval leaves: a carry, and grace within the interval. -/
structure Charged (x y : Billing) (cursor left : ℤ) : Prop where
  carries : Carries y
  grace : ∀ g, y.grace = some g → 
    x.grace = some g ∨ x.grace = none ∧ cursor ≤ g ∧ g ≤ cursor + left

theorem charge_grace {x : Billing} {b : Balance} {cursor portion g : ℤ} (hx : Carries x)
    (hgrace : x.grace = none) (hportion : 0 ≤ portion)
    (h : (charge terms x b cursor portion).grace = some g) :
    cursor ≤ g ∧ g ≤ cursor + portion := by
  have hlo := hx.nonneg
  simp only [charge] at h
  split_ifs at h with he
  · obtain rfl := Option.some.inj h
    have := he.1
    unfold exhaustion
    omega
  · rw [hgrace] at h
    cases h

theorem chargeSpan_charged {x y : Billing} {cursor left : ℤ} (hx : Carries x)
    (hleft : 0 ≤ left) (h : chargeSpan db terms x cursor left = .ok y) :
    Charged x y cursor left := by
  cases hgrace : x.grace with
  | some g =>
    rw [chargeSpan_of_grace hgrace] at h
    obtain rfl := Except.ok.inj h
    exact ⟨hx, fun g' hg' => .inl (hgrace ▸ hg')⟩
  | none =>
    rcases hleft.eq_or_lt with rfl | hpos
    · rw [chargeSpan_of_le le_rfl] at h
      obtain rfl := Except.ok.inj h
      exact ⟨hx, fun g hg => .inl hg⟩
    · have hmidnight := lt_nextMidnight cursor
      rw [chargeSpan_of_pos hgrace hpos] at h
      obtain ⟨b, -, h⟩ := bind_eq_ok.mp h
      have ih := chargeSpan_charged (charge_carries b cursor _) (by omega) h
      refine ⟨ih.carries, fun g hg => .inr ⟨hgrace, ?_⟩⟩
      rcases ih.grace g hg with hg' | hg'
      · have := charge_grace hx hgrace (by omega) hg'
        omega
      · omega
termination_by left.toNat
decreasing_by
  omega

/-! ### The instant of exhaustion -/

/-- Nothing is available at `t`, or the ledger is ahead of the meter on that day. -/
def Exhausted (db : VoiceDb) (terms : Terms) (slices : List UsageSlice) (t : ℤ) : Prop :=
  (∃ b, available db terms slices t = .ok b ∧ b.total = 0) ∨
    freeOn slices (shanghaiDay t) < committedFreeOn (db.ledgerOf terms.callId) (shanghaiDay t)

/-- Everything available on a day without a fresh allowance is gone at its midnight too. -/
theorem exhausted_midnight {slices : List UsageSlice} {t secs : ℤ} {b : Balance}
    (hb : available db terms slices t = .ok b) (hdaily : terms.dailySeconds = 0)
    (hzero : secs = 0 → b.free = 0 ∧ b.extra = 0) :
    Exhausted db terms (append slices (shanghaiDay t) .connected secs b.free b.extra)
      (nextMidnight t) := by
  obtain ⟨a, ha, hb⟩ := bind_eq_ok.mp hb
  obtain ⟨⟨hf, he⟩, hb⟩ := unreserved_eq_ok.mp hb
  have hbextra : b.extra = max 0 (a.extra - (extraTotal slices -
      committedExtra (db.ledgerOf terms.callId))) := by rw [hb]
  -- The balance of the next day has the same extra seconds and no free ones.
  have hnext : balance db terms.userId terms.dailySeconds (nextMidnight t) false =
      .ok ⟨0, a.extra⟩ := by
    unfold balance at ha ⊢
    rw [hdaily] at ha ⊢
    obtain ⟨_, _, ha⟩ := bind_eq_ok.mp ha
    rw [require_of_pos (by simp), ok_bind]
    cases hacc : db.account terms.userId with
    | none =>
      simp only [hacc] at ha
      obtain rfl := pure_eq_ok.mp ha
      rfl
    | some account =>
      simp only [hacc, Bool.false_and] at ha ⊢
      obtain ⟨_, hclock, ha⟩ := bind_eq_ok.mp ha
      have hdate := require_eq_ok.mp hclock
      obtain rfl := pure_eq_ok.mp ha
      have hne : account.freeQuotaDate ≠ shanghaiDay t + 1 := by omega
      rw [shanghaiDay_nextMidnight, require_of_pos (by omega), ok_bind]
      simp [hne, pure, Except.pure]
  refine or_iff_not_imp_right.mpr fun hledger => ?_
  have hextra := extraTotal_append slices (shanghaiDay t) .connected hzero
  refine ⟨_, available_of_balance hnext (by omega) (by rw [hextra]; omega), ?_⟩
  rw [hextra]
  simp only [Balance.total]
  omega

/-- Grace begins where nothing is available any more. -/
theorem chargeSpan_exhausted {x y w : Billing} {cursor left g : ℤ} (hx : Carries x)
    (hgrace : x.grace = none) (hy : chargeSpan db terms x cursor left = .ok y)
    (hg : y.grace = some g) (hw : chargeSpan db terms x cursor (g - cursor) = .ok w) :
    Exhausted db terms w.slices g := by
  have hmidnight := lt_nextMidnight cursor
  by_cases hpos : 0 < left
  swap
  · rw [chargeSpan_of_le (by omega)] at hy
    obtain rfl := Except.ok.inj hy
    rw [hgrace] at hg
    cases hg
  rw [chargeSpan_of_pos hgrace hpos] at hy
  obtain ⟨b, hb, hy⟩ := bind_eq_ok.mp hy
  obtain ⟨hfree, hextra⟩ := available_nonneg hb
  have htotal : b.total = b.free + b.extra := rfl
  have hexh : exhaustion x b = max 0 (b.total * 1000000 - x.carry) := rfl
  obtain ⟨hlo, hhi⟩ := hx
  set p := min left (nextMidnight cursor - cursor) with hp
  by_cases he : exhausts terms x b cursor p
  · have hsome : (charge terms x b cursor p).grace = some (cursor + exhaustion x b) := by
      simp [charge, he]
    rw [chargeSpan_of_grace hsome] at hy
    obtain rfl := Except.ok.inj hy
    obtain rfl : cursor + exhaustion x b = g := Option.some.inj (hsome.symm.trans hg)
    have hep : exhaustion x b ≤ p := by have := he.1; omega
    rw [add_sub_cancel_left] at hw
    by_cases hnow : exhaustion x b = 0
    · rw [chargeSpan_of_le hnow.le] at hw
      obtain rfl := Except.ok.inj hw
      refine .inl ⟨b, ?_, by omega⟩
      rw [hnow, add_zero, hb]
    · -- The seconds charged up to the instant are all that was available.
      have hportion : min (exhaustion x b) (nextMidnight cursor - cursor) = exhaustion x b := by
        omega
      have he' : exhausts terms x b cursor (exhaustion x b) := ⟨by omega, he.2⟩
      have hcharge : charge terms x b cursor (exhaustion x b) =
          ⟨append x.slices (shanghaiDay cursor) .connected b.total b.free b.extra, 0,
            some (cursor + exhaustion x b)⟩ := by
        simp only [charge, if_pos he']
        congr 1
        congr 1 <;> omega
      rw [chargeSpan_of_pos hgrace (by omega), hb, ok_bind, hportion, hcharge,
        chargeSpan_of_grace rfl] at hw
      obtain rfl := Except.ok.inj hw
      by_cases hin : cursor + exhaustion x b < nextMidnight cursor
      · refine .inl ⟨_, available_append hb (shanghaiDay_eq_of_lt (by omega) hin) (by omega)
          ⟨hfree, le_rfl⟩ ⟨hextra, le_rfl⟩, ?_⟩
        simp [Balance.total]
      · have heq : cursor + exhaustion x b = nextMidnight cursor := by omega
        have hdaily : terms.dailySeconds = 0 := by
          by_contra hne
          exact he.2 ⟨by omega, by omega⟩
        rw [heq]
        exact exhausted_midnight hb hdaily (by omega)
  · have hnone : (charge terms x b cursor p).grace = none := by
      simp [charge, he, hgrace]
    have hrest : left - p ≠ 0 := fun h => by
      rw [chargeSpan_of_le h.le] at hy
      obtain rfl := Except.ok.inj hy
      rw [hnone] at hg
      cases hg
    have hpeq : p = nextMidnight cursor - cursor := by omega
    have hbound := (chargeSpan_charged (charge_carries b cursor p) (by omega) hy).grace g hg
    have hge : cursor + p ≤ g := by
      rcases hbound with h | h
      · rw [hnone] at h
        cases h
      · exact h.2.1
    have hportion : min (g - cursor) (nextMidnight cursor - cursor) = p := by omega
    rw [chargeSpan_of_pos hgrace (by omega), hb, ok_bind, hportion] at hw
    refine chargeSpan_exhausted (charge_carries b cursor p) hnone hy hg ?_
    rw [← hw]
    congr 1
    omega
termination_by left.toNat
decreasing_by
  omega

/-- Before grace begins something is available at every charged instant. -/
theorem chargeSpan_not_exhausted {x y w : Billing} {cursor left u : ℤ} {a : Balance}
    (hx : Carries x) (hgrace : x.grace = none) (hy : chargeSpan db terms x cursor left = .ok y)
    (hlo : cursor ≤ u) (hhi : u < cursor + left) (hu : ∀ g, y.grace = some g → u < g)
    (hw : chargeSpan db terms x cursor (u - cursor) = .ok w)
    (ha : available db terms w.slices u = .ok a) : a.total ≠ 0 := by
  have hmidnight := lt_nextMidnight cursor
  rw [chargeSpan_of_pos hgrace (by omega)] at hy
  obtain ⟨b, hb, hy⟩ := bind_eq_ok.mp hy
  obtain ⟨hfree, hextra⟩ := available_nonneg hb
  have htotal : b.total = b.free + b.extra := rfl
  have hexh : exhaustion x b = max 0 (b.total * 1000000 - x.carry) := rfl
  obtain ⟨hclo, hchi⟩ := hx
  set p := min left (nextMidnight cursor - cursor) with hp
  have hnot : ∀ q, q ≤ p → q ≤ u - cursor → ¬ exhausts terms x b cursor q := fun q hqp hqu he => by
    have he' : exhausts terms x b cursor p := ⟨by have := he.1; omega, he.2⟩
    have hsome : (charge terms x b cursor p).grace = some (cursor + exhaustion x b) := by
      simp [charge, he']
    rw [chargeSpan_of_grace hsome] at hy
    obtain rfl := Except.ok.inj hy
    have := hu _ hsome
    have := he.1
    omega
  by_cases hin : u - cursor < p
  · set whole := (u - cursor + x.carry) / 1000000 with hwhole
    have hless : whole < b.total := by
      by_contra hge
      have hreset : resets terms x b cursor := by
        by_contra hno
        exact hnot (u - cursor) hin.le le_rfl ⟨by omega, hno⟩
      have := hreset.2
      omega
    rcases hlo.eq_or_lt with rfl | hlt
    · rw [sub_self, chargeSpan_of_le le_rfl] at hw
      obtain rfl := Except.ok.inj hw
      obtain rfl := Except.ok.inj (hb.symm.trans ha)
      omega
    · have hportion : min (u - cursor) (nextMidnight cursor - cursor) = u - cursor := by omega
      have hslices : (charge terms x b cursor (u - cursor)).slices =
          append x.slices (shanghaiDay cursor) .connected whole (min whole b.free)
            (whole - min whole b.free) := by
        simp only [charge, ← hwhole, min_eq_left hless.le]
      rw [chargeSpan_of_pos hgrace (by omega), hb, ok_bind, hportion, sub_self,
        chargeSpan_of_le le_rfl] at hw
      obtain rfl := Except.ok.inj hw
      have hleft : available db terms (append x.slices (shanghaiDay cursor) .connected whole
          (min whole b.free) (whole - min whole b.free)) u = _ :=
        available_append hb (shanghaiDay_eq_of_lt hlo (by omega)) (by omega) (by omega) (by omega)
      rw [hslices] at ha
      obtain rfl := Except.ok.inj (hleft.symm.trans ha)
      simp only [Balance.total]
      omega
  · have hnone : (charge terms x b cursor p).grace = none := by
      simp [charge, hnot p le_rfl (by omega), hgrace]
    have hportion : min (u - cursor) (nextMidnight cursor - cursor) = p := by omega
    rw [chargeSpan_of_pos hgrace (by omega), hb, ok_bind, hportion] at hw
    refine chargeSpan_not_exhausted (charge_carries b cursor p) hnone hy (by omega) (by omega) hu ?_ ha
    rw [← hw]
    congr 1
    omega
termination_by left.toNat
decreasing_by
  omega

end CompanionBackend.MeterGrid
