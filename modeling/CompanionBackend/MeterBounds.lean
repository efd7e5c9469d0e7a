import CompanionBackend.QuotaConservation
import CompanionBackend.HeartbeatPartition

/-!
# Observation stays within the account

The allowances in force when a call opens bound everything its meter ever files.
`Books` relates the current account and ledger to those allowances, `Within`
bounds the slices by them. Charging reads only what is left, so both survive
every observation.
-/
namespace CompanionBackend.MeterBounds

open Runs KeyedSums ShanghaiClock VoiceModels VoiceQuota MeterGrid HeartbeatPartition
  QuotaConservation

/-- Free seconds an account allows on a day: its balance on its own date. -/
def dayLimit (account : Option VoiceQuotaAccount) (dailySeconds : ℕ) (day : ℤ) : ℤ :=
  match account with
  | some a => if day = a.freeQuotaDate then a.freeRemainingSeconds else dailySeconds
  | none => dailySeconds

def extraOf (account : Option VoiceQuotaAccount) : ℤ :=
  (account.map (·.extraRemainingSeconds)).getD 0

/-- The shape of connected usage: every second is free or extra. -/
def Charges (s : UsageSlice) : Prop :=
  s.usageType = .connected ∧ s.durationSeconds = s.freeSecondsUsed + s.extraSecondsUsed ∧
    0 ≤ s.freeSecondsUsed ∧ 0 ≤ s.extraSecondsUsed

/-- The shape of closing grace, which is free of charge. -/
def Graces (s : UsageSlice) : Prop :=
  s.usageType = .grace ∧ s.freeSecondsUsed = 0 ∧ s.extraSecondsUsed = 0

/-- The account and the ledger of a call, compared with the account at its opening. -/
structure Books (db : VoiceDb) (terms : Terms) (opening : Option VoiceQuotaAccount)
    (granted : ℤ) : Prop where
  rows : ∃ usage, (db.ledgerOf terms.callId).mapM asUsage = .ok usage ∧
    ∀ s ∈ usage, Charges s ∨ Graces s
  limit : ∀ day, (∀ a ∈ db.account terms.userId, a.freeQuotaDate ≤ day) →
    dayLimit (db.account terms.userId) terms.dailySeconds day =
      dayLimit opening terms.dailySeconds day - committedFreeOn (db.ledgerOf terms.callId) day
  extra : extraOf (db.account terms.userId) =
    extraOf opening + granted - committedExtra (db.ledgerOf terms.callId)

/-- Slices of days up to `day` that stay within the allowances and cover the ledger. -/
structure Within (db : VoiceDb) (terms : Terms) (opening : Option VoiceQuotaAccount)
    (granted : ℤ) (slices : List UsageSlice) (day : ℤ) : Prop where
  shape : ∀ s ∈ slices, (Charges s ∨ Graces s) ∧ 0 < s.durationSeconds ∧ s.quotaDate ≤ day
  ordered : (slices.map (·.usageType)).Pairwise fun k l => k = .grace → l = .grace
  free_le : ∀ d, freeOn slices d ≤ dayLimit opening terms.dailySeconds d
  extra_le : extraTotal slices ≤ extraOf opening + granted
  covers : ∀ k, (rowTotals (db.ledgerOf terms.callId) k).duration ≤ (totalsAt slices k).duration ∧
    (rowTotals (db.ledgerOf terms.callId) k).free ≤ (totalsAt slices k).free ∧
    (rowTotals (db.ledgerOf terms.callId) k).extra ≤ (totalsAt slices k).extra
  past : ∀ a ∈ db.account terms.userId, ∀ d < a.freeQuotaDate,
    freeOn slices d = committedFreeOn (db.ledgerOf terms.callId) d
  empty : slices = [] → db.ledgerOf terms.callId = []
  clock : slices ≠ [] → ∀ a ∈ db.account terms.userId, a.freeQuotaDate ≤ day

variable {db : VoiceDb} {terms : Terms} {opening : Option VoiceQuotaAccount} {granted : ℤ}
  {slices : List UsageSlice} {day : ℤ}

namespace Within

theorem mono (h : Within db terms opening granted slices day) {day' : ℤ} (hle : day ≤ day') :
    Within db terms opening granted slices day' :=
  { h with
    shape := fun s hs => ⟨(h.shape s hs).1, (h.shape s hs).2.1, (h.shape s hs).2.2.trans hle⟩
    clock := fun hne a ha => (h.clock hne a ha).trans hle }

end Within

theorem append_ne_nil {kind : UsageType} {secs free extra : ℤ} (hsecs : secs ≠ 0) :
    append slices day kind secs free extra ≠ [] := by
  obtain ⟨init, row, -, happend, -⟩ := append_spec slices day kind
  simp [happend _ _ _ hsecs]

/-- Filing usage within what the allowances leave keeps the slices within them. -/
theorem Within.append {filed : ℤ} {kind : UsageType} {secs free extra : ℤ}
    (h : Within db terms opening granted slices day) (hday : filed ≤ day)
    (hsecs : 0 ≤ secs) (hfree : 0 ≤ free) (hextra : 0 ≤ extra)
    (hkind : kind = .connected ∧ secs = free + extra ∧ (∀ s ∈ slices, s.usageType = .connected) ∨
      kind = .grace ∧ free = 0 ∧ extra = 0)
    (hlimit : freeOn slices filed + free ≤ dayLimit opening terms.dailySeconds filed)
    (hpool : extraTotal slices + extra ≤ extraOf opening + granted)
    (hpast : free = 0 ∨ ∀ a ∈ db.account terms.userId, a.freeQuotaDate ≤ filed)
    (hclock : ∀ a ∈ db.account terms.userId, a.freeQuotaDate ≤ day) :
    Within db terms opening granted (append slices filed kind secs free extra) day := by
  have hzero : secs = 0 → free = 0 ∧ extra = 0 := by
    rcases hkind with ⟨-, hsum, -⟩ | ⟨-, hf, he⟩ <;> omega
  refine ⟨?_, ?_, ?_, ?_, ?_, ?_, ?_, fun _ => hclock⟩
  · refine append_forall h.shape (fun hne => ⟨?_, by simp only; omega, hday⟩) fun row hrow hkey => ?_
    · rcases hkind with ⟨rfl, hsum, -⟩ | ⟨rfl, hf, he⟩
      · exact .inl ⟨rfl, hsum, hfree, hextra⟩
      · exact .inr ⟨rfl, hf, he⟩
    · obtain ⟨hshape, hpos, hdate⟩ := h.shape row hrow
      refine ⟨?_, by simp only [UsageSlice.extend]; omega, hdate⟩
      obtain ⟨-, hrowkind⟩ := Prod.mk.inj hkey
      rcases hkind with ⟨rfl, hsum, -⟩ | ⟨rfl, rfl, rfl⟩
      · rcases hshape with ⟨hc, hs, hf, he⟩ | ⟨hg, -⟩
        · exact .inl ⟨hc, by simp only [UsageSlice.extend]; omega,
            by simp only [UsageSlice.extend]; omega, by simp only [UsageSlice.extend]; omega⟩
        · rw [hg] at hrowkind
          cases hrowkind
      · rcases hshape with ⟨hc, -⟩ | ⟨hg, hf, he⟩
        · rw [hc] at hrowkind
          cases hrowkind
        · exact .inr ⟨hg, by simp only [UsageSlice.extend]; omega,
            by simp only [UsageSlice.extend]; omega⟩
  · rcases append_types slices filed kind secs free extra with heq | heq
    · rw [heq]
      exact h.ordered
    · rw [heq, List.pairwise_append]
      refine ⟨h.ordered, List.pairwise_singleton _ _, fun k hk l hl hgrace => ?_⟩
      obtain rfl := List.mem_singleton.mp hl
      rcases hkind with ⟨-, -, hall⟩ | ⟨rfl, -⟩
      · obtain ⟨s, hs, rfl⟩ := List.mem_map.mp hk
        rw [hall s hs] at hgrace
        cases hgrace
      · rfl
  · intro d
    rw [freeOn_append _ _ _ hzero]
    split_ifs with hd
    · subst hd
      exact hlimit
    · simpa using h.free_le d
  · rw [extraTotal_append _ _ _ hzero]
    exact hpool
  · intro k
    obtain ⟨hd, hf, he⟩ := h.covers k
    rw [totalsAt_append _ _ _ hzero]
    simp only
    split_ifs <;> omega
  · intro a ha d hd
    have hsame : (if d = filed then free else 0) = 0 := by
      rcases hpast with h0 | hle
      · simp [h0]
      · have := hle a ha
        rw [if_neg (by omega)]
    rw [freeOn_append _ _ _ hzero, hsame, add_zero]
    exact h.past a ha d hd
  · intro hnil
    by_cases hne : secs = 0
    · subst hne
      rw [append_zero] at hnil
      exact h.empty hnil
    · exact absurd hnil (append_ne_nil hne)

/-! ### What charging may use -/

theorem balance_spec {user : UserId} {dailySeconds : ℕ} {t : ℤ} {b : Balance}
    (h : balance db user dailySeconds t false = .ok b) :
    (∀ a ∈ db.account user, a.freeQuotaDate ≤ shanghaiDay t) ∧
      b.free = dayLimit (db.account user) dailySeconds (shanghaiDay t) ∧
      b.extra = extraOf (db.account user) := by
  obtain ⟨_, _, h⟩ := bind_eq_ok.mp h
  cases hacc : db.account user with
  | none =>
    simp only [hacc] at h
    obtain rfl := pure_eq_ok.mp h
    exact ⟨by simp, rfl, rfl⟩
  | some a =>
    simp only [hacc, Bool.false_and] at h
    obtain ⟨_, hclock, h⟩ := bind_eq_ok.mp h
    obtain rfl := pure_eq_ok.mp h
    refine ⟨fun a' ha' => Option.some.inj ha' ▸ require_eq_ok.mp hclock, ?_, rfl⟩
    simp [dayLimit, eq_comm]

/-- What is available is exactly what the allowances leave beyond the slices. -/
theorem available_spec (hbooks : Books db terms opening granted)
    (hwithin : Within db terms opening granted slices day) {t : ℤ} {b : Balance}
    (h : available db terms slices t = .ok b) :
    (∀ a ∈ db.account terms.userId, a.freeQuotaDate ≤ shanghaiDay t) ∧
      b.free = dayLimit opening terms.dailySeconds (shanghaiDay t) - freeOn slices (shanghaiDay t) ∧
      b.extra = extraOf opening + granted - extraTotal slices := by
  obtain ⟨a, ha, h⟩ := bind_eq_ok.mp h
  obtain ⟨-, hb⟩ := unreserved_eq_ok.mp h
  obtain ⟨hclock, hfree, hextra⟩ := balance_spec ha
  have hlimit := hbooks.limit _ hclock
  have hpool := hbooks.extra
  have hle := hwithin.free_le (shanghaiDay t)
  have hele := hwithin.extra_le
  refine ⟨hclock, ?_, ?_⟩
  · rw [hb]
    simp only
    omega
  · rw [hb]
    simp only
    omega

/-- All usage so far is connected time. -/
def Ungraced (x : Billing) : Prop := ∀ s ∈ x.slices, s.usageType = .connected

theorem charge_ungraced {x : Billing} (hx : Ungraced x) (b : Balance) (cursor portion : ℤ) :
    Ungraced (charge terms x b cursor portion) :=
  append_forall hx (fun _ => rfl) fun row hrow _ => hx row hrow

theorem charge_within {x : Billing} {b : Balance} {cursor portion : ℤ}
    (hbooks : Books db terms opening granted)
    (hwithin : Within db terms opening granted x.slices day) (hday : day ≤ shanghaiDay cursor)
    (hx : Carries x) (hconn : Ungraced x) (hportion : 0 ≤ portion)
    (hb : available db terms x.slices cursor = .ok b) :
    Within db terms opening granted (charge terms x b cursor portion).slices
      (shanghaiDay cursor) := by
  obtain ⟨hclock, hfree, hextra⟩ := available_spec hbooks hwithin hb
  obtain ⟨hf, he⟩ := available_nonneg hb
  have htotal : b.total = b.free + b.extra := rfl
  have hlo := hx.nonneg
  exact (hwithin.mono hday).append le_rfl (by omega) (by omega) (by omega)
    (.inl ⟨rfl, by omega, hconn⟩) (by omega) (by omega) (.inr hclock) hclock

/-- Charging an interval stays within the allowances up to the day it ends in. -/
theorem chargeSpan_within {x y : Billing} {cursor left : ℤ}
    (hbooks : Books db terms opening granted)
    (hwithin : Within db terms opening granted x.slices (shanghaiDay cursor))
    (hx : Carries x) (hconn : x.grace = none → Ungraced x) (hleft : 0 ≤ left)
    (hy : chargeSpan db terms x cursor left = .ok y) :
    Within db terms opening granted y.slices (shanghaiDay (cursor + left)) ∧
      (x.grace = none → Ungraced y ∧
        (y.grace ≠ none → ∀ a ∈ db.account terms.userId, a.freeQuotaDate ≤ shanghaiDay cursor)) := by
  cases hgrace : x.grace with
  | some g =>
    rw [chargeSpan_of_grace hgrace] at hy
    obtain rfl := Except.ok.inj hy
    exact ⟨hwithin.mono (shanghaiDay_mono (by omega)), fun h => nomatch h⟩
  | none =>
    rcases hleft.eq_or_lt with rfl | hpos
    · rw [chargeSpan_of_le le_rfl] at hy
      obtain rfl := Except.ok.inj hy
      exact ⟨by simpa using hwithin, fun _ => ⟨hconn hgrace, fun h => absurd hgrace h⟩⟩
    · have hmidnight := lt_nextMidnight cursor
      rw [chargeSpan_of_pos hgrace hpos] at hy
      obtain ⟨b, hb, hy⟩ := bind_eq_ok.mp hy
      have hclock := (available_spec hbooks hwithin hb).1
      set p := min left (nextMidnight cursor - cursor) with hp
      have hcharge : Within db terms opening granted (charge terms x b cursor p).slices
          (shanghaiDay cursor) :=
        charge_within hbooks hwithin le_rfl hx (hconn hgrace) (by omega) hb
      have hung : Ungraced (charge terms x b cursor p) :=
        charge_ungraced (hconn hgrace) b cursor p
      cases hg : (charge terms x b cursor p).grace with
      | some g =>
        rw [chargeSpan_of_grace hg] at hy
        obtain rfl := Except.ok.inj hy
        exact ⟨hcharge.mono (shanghaiDay_mono (by omega)), fun _ => ⟨hung, fun _ => hclock⟩⟩
      | none =>
        have ih := chargeSpan_within hbooks (hcharge.mono (shanghaiDay_mono (by omega)))
          (charge_carries b cursor p) (fun _ => hung) (by omega) hy
        rw [show cursor + p + (left - p) = cursor + left by ring] at ih
        exact ⟨ih.1, fun _ => ⟨(ih.2 hg).1, fun _ => hclock⟩⟩
termination_by left.toNat
decreasing_by
  omega

/-! ### One observation -/

/-- What a meter and its account keep over the whole call. -/
structure Sound (db : VoiceDb) (terms : Terms) (opening : Option VoiceQuotaAccount)
    (granted : ℤ) (x : TickMeter) : Prop where
  valid : Valid terms x
  unseen : x.last = none → x.slices = []
  within : ∀ day, (∀ l ∈ x.last, shanghaiDay l ≤ day) →
    Within db terms opening granted x.slices day
  ungraced : x.grace = none → Ungraced x.toBilling
  clock : x.grace ≠ none → ∀ l, x.last = some l →
    ∀ a ∈ db.account terms.userId, a.freeQuotaDate ≤ shanghaiDay l
  filed : billed .grace x.slices = x.graceSeconds
  nonneg : 0 ≤ x.graceSeconds
  limit : x.graceSeconds ≤ terms.graceLimit

/-- Whole seconds of grace passed at `t` end no later than `t`. -/
theorem graceAt_le {g t : ℤ} (h : 0 < graceAt terms g t) :
    g + graceAt terms g t * 1000000 ≤ t := by
  unfold graceAt at *
  omega

theorem graceFiled_within {y : Billing} {filed t : ℤ}
    (hwithin : Within db terms opening granted y.slices (shanghaiDay t))
    (hclock : y.grace ≠ none → ∀ a ∈ db.account terms.userId, a.freeQuotaDate ≤ shanghaiDay t)
    (hnonneg : 0 ≤ filed) (hfiled : ∀ g, y.grace = some g → filed ≤ graceAt terms g t) :
    Within db terms opening granted (graceFiled terms filed y t) (shanghaiDay t) := by
  unfold graceFiled
  cases hg : y.grace with
  | none => exact hwithin
  | some g =>
    have hle := hfiled g hg
    refine fileGrace_induct (P := fun slices =>
      Within db terms opening granted slices (shanghaiDay t)) _ _ (by omega)
      (fun slices c secs hs hsecs hc hend => ?_) hwithin
    -- The second begins before the whole grace seconds passed at `t` end.
    have hpassed : g + graceAt terms g t * 1000000 ≤ t := graceAt_le (by omega)
    refine hs.append (shanghaiDay_mono (by omega)) hsecs.le le_rfl le_rfl (.inr ⟨rfl, rfl, rfl⟩)
      ?_ ?_ (.inl rfl) (hclock (by simp [hg]))
    · simpa using hs.free_le _
    · simpa using hs.extra_le

theorem billed_grace_of_ungraced {x : Billing} (h : Ungraced x) : billed .grace x.slices = 0 :=
  sumWhere_eq_zero fun s hs hgrace => by
    rw [h s hs] at hgrace
    cases of_decide_eq_true hgrace

/-- What charging up to `t` leaves of a sound meter. -/
theorem chargeTo_sound {x : TickMeter} {y : Billing} {t : ℤ}
    (hbooks : Books db terms opening granted) (hx : Sound db terms opening granted x)
    (hle : ∀ l ∈ x.last, l ≤ t) (hy : chargeTo db terms x t = .ok y) :
    Within db terms opening granted y.slices (shanghaiDay t) ∧
      (y.grace = none → Ungraced y) ∧
      (y.grace ≠ none → ∀ a ∈ db.account terms.userId, a.freeQuotaDate ≤ shanghaiDay t) ∧
      billed .grace y.slices = x.graceSeconds ∧ (y.grace = none → x.graceSeconds = 0) ∧
      ∀ g, y.grace = some g → x.graceSeconds ≤ graceAt terms g t := by
  cases hgrace : x.grace with
  | some g =>
    -- Nothing is charged any more.
    rw [chargeTo_of_grace hgrace] at hy
    obtain rfl := Except.ok.inj hy
    cases hlast : x.last with
    | none =>
      rw [(hx.valid.unseen hlast).2] at hgrace
      cases hgrace
    | some l =>
      have hlt := shanghaiDay_mono (hle l hlast)
      refine ⟨hx.within _ fun l' hl' => ?_, fun h => ?_, fun hne a ha => ?_, hx.filed, fun h => ?_,
        fun g' hg' => ?_⟩
      · rw [hlast] at hl'
        exact Option.some.inj hl' ▸ hlt
      · rw [hgrace] at h
        cases h
      · exact (hx.clock hne l hlast a ha).trans hlt
      · rw [hgrace] at h
        cases h
      · exact (hx.valid.started g' hg' l hlast).trans (graceAt_mono (hle l hlast))
  | none =>
    have hzero := hx.valid.unstarted hgrace
    have hmain : Within db terms opening granted y.slices (shanghaiDay t) ∧ Ungraced y ∧
        (y.grace ≠ none → ∀ a ∈ db.account terms.userId, a.freeQuotaDate ≤ shanghaiDay t) := by
      have hsame : Within db terms opening granted x.slices (shanghaiDay t) ∧
          Ungraced x.toBilling ∧ (x.grace ≠ none →
            ∀ a ∈ db.account terms.userId, a.freeQuotaDate ≤ shanghaiDay t) :=
        ⟨hx.within _ fun l hl => shanghaiDay_mono (hle l hl), hx.ungraced hgrace,
          fun h => absurd hgrace h⟩
      unfold chargeTo at hy
      cases hlast : x.last with
      | none =>
        rw [hlast] at hy
        obtain rfl := pure_eq_ok.mp hy
        exact hsame
      | some l =>
        rw [hlast] at hy
        simp only at hy
        have hlt := hle l hlast
        split_ifs at hy
        · have hspan := chargeSpan_within hbooks (hx.within (shanghaiDay l) fun l' hl' => by
              rw [hlast] at hl'
              exact Option.some.inj hl' ▸ le_rfl) hx.valid.carries hx.ungraced (by omega) hy
          rw [show l + (t - l) = t by ring] at hspan
          obtain ⟨hwithin, hrest⟩ := hspan
          obtain ⟨hung, hclock⟩ := hrest hgrace
          exact ⟨hwithin, hung, fun hne a ha => (hclock hne a ha).trans (shanghaiDay_mono hlt)⟩
        · obtain rfl := pure_eq_ok.mp hy
          exact hsame
    obtain ⟨hwithin, hung, hclock⟩ := hmain
    refine ⟨hwithin, fun _ => hung, hclock, ?_, fun _ => hzero, fun g _ => ?_⟩
    · rw [billed_grace_of_ungraced hung, hzero]
    · rw [hzero]
      exact graceAt_nonneg g t

theorem observeTick_sound {x z : TickMeter} {o : Observation}
    (hbooks : Books db terms opening granted) (hx : Sound db terms opening granted x)
    (h : observeTick db terms x o = .ok z) : Sound db terms opening granted z := by
  have hvalid := observeTick_valid hx.valid h
  obtain ⟨hle, y, hy, rfl⟩ := observeTick_eq_ok.mp h
  obtain ⟨hwithin, hung, hclock, hfiled, hzero, hpassed⟩ := chargeTo_sound hbooks hx hle hy
  have hgraced := graceFiled_within hwithin hclock hx.nonneg hpassed
  rw [advance_eq] at hvalid ⊢
  refine ⟨hvalid, (fun h => nomatch h), fun d hd => hgraced.mono (hd _ rfl), ?_, ?_, ?_, ?_, ?_⟩
  · intro hnone
    have hyn : y.grace = none := hnone
    simp only [graceFiled, hyn]
    exact hung hyn
  · intro hne l hl a ha
    obtain rfl := Option.some.inj hl
    exact hclock hne a ha
  · cases hg : y.grace with
    | none => simp [graceFiled, graceTotal, hg, hfiled]
    | some g =>
      have := hpassed g hg
      simp only [graceFiled, graceTotal, hg, Option.elim]
      rw [billed_fileGrace _ _ _ (by omega), hfiled]
      omega
  · cases hg : y.grace with
    | none => simpa [graceTotal] using hx.nonneg
    | some g => simpa [graceTotal] using graceAt_nonneg g o.instant
  · cases hg : y.grace with
    | none => simpa [graceTotal] using hx.limit
    | some g =>
      simp only [graceTotal, Option.elim, graceAt]
      omega

end CompanionBackend.MeterBounds
