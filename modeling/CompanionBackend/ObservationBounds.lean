import CompanionBackend.MeterBounds

/-!
# A sound meter can always be settled

The limits that settlement checks are the allowances that observation reserved
from, so a meter kept within them is never refused. Runs interleave observations,
settlements of the same meter and grants to its user.
-/
namespace CompanionBackend.MeterBounds

open Runs KeyedSums ShanghaiClock VoiceModels VoiceQuota MeterGrid HeartbeatPartition
  QuotaConservation

variable {db : VoiceDb} {terms : Terms} {opening : Option VoiceQuotaAccount} {granted : ℤ}

/-! ### Differences between a sound meter and its ledger -/

section Deltas

variable {slices usage : List UsageSlice} {ds : List (UsageKey × Totals)}

/-- Usage of a shape has totals of that shape. -/
theorem totalsAt_shape (h : ∀ s ∈ slices, Charges s ∨ Graces s) (k : UsageKey) :
    (k.2 = .connected → (totalsAt slices k).duration =
      (totalsAt slices k).free + (totalsAt slices k).extra) ∧
    (k.2 = .grace → (totalsAt slices k).free = 0 ∧ (totalsAt slices k).extra = 0) := by
  constructor
  · intro hk
    simp only [totalsAt, sumAt]
    rw [← sumWhere_add]
    refine sumWhere_congr (fun _ _ => rfl) fun s hs hkey => ?_
    have hkind : s.usageType = .connected := by
      rw [← hk, ← of_decide_eq_true hkey]
      rfl
    rcases h s hs with hc | hg
    · exact hc.2.1
    · rw [hg.1] at hkind
      cases hkind
  · intro hk
    have hall : ∀ s ∈ slices, decide (s.key = k) = true →
        s.freeSecondsUsed = 0 ∧ s.extraSecondsUsed = 0 := fun s hs hkey => by
      have hkind : s.usageType = .grace := by
        rw [← hk, ← of_decide_eq_true hkey]
        rfl
      rcases h s hs with hc | hg
      · rw [hc.1] at hkind
        cases hkind
      · exact hg.2
    exact ⟨sumWhere_eq_zero fun s hs hkey => (hall s hs hkey).1,
      sumWhere_eq_zero fun s hs hkey => (hall s hs hkey).2⟩

theorem key_shape (h : ∀ s ∈ slices, Charges s ∨ Graces s) {k : UsageKey}
    (hk : k ∈ slices.map UsageSlice.key) : k.2 = .connected ∨ k.2 = .grace := by
  obtain ⟨s, hs, rfl⟩ := List.mem_map.mp hk
  exact (h s hs).imp (·.1) (·.1)

/-- Differences of shaped usage pass the check behind `usage_slice_invalid`. -/
theorem validDelta_of_shape (hslices : ∀ s ∈ slices, Charges s ∨ Graces s)
    (husage : ∀ s ∈ usage, Charges s ∨ Graces s) (hds : usageDeltas slices usage = .ok ds)
    {d : UsageKey × Totals} (hd : d ∈ ds) : validDelta d := by
  obtain ⟨hkey, hdelta, hdur, -, -⟩ := mem_usageDeltas hds hd
  obtain ⟨hconn, hgrace⟩ := totalsAt_shape hslices d.1
  obtain ⟨hconn', hgrace'⟩ := totalsAt_shape husage d.1
  refine ⟨hdur, ?_⟩
  rw [hdelta]
  have hkind : d.1.2 = .connected ∨ d.1.2 = .grace := by
    rcases mem_usageKeys.mp hkey with h | h
    · exact key_shape hslices h
    · exact key_shape husage h
  rcases hkind with h | h
  · have h1 := hconn h
    have h2 := hconn' h
    refine .inl ⟨h, ?_⟩
    simp only [deltaAt]
    omega
  · obtain ⟨h1, h2⟩ := hgrace h
    obtain ⟨h3, h4⟩ := hgrace' h
    refine .inr ⟨h, ?_, ?_⟩ <;> simp only [deltaAt] <;> omega

theorem freeByDay_nonneg (hds : usageDeltas slices usage = .ok ds) (day : ℤ) :
    0 ≤ freeByDay ds day :=
  sumWhere_nonneg fun _ hd => (mem_usageDeltas hds hd).2.2.2.1

end Deltas

/-! ### Settlement -/

/-- The call of the meter is active, and its owner exists. -/
structure OpenCall (db : VoiceDb) (terms : Terms) : Prop where
  user : terms.userId ∈ db.users
  call : ∃ call, db.call terms.callId = some call ∧ call.userId = terms.userId ∧
    call.status.active = true

theorem freeLimit_accountForSettlement (m : ConnectedMeter) (day d : ℤ) :
    freeLimit (accountForSettlement db m day) m d =
      dayLimit (db.account m.userId) m.dailySeconds d := by
  unfold freeLimit accountForSettlement dayLimit
  cases db.account m.userId <;> simp

theorem extra_accountForSettlement (m : ConnectedMeter) (day : ℤ) :
    (accountForSettlement db m day).extraRemainingSeconds = extraOf (db.account m.userId) := by
  unfold accountForSettlement extraOf
  cases db.account m.userId <;> rfl

/-- Unsettled free seconds of a day are within what the account still allows. -/
theorem freeByDay_le {slices usage : List UsageSlice} {day : ℤ} {ds : List (UsageKey × Totals)}
    (hbooks : Books db terms opening granted)
    (hwithin : Within db terms opening granted slices day)
    (hrows : (db.ledgerOf terms.callId).mapM asUsage = .ok usage)
    (hds : usageDeltas slices usage = .ok ds) (d : ℤ) :
    freeByDay ds d ≤ dayLimit (db.account terms.userId) terms.dailySeconds d := by
  have hday := freeByDay_usageDeltas hds d
  have hcommitted := committedFreeOn_eq hrows d
  by_cases hle : ∀ a ∈ db.account terms.userId, a.freeQuotaDate ≤ d
  · have := hbooks.limit d hle
    have := hwithin.free_le d
    omega
  · push Not at hle
    obtain ⟨a, ha, hd⟩ := hle
    have hpast := hwithin.past a ha d hd
    rw [show db.account terms.userId = some a from ha]
    simp only [dayLimit, if_neg hd.ne]
    omega

theorem usageDeltas_of_covers {slices usage : List UsageSlice} {day : ℤ}
    (hwithin : Within db terms opening granted slices day)
    (hrows : (db.ledgerOf terms.callId).mapM asUsage = .ok usage) :
    ∃ ds, usageDeltas slices usage = .ok ds := by
  refine ⟨_, usageDeltas_eq_ok.mpr ⟨fun k _ => ?_, rfl⟩⟩
  obtain ⟨hd, hf, he⟩ := hwithin.covers k
  rw [rowTotals_eq hrows k] at hd hf he
  simp only [deltaAt]
  omega

theorem usage_of_empty {usage : List UsageSlice} (h : db.ledgerOf terms.callId = [])
    (hrows : (db.ledgerOf terms.callId).mapM asUsage = .ok usage) : usage = [] := by
  rw [h] at hrows
  have := pure_eq_ok.mp (show pure [] = Except.ok usage by simpa using hrows)
  exact this.symm

theorem sameUsage_nil : sameUsage [] [] := by
  constructor <;> simp

/-- Settling a sound meter never raises. -/
theorem settle_sound_ok {x : TickMeter} (base : ℚ) (hopen : OpenCall db terms)
    (hbooks : Books db terms opening granted) (hx : Sound db terms opening granted x) :
    ∃ db' r, settle (x.meter terms base) db = .ok (db', r) := by
  obtain ⟨call, hcall, howner, -⟩ := hopen.call
  obtain ⟨usage, hrows, hshape⟩ := hbooks.rows
  refine settle_isOk hopen.user hcall howner hrows fun hnew => ?_
  -- There is something to settle, so the meter has been read and has slices.
  have hslices : x.slices ≠ [] := fun hnil => by
    have hledger : db.ledgerOf terms.callId = [] := by
      cases hlast : x.last with
      | none => exact (hx.within 0 fun l hl => by rw [hlast] at hl; cases hl).empty hnil
      | some l =>
        exact (hx.within (shanghaiDay l) fun l' hl' => by
          rw [hlast] at hl'
          exact Option.some.inj hl' ▸ le_rfl).empty hnil
    obtain rfl := usage_of_empty hledger hrows
    exact hnew (by rw [show (x.meter terms base).slices = [] from hnil]; exact sameUsage_nil)
  cases hlast : x.last with
  | none => exact absurd (hx.unseen hlast) hslices
  | some l =>
    have hwithin := hx.within (shanghaiDay l) fun l' hl' => by
      rw [hlast] at hl'
      exact Option.some.inj hl' ▸ le_rfl
    obtain ⟨ds, hds⟩ := usageDeltas_of_covers hwithin hrows
    refine ⟨ds, reading base l, hds, by rw [meter_lastSeen, hlast]; rfl, ?_, fun d hd =>
      validDelta_of_shape (fun s hs => (hwithin.shape s hs).1) hshape hds hd, fun d _ => ?_, ?_⟩
    · have hclock := hwithin.clock hslices
      unfold accountForSettlement
      cases hacc : db.account (x.meter terms base).userId with
      | none => exact le_rfl
      | some a => exact hclock a hacc
    · rw [freeLimit_accountForSettlement]
      exact freeByDay_le hbooks hwithin hrows hds d.1.1
    · rw [extra_accountForSettlement, extraDelta_usageDeltas hds, ← committedExtra_eq hrows]
      have hpool := hbooks.extra
      have hle := hwithin.extra_le
      change extraTotal x.slices - committedExtra (db.ledgerOf terms.callId) ≤
        extraOf (db.account terms.userId)
      omega

/-- The meter stays sound when the ledger of its call and the date of its account stay. -/
theorem Sound.transfer {x : TickMeter} {db' : VoiceDb} {granted' : ℤ}
    (hx : Sound db terms opening granted x)
    (hledger : db'.ledgerOf terms.callId = db.ledgerOf terms.callId)
    (hdate : ∀ a' ∈ db'.account terms.userId, ∃ a ∈ db.account terms.userId,
      a.freeQuotaDate = a'.freeQuotaDate) (hgranted : granted ≤ granted') :
    Sound db' terms opening granted' x :=
  { hx with
    within := fun day hday =>
      let h := hx.within day hday
      { h with
        extra_le := h.extra_le.trans (by omega)
        covers := by rw [hledger]; exact h.covers
        past := fun a' ha' d hd => by
          obtain ⟨a, ha, heq⟩ := hdate a' ha'
          rw [hledger]
          exact h.past a ha d (by omega)
        empty := by rw [hledger]; exact h.empty
        clock := fun hne a' ha' => by
          obtain ⟨a, ha, heq⟩ := hdate a' ha'
          exact heq ▸ h.clock hne a ha }
    clock := fun hne l hl a' ha' => by
      obtain ⟨a, ha, heq⟩ := hdate a' ha'
      exact heq ▸ hx.clock hne l hl a ha }

theorem debit_date {m : ConnectedMeter} {account : VoiceQuotaAccount} {day : ℤ}
    {ds : List (UsageKey × Totals)} (h : account.freeQuotaDate ≤ day) :
    (debit account m day ds).freeQuotaDate = day := by
  unfold debit
  split_ifs with hlt
  · rfl
  · exact le_antisymm h (not_lt.mp hlt)

theorem debit_free {m : ConnectedMeter} {account : VoiceQuotaAccount} {day : ℤ}
    {ds : List (UsageKey × Totals)} (h : account.freeQuotaDate ≤ day) :
    (debit account m day ds).freeRemainingSeconds =
      freeLimit account m day - freeByDay ds day := by
  unfold debit freeLimit
  split_ifs with hlt heq heq
  · omega
  · rfl
  · rfl
  · omega

theorem debit_extra (m : ConnectedMeter) (account : VoiceQuotaAccount) (day : ℤ)
    (ds : List (UsageKey × Totals)) :
    (debit account m day ds).extraRemainingSeconds =
      account.extraRemainingSeconds - extraDelta ds := by
  unfold debit
  split_ifs <;> rfl

theorem dayLimit_some (a : VoiceQuotaAccount) (dailySeconds : ℕ) (day : ℤ) :
    dayLimit (some a) dailySeconds day =
      if day = a.freeQuotaDate then a.freeRemainingSeconds else dailySeconds := rfl

/-- A debit keeps the books: every allowance is reduced by what was filed. -/
theorem debited_books {x : TickMeter} {base : ℚ} {db' : VoiceDb} {r : Settlement} {call : VoiceCall}
    {existing : List UsageSlice} {ds : List (UsageKey × Totals)} {l : ℤ}
    (hbooks : Books db terms opening granted)
    (hwithin : Within db terms opening granted x.slices (shanghaiDay l))
    (h : Debited (x.meter terms base) db db' r call existing ds (shanghaiDay l)) :
    Books db' terms opening granted := by
  have hfree : ∀ d, committedFreeOn (db'.ledgerOf terms.callId) d = freeOn x.slices d :=
    h.committedFreeOn_self
  have hextra : committedExtra (db'.ledgerOf terms.callId) = extraTotal x.slices :=
    h.committedExtra_self
  have hacc : db'.account terms.userId =
      some (debit (accountForSettlement db (x.meter terms base) (shanghaiDay l))
        (x.meter terms base) (shanghaiDay l) ds) :=
    (h.account_eq terms.userId).trans (if_pos rfl)
  have hdate : (debit _ (x.meter terms base) (shanghaiDay l) ds).freeQuotaDate = _ :=
    debit_date h.clock
  obtain ⟨usage, hrows, hshape⟩ := hbooks.rows
  obtain rfl : existing = usage := Except.ok.inj (h.rows.symm.trans hrows)
  refine ⟨⟨_, h.usage_eq, fun s hs => ?_⟩, fun d hd => ?_, ?_⟩
  · rcases List.mem_append.mp hs with hs | hs
    · exact hshape s hs
    · obtain ⟨d, hd, rfl⟩ := List.mem_map.mp hs
      obtain ⟨-, -, -, hf, he⟩ := mem_usageDeltas h.deltas hd
      exact (h.valid d hd).2.imp (fun hc => ⟨hc.1, hc.2, hf, he⟩) id
  · rw [hacc] at hd ⊢
    have hday : shanghaiDay l ≤ d := hdate ▸ hd _ rfl
    have hdelta := freeByDay_usageDeltas h.deltas d
    have hcommitted := committedFreeOn_eq hrows d
    have hold : (∀ a ∈ db.account terms.userId, a.freeQuotaDate ≤ d) := fun a ha => by
      have hclock := h.clock
      rw [accountForSettlement, show db.account (x.meter terms base).userId = some a from ha] at hclock
      exact le_trans hclock hday
    have hlimit := hbooks.limit d hold
    rw [dayLimit_some, hdate, hfree]
    split_ifs with heq
    · subst heq
      rw [debit_free h.clock, freeLimit_accountForSettlement]
      change dayLimit (db.account terms.userId) terms.dailySeconds (shanghaiDay l) - _ = _
      change freeByDay ds (shanghaiDay l) = freeOn x.slices (shanghaiDay l) - _ at hdelta
      omega
    · -- Nothing was filed for a later day.
      have hnone : freeOn x.slices d = 0 := sumWhere_eq_zero fun s hs hday' => by
        have := (hwithin.shape s hs).2.2
        have := of_decide_eq_true hday'
        omega
      have hnonneg := freeByDay_nonneg h.deltas d
      have husage : 0 ≤ freeOn existing d := sumWhere_nonneg fun s hs => by
        rcases hshape s hs with hc | hg
        · exact hc.2.2.1
        · exact hg.2.1.ge
      change freeByDay ds d = freeOn x.slices d - _ at hdelta
      have hdaily : dayLimit (db.account terms.userId) terms.dailySeconds d = terms.dailySeconds := by
        cases hopt : db.account terms.userId with
        | none => rfl
        | some a =>
          have hclock := h.clock
          rw [accountForSettlement, show db.account (x.meter terms base).userId = some a from hopt]
            at hclock
          simp only [Option.getD_some] at hclock
          rw [dayLimit_some, if_neg (by omega)]
      omega
  · rw [hacc, hextra]
    have hpool := hbooks.extra
    have hdelta := extraDelta_usageDeltas h.deltas
    rw [← committedExtra_eq hrows] at hdelta
    change extraDelta ds = extraTotal x.slices - committedExtra (db.ledgerOf terms.callId) at hdelta
    simp only [extraOf, Option.map_some, Option.getD_some, debit_extra]
    rw [extra_accountForSettlement]
    change extraOf (db.account terms.userId) - _ = extraOf opening + granted - _
    omega

/-- A debit keeps the meter sound: the ledger of its call is now the meter itself. -/
theorem debited_sound {x : TickMeter} {base : ℚ} {db' : VoiceDb} {r : Settlement} {call : VoiceCall}
    {existing : List UsageSlice} {ds : List (UsageKey × Totals)} {l : ℤ}
    (hlast : x.last = some l) (hx : Sound db terms opening granted x)
    (h : Debited (x.meter terms base) db db' r call existing ds (shanghaiDay l)) :
    Sound db' terms opening granted x := by
  have hdate : ∀ a ∈ db'.account terms.userId, a.freeQuotaDate = shanghaiDay l := fun a ha => by
    have hacc := (h.account_eq terms.userId).trans (if_pos rfl)
    obtain rfl := Option.some.inj (hacc.symm.trans ha)
    exact debit_date h.clock
  refine { hx with within := fun day hday => ?_, clock := fun _ l' hl' a ha => ?_ }
  · have hold := hx.within day hday
    have hle : shanghaiDay l ≤ day := hday l hlast
    refine { hold with covers := fun k => ?_, past := fun a ha d _ => ?_, empty := fun hnil => ?_,
                       clock := fun _ a ha => (hdate a ha).le.trans hle }
    · have htotals : rowTotals (db'.ledgerOf terms.callId) k = totalsAt x.slices k := h.rowTotals_self k
      rw [htotals]
      exact ⟨le_rfl, le_rfl, le_rfl⟩
    · exact (h.committedFreeOn_self d).symm
    · have hrows := hold.empty hnil
      obtain rfl := usage_of_empty hrows h.rows
      obtain ⟨-, hds⟩ := usageDeltas_eq_ok.mp h.deltas
      have hkeys : usageKeys (x.meter terms base).slices [] = [] := by
        rw [show (x.meter terms base).slices = [] from hnil]
        rfl
      rw [hkeys] at hds
      have hself := h.ledgerOf_self
      rw [hds] at hself
      exact hself.trans (by rw [show db.ledgerOf (x.meter terms base).callId = [] from hrows]; rfl)
  · rw [hlast] at hl'
    exact Option.some.inj hl' ▸ (hdate a ha).le

/-- A committed settlement keeps the call open, the books and the meter. -/
theorem settle_sound {x : TickMeter} {base : ℚ} {db' : VoiceDb} {r : Settlement}
    (hopen : OpenCall db terms) (hbooks : Books db terms opening granted)
    (hx : Sound db terms opening granted x)
    (h : settle (x.meter terms base) db = .ok (db', r)) :
    OpenCall db' terms ∧ Books db' terms opening granted ∧ Sound db' terms opening granted x := by
  obtain ⟨row, hrow, howner, hactive⟩ := hopen.call
  rcases settle_cases h with hrep | ⟨call, existing, ds, day, hdeb⟩
  · have hledger : db'.ledgerOf terms.callId = db.ledgerOf terms.callId := by
      simp [VoiceDb.ledgerOf, hrep.ledger_eq]
    have haccount : db'.account terms.userId = db.account terms.userId := hrep.account_eq _
    obtain ⟨call, hcall, -, rfl⟩ := hrep.call
    obtain rfl : row = call := Option.some.inj (hrow.symm.trans hcall)
    refine ⟨⟨hopen.user, _, VoiceDb.call_putCall_self _ _ _, ?_, ?_⟩, ⟨?_, ?_, ?_⟩,
      hx.transfer hledger (fun a ha => ⟨a, haccount ▸ ha, rfl⟩) le_rfl⟩
    · rw [replayedCall_userId]
      exact howner
    · rw [replayedCall_status]
      exact hactive
    · rw [hledger]
      exact hbooks.rows
    · rw [hledger, haccount]
      exact hbooks.limit
    · rw [hledger, haccount]
      exact hbooks.extra
  · obtain ⟨seen, hseen, rfl⟩ := hdeb.seen
    rw [meter_lastSeen] at hseen
    obtain ⟨l, hlast, rfl⟩ := Option.map_eq_some_iff.mp hseen
    change Debited (x.meter terms base) db db' r call existing ds (shanghaiDay l) at hdeb
    have hwithin := hx.within (shanghaiDay l) fun l' hl' => by
      rw [hlast] at hl'
      exact Option.some.inj hl' ▸ le_rfl
    obtain rfl : row = call := Option.some.inj (hrow.symm.trans hdeb.call_eq)
    refine ⟨⟨?_, _, hdeb.call_self, howner, hactive⟩, debited_books hbooks hwithin hdeb,
      debited_sound hlast hx hdeb⟩
    rw [hdeb.db_eq]
    exact hopen.user

/-! ### Grants -/

theorem hasActiveCall_of_open (hopen : OpenCall db terms) :
    hasActiveCall db terms.userId = true := by
  obtain ⟨call, hcall, howner, hactive⟩ := hopen.call
  refine List.any_eq_true.mpr ⟨⟨terms.callId, call⟩, AList.mem_lookup_iff.mp hcall, ?_⟩
  rw [Bool.and_eq_true]
  exact ⟨decide_eq_true howner, hactive⟩

/-- During a call a grant only adds seconds to an existing account. -/
theorem grant_sound {x : TickMeter} {db' : VoiceDb} {r : GrantResult}
    {secs version dailySeconds now : ℤ} (hopen : OpenCall db terms)
    (hbooks : Books db terms opening granted) (hx : Sound db terms opening granted x)
    (h : grantExtra terms.userId secs version dailySeconds now db = .ok (db', r)) :
    OpenCall db' terms ∧ Books db' terms opening (granted + secs) ∧
      Sound db' terms opening (granted + secs) x := by
  obtain ⟨hsecs, account, haccount, rfl⟩ := grantExtra_spec h
  have hacc : db.account terms.userId = some account := by
    unfold accountForGrant at haccount
    cases hopt : db.account terms.userId with
    | none =>
      simp only [hopt] at haccount
      obtain ⟨_, hidle, -⟩ := bind_eq_ok.mp haccount
      rw [require_eq_ok, hasActiveCall_of_open hopen] at hidle
      cases hidle
    | some a =>
      simp only [hopt] at haccount
      obtain ⟨_, _, haccount⟩ := bind_eq_ok.mp haccount
      exact congrArg some (pure_eq_ok.mp haccount)
  have hself := VoiceDb.account_putAccount_self db terms.userId { account with
    extraRemainingSeconds := account.extraRemainingSeconds + secs
    version := account.version + 1 }
  refine ⟨⟨hopen.user, hopen.call⟩, ⟨hbooks.rows, fun d hd => ?_, ?_⟩,
    hx.transfer rfl (fun a' ha' => ⟨account, hacc, ?_⟩) (by omega)⟩
  · rw [hself] at hd ⊢
    have hlimit := hbooks.limit d fun a ha => by
      obtain rfl := Option.some.inj (hacc.symm.trans ha)
      have hle := hd _ rfl
      exact hle
    rw [hacc] at hlimit
    exact hlimit
  · have hpool := hbooks.extra
    rw [hacc] at hpool
    rw [hself]
    simp only [extraOf, Option.map_some, Option.getD_some] at hpool ⊢
    change _ = _ - committedExtra (db.ledgerOf terms.callId)
    omega
  · obtain rfl := Option.some.inj (hself.symm.trans ha')
    rfl

/-! ### Whole calls -/

/-- The database, the live meter of one call, and the seconds granted since it opened. -/
structure CallWorld where
  db : VoiceDb
  meter : ConnectedMeter
  granted : ℤ

inductive CallOp
  | observe (o : Observation)
  | settle
  | grantExtra (secondsGranted expectedVersion dailySeconds now : ℤ)

/-- Both clocks are in step: the monotonic reading is `base` seconds past the wall. -/
def callStep (base : ℚ) (w : CallWorld) : CallOp → Option CallWorld
  | .observe o => some { w with
      meter := (observe w.db w.meter o.connected (base + seconds o.instant) o.instant o.muted).1 }
  | .settle => some { w with db := settled (settle w.meter) w.db }
  | .grantExtra secondsGranted expectedVersion dailySeconds now =>
    match grantExtra w.meter.userId secondsGranted expectedVersion dailySeconds now w.db with
    | .ok (db, _) => some { w with db := db, granted := w.granted + secondsGranted }
    | .error _ => some w

/-- An active call with its new meter: no ledger rows yet, and an account that is
not overdrawn. No operation of a run debits the account but the call's own settlement. -/
def callMachine (terms : Terms) (base : ℚ) (opening : Option VoiceQuotaAccount) :
    Machine CallWorld CallOp where
  start w := OpenCall w.db terms ∧ w.db.ledgerOf terms.callId = [] ∧
    w.db.account terms.userId = opening ∧
    (∀ a ∈ opening, 0 ≤ a.freeRemainingSeconds ∧ 0 ≤ a.extraRemainingSeconds) ∧
    w.meter = ConnectedMeter.fresh terms.callId terms.userId terms.dailySeconds terms.graceLimit
      terms.graceLimit_le ∧ w.granted = 0
  step := callStep base

/-- The invariant of whole calls. -/
def Accounted (terms : Terms) (base : ℚ) (opening : Option VoiceQuotaAccount)
    (w : CallWorld) : Prop :=
  OpenCall w.db terms ∧ Books w.db terms opening w.granted ∧
    ∃ x, w.meter = x.meter terms base ∧ Sound w.db terms opening w.granted x

variable {base : ℚ}

theorem accounted_start (w : CallWorld) (h : (callMachine terms base opening).start w) :
    Accounted terms base opening w := by
  obtain ⟨hopen, hledger, hacc, hnonneg, hmeter, hgranted⟩ := h
  have hlimit : ∀ d, 0 ≤ dayLimit opening terms.dailySeconds d := fun d => by
    unfold dayLimit
    cases hopt : opening with
    | none => exact Int.natCast_nonneg _
    | some a =>
      have := hnonneg a hopt
      simp only
      split_ifs <;> omega
  have hextra : 0 ≤ extraOf opening := by
    cases hopt : opening with
    | none => exact le_rfl
    | some a => exact (hnonneg a hopt).2
  have hcommitted : ∀ d, committedFreeOn (w.db.ledgerOf terms.callId) d = 0 := fun d => by
    rw [hledger]
    rfl
  refine ⟨hopen, ⟨⟨[], by rw [hledger]; rfl, by simp⟩, fun d _ => ?_, ?_⟩, TickMeter.fresh, ?_, ?_⟩
  · rw [hacc, hcommitted, sub_zero]
  · rw [hacc, hledger, hgranted]
    simp [committedExtra]
  · rw [hmeter]
    simp [ConnectedMeter.fresh, TickMeter.meter, TickMeter.fresh]
  · refine ⟨fresh_valid, fun _ => rfl, fun day _ => ?_, fun _ s hs => absurd hs List.not_mem_nil,
      fun h => absurd rfl h, rfl, le_rfl, Int.natCast_nonneg _⟩
    refine ⟨fun s hs => absurd hs List.not_mem_nil, List.Pairwise.nil, hlimit, ?_, fun k => ?_, fun a _ d _ => ?_,
      fun _ => hledger, fun h => absurd rfl h⟩
    · rw [hgranted, add_zero]
      exact hextra
    · rw [hledger]
      exact ⟨le_rfl, le_rfl, le_rfl⟩
    · rw [hcommitted]
      rfl

theorem accounted_step (w : CallWorld) (op : CallOp) (w' : CallWorld)
    (hw : Accounted terms base opening w) (h : callStep base w op = some w') :
    Accounted terms base opening w' := by
  obtain ⟨hopen, hbooks, x, hmeter, hx⟩ := hw
  cases op with
  | observe o =>
    obtain rfl := Option.some.inj h
    refine ⟨hopen, hbooks, ?_⟩
    simp only [hmeter, observe, observeCandidate_meter]
    cases hz : observeTick w.db terms x o with
    | error e => exact ⟨x, rfl, hx⟩
    | ok z => exact ⟨z, rfl, observeTick_sound hbooks hx hz⟩
  | settle =>
    obtain rfl := Option.some.inj h
    obtain ⟨db', r, hok⟩ := settle_sound_ok base hopen hbooks hx
    have hdb : settled (settle w.meter) w.db = db' := by
      rw [hmeter]
      exact settled_of_ok hok
    obtain ⟨hopen', hbooks', hx'⟩ := settle_sound hopen hbooks hx hok
    rw [← hdb] at hopen' hbooks' hx'
    exact ⟨hopen', hbooks', x, hmeter, hx'⟩
  | grantExtra secs version dailySeconds now =>
    have huser : w.meter.userId = terms.userId := by rw [hmeter]; rfl
    simp only [callStep, huser] at h
    cases hg : grantExtra terms.userId secs version dailySeconds now w.db with
    | error e =>
      rw [hg] at h
      obtain rfl := Option.some.inj h
      exact ⟨hopen, hbooks, x, hmeter, hx⟩
    | ok result =>
      obtain ⟨db', r⟩ := result
      rw [hg] at h
      obtain rfl := Option.some.inj h
      obtain ⟨hopen', hbooks', hx'⟩ := grant_sound hopen hbooks hx hg
      exact ⟨hopen', hbooks', x, hmeter, hx'⟩

/-- Observation never outruns the account: at every point of a call each connected
second is paid by a free or an extra one within the allowances, grace is free, last
and limited, and the meter can be settled. A raised observation changes nothing. -/
theorem observation_within_account {w : CallWorld}
    (h : (callMachine terms base opening).Reachable w) :
    (∀ s ∈ w.meter.slices, 0 < s.durationSeconds ∧
      (s.usageType = .connected ∧ s.durationSeconds = s.freeSecondsUsed + s.extraSecondsUsed ∨
        s.usageType = .grace ∧ s.freeSecondsUsed = 0 ∧ s.extraSecondsUsed = 0)) ∧
    (w.meter.slices.map (·.usageType)).Pairwise (fun k l => k = .grace → l = .grace) ∧
    w.meter.graceSeconds = billed .grace w.meter.slices ∧
    w.meter.graceSeconds ≤ w.meter.graceLimit ∧
    (∀ day, freeOn w.meter.slices day ≤ dayLimit opening terms.dailySeconds day) ∧
    extraTotal w.meter.slices ≤ extraOf opening + w.granted ∧
    (∃ db' r, settle w.meter w.db = .ok (db', r)) ∧
    (∀ connected monotonic now muted e,
      (observe w.db w.meter connected monotonic now muted).2 = .error e →
        (observe w.db w.meter connected monotonic now muted).1 = w.meter) := by
  obtain ⟨hopen, hbooks, x, hmeter, hx⟩ :=
    Machine.reachable_invariant (M := callMachine terms base opening) accounted_start accounted_step h
  have hsettle := settle_sound_ok base hopen hbooks hx
  have hwithin : Within w.db terms opening w.granted x.slices
      ((x.last.map shanghaiDay).getD 0) := hx.within _ fun l hl => by
    rw [show x.last = some l from hl]
    exact le_rfl
  rw [hmeter]
  refine ⟨fun s hs => ?_, hwithin.ordered, hx.filed.symm, hx.limit, hwithin.free_le, hwithin.extra_le,
    hsettle, fun connected monotonic now muted e he => ?_⟩
  · obtain ⟨hshape, hpos, -⟩ := hwithin.shape s hs
    exact ⟨hpos, hshape.imp (fun hc => ⟨hc.1, hc.2.1⟩) id⟩
  · unfold observe at he ⊢
    split
    · rfl
    · next hok => rw [hok] at he; cases he

/-- A call that has just connected, with thirty free seconds a day. -/
def connectedWorld : CallWorld where
  db := VoiceDb.putCall ⟨[1], ∅, ∅, [], fun _ => [], ∅, [], [], ∅⟩ 7 connectedCall
  meter := ConnectedMeter.fresh 7 1 30 15 ConnectedMeter.fifteen_le
  granted := 0

def shortTerms : Terms := ⟨7, 1, 30, 15, ConnectedMeter.fifteen_le⟩

/-- The call after forty seconds, with a settlement in between. -/
def overrunWorld : CallWorld :=
  (callMachine shortTerms 5 none).after connectedWorld
    [.observe ⟨0, true, false⟩, .observe ⟨20000000, true, true⟩, .settle,
      .observe ⟨40000000, true, true⟩]

theorem overrunWorld_reachable : (callMachine shortTerms 5 none).Reachable overrunWorld :=
  Machine.reachable_after
    ⟨⟨List.mem_singleton.mpr rfl, connectedCall, VoiceDb.call_putCall_self _ _ _, rfl, rfl⟩, rfl, rfl,
      fun _ ha => absurd ha (Option.not_mem_none _), rfl, rfl⟩ rfl

theorem observation_within_account_overrun :
    overrunWorld.meter.graceSeconds ≤ overrunWorld.meter.graceLimit ∧
      ∃ db' r, settle overrunWorld.meter overrunWorld.db = .ok (db', r) := by
  obtain ⟨-, -, -, hlimit, -, -, hsettle, -⟩ := observation_within_account overrunWorld_reachable
  exact ⟨hlimit, hsettle⟩

end CompanionBackend.MeterBounds
