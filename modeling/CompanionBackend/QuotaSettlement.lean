import CompanionBackend.VoiceQuota
import Mathlib.Tactic.SplitIfs

/-!
# What one settlement writes

A settlement compares the meter with its ledger key by key. The lemmas say once
what a committed settlement is, and that the differences it files sum up to the
difference of the two sides over any set of keys.
-/
namespace CompanionBackend.VoiceQuota

open Runs KeyedSums ShanghaiClock VoiceModels

/-! ### Keys and differences -/

@[simp] theorem mem_usageKeys {desired existing : List UsageSlice} {k : UsageKey} :
    k ∈ usageKeys desired existing ↔
      k ∈ desired.map UsageSlice.key ∨ k ∈ existing.map UsageSlice.key := by
  rw [usageKeys, (List.perm_insertionSort keyLe _).mem_iff, List.mem_dedup, List.map_append,
    List.mem_append]

theorem usageKeys_nodup (desired existing : List UsageSlice) :
    (usageKeys desired existing).Nodup :=
  (List.perm_insertionSort keyLe _).nodup_iff.mpr (List.nodup_dedup _)

theorem desired_key_mem {desired existing : List UsageSlice} (x : UsageSlice)
    (hx : x ∈ desired) : x.key ∈ usageKeys desired existing :=
  mem_usageKeys.mpr (.inl (List.mem_map_of_mem hx))

theorem existing_key_mem {desired existing : List UsageSlice} (x : UsageSlice)
    (hx : x ∈ existing) : x.key ∈ usageKeys desired existing :=
  mem_usageKeys.mpr (.inr (List.mem_map_of_mem hx))

theorem usageDeltas_eq_ok {desired existing : List UsageSlice} {ds : List (UsageKey × Totals)} :
    usageDeltas desired existing = .ok ds ↔
      (∀ k ∈ usageKeys desired existing, 0 ≤ (deltaAt desired existing k).duration ∧
        0 ≤ (deltaAt desired existing k).free ∧ 0 ≤ (deltaAt desired existing k).extra) ∧
      ds = ((usageKeys desired existing).map fun k => (k, deltaAt desired existing k)).filter
        fun d => decide (d.2 ≠ ⟨0, 0, 0⟩) := by
  simp only [usageDeltas, bind_eq_ok, require_eq_ok, exists_const, pure_eq_ok, List.forall_mem_map]
  exact and_congr_right fun _ => eq_comm

/-- Every filed difference is the difference at its own key, and none is negative. -/
theorem mem_usageDeltas {desired existing : List UsageSlice} {ds : List (UsageKey × Totals)}
    (h : usageDeltas desired existing = .ok ds) {d : UsageKey × Totals} (hd : d ∈ ds) :
    d.1 ∈ usageKeys desired existing ∧ d.2 = deltaAt desired existing d.1 ∧
      0 ≤ d.2.duration ∧ 0 ≤ d.2.free ∧ 0 ≤ d.2.extra := by
  obtain ⟨hnonneg, rfl⟩ := usageDeltas_eq_ok.mp h
  obtain ⟨k, hk, rfl⟩ := List.mem_map.mp (List.mem_filter.mp hd).1
  exact ⟨hk, rfl, hnonneg k hk⟩

/-- Summing one counter of the differences over the keys that pass a test. -/
theorem sumWhere_usageDeltas {desired existing : List UsageSlice} {ds : List (UsageKey × Totals)}
    (h : usageDeltas desired existing = .ok ds) (q : UsageKey → Bool) (f : UsageSlice → ℤ)
    (t : Totals → ℤ) (hzero : t ⟨0, 0, 0⟩ = 0)
    (ht : ∀ k, t (deltaAt desired existing k) =
      sumAt UsageSlice.key f k desired - sumAt UsageSlice.key f k existing) :
    sumWhere (fun d => q d.1) (fun d => t d.2) ds =
      sumWhere (fun s => q s.key) f desired - sumWhere (fun s => q s.key) f existing := by
  obtain ⟨-, rfl⟩ := usageDeltas_eq_ok.mp h
  have hdrop : ∀ d ∈ (usageKeys desired existing).map (fun k => (k, deltaAt desired existing k)),
      decide (d.2 ≠ ⟨0, 0, 0⟩) = false → t d.2 = 0 := by
    intro d _ hd
    have hd' : d.2 = ⟨0, 0, 0⟩ := by simpa using hd
    rw [hd', hzero]
  rw [sumWhere_filter_of_zero hdrop, sumWhere_map]
  simp only [ht]
  rw [sumWhere_sub, sumWhere_sumAt (usageKeys_nodup _ _) desired_key_mem,
    sumWhere_sumAt (usageKeys_nodup _ _) existing_key_mem]

theorem freeByDay_usageDeltas {desired existing : List UsageSlice}
    {ds : List (UsageKey × Totals)} (h : usageDeltas desired existing = .ok ds) (day : ℤ) :
    freeByDay ds day = freeOn desired day - freeOn existing day :=
  sumWhere_usageDeltas h (fun k => decide (k.1 = day)) (·.freeSecondsUsed) (·.free) rfl
    fun _ => rfl

theorem extraDelta_usageDeltas {desired existing : List UsageSlice}
    {ds : List (UsageKey × Totals)} (h : usageDeltas desired existing = .ok ds) :
    extraDelta ds = extraTotal desired - extraTotal existing := by
  have hsum := sumWhere_usageDeltas h (fun _ => true) (·.extraSecondsUsed) (·.extra) rfl
    fun _ => rfl
  simpa only [sumWhere_true, extraDelta, extraTotal] using hsum

/-! ### Ledger rows as usage -/

/-- The figures of ledger rows filed under one key. -/
def rowTotals (rows : List VoiceUsageLedger) (k : UsageKey) : Totals where
  duration := sumWhere (fun r => decide (r.quotaDate = some k.1 ∧ r.usageType = k.2))
    (fun r => r.durationSeconds.getD 0) rows
  free := sumWhere (fun r => decide (r.quotaDate = some k.1 ∧ r.usageType = k.2))
    (·.freeSecondsUsed) rows
  extra := sumWhere (fun r => decide (r.quotaDate = some k.1 ∧ r.usageType = k.2))
    (·.extraSecondsUsed) rows

theorem rowTotals_append (rows rows' : List VoiceUsageLedger) (k : UsageKey) :
    rowTotals (rows ++ rows') k =
      ⟨(rowTotals rows k).duration + (rowTotals rows' k).duration,
        (rowTotals rows k).free + (rowTotals rows' k).free,
        (rowTotals rows k).extra + (rowTotals rows' k).extra⟩ := by
  simp [rowTotals]

theorem asUsage_eq_ok {row : VoiceUsageLedger} {s : UsageSlice} :
    asUsage row = .ok s ↔ row.durationSeconds = some s.durationSeconds ∧
      row.quotaDate = some s.quotaDate ∧ row.usageType = s.usageType ∧
      row.freeSecondsUsed = s.freeSecondsUsed ∧ row.extraSecondsUsed = s.extraSecondsUsed := by
  obtain ⟨id, seq, free, extra, kind, duration, day⟩ := row
  obtain ⟨day', kind', duration', free', extra'⟩ := s
  cases duration <;> cases day <;> simp [asUsage]
  tauto

/-- Rows read back as usage have the same figures, summed by any test on date and type. -/
theorem sumWhere_asUsage {rows : List VoiceUsageLedger} {usage : List UsageSlice}
    (h : rows.mapM asUsage = .ok usage) (p : VoiceUsageLedger → Bool) (q : UsageSlice → Bool)
    (f : VoiceUsageLedger → ℤ) (g : UsageSlice → ℤ)
    (hpq : ∀ row s, asUsage row = .ok s → p row = q s ∧ f row = g s) :
    sumWhere p f rows = sumWhere q g usage := by
  induction rows generalizing usage with
  | nil =>
    obtain rfl : usage = [] := by
      have := pure_eq_ok.mp (show pure [] = Except.ok usage by simpa using h)
      exact this.symm
    rfl
  | cons row rows ih =>
    rw [List.mapM_cons] at h
    obtain ⟨s, hs, h⟩ := bind_eq_ok.mp h
    obtain ⟨rest, hrest, h⟩ := bind_eq_ok.mp h
    obtain rfl := pure_eq_ok.mp h
    obtain ⟨hp, hf⟩ := hpq row s hs
    rw [sumWhere_cons, sumWhere_cons, ih hrest, hp, hf]

theorem committedFreeOn_eq {rows : List VoiceUsageLedger} {usage : List UsageSlice}
    (h : rows.mapM asUsage = .ok usage) (day : ℤ) :
    committedFreeOn rows day = freeOn usage day := by
  refine sumWhere_asUsage h _ _ _ _ fun row s hs => ?_
  obtain ⟨-, hday, -, hfree, -⟩ := asUsage_eq_ok.mp hs
  simp [hday, hfree]

theorem committedExtra_eq {rows : List VoiceUsageLedger} {usage : List UsageSlice}
    (h : rows.mapM asUsage = .ok usage) : committedExtra rows = extraTotal usage := by
  have hsum := sumWhere_asUsage h (fun _ => true) (fun _ => true) (·.extraSecondsUsed)
    (·.extraSecondsUsed) fun row s hs => ⟨rfl, (asUsage_eq_ok.mp hs).2.2.2.2⟩
  simpa only [sumWhere_true, committedExtra, extraTotal] using hsum

theorem rowTotals_eq {rows : List VoiceUsageLedger} {usage : List UsageSlice}
    (h : rows.mapM asUsage = .ok usage) (k : UsageKey) : rowTotals rows k = totalsAt usage k := by
  have hkey : ∀ row s, asUsage row = .ok s →
      decide (row.quotaDate = some k.1 ∧ row.usageType = k.2) = decide (s.key = k) := by
    intro row s hs
    obtain ⟨-, hday, hkind, -⟩ := asUsage_eq_ok.mp hs
    simp [hday, hkind, UsageSlice.key, Prod.ext_iff]
  unfold rowTotals totalsAt sumAt
  congr 1
  · refine sumWhere_asUsage h _ _ _ _ fun row s hs => ⟨hkey row s hs, ?_⟩
    simp [(asUsage_eq_ok.mp hs).1]
  · exact sumWhere_asUsage h _ _ _ _ fun row s hs =>
      ⟨hkey row s hs, (asUsage_eq_ok.mp hs).2.2.2.1⟩
  · exact sumWhere_asUsage h _ _ _ _ fun row s hs =>
      ⟨hkey row s hs, (asUsage_eq_ok.mp hs).2.2.2.2⟩

/-! ### Segments -/

theorem segments_callId (callId : CallId) (seq : ℤ) (ds : List (UsageKey × Totals)) :
    ∀ row ∈ segments callId seq ds, row.callId = callId := by
  induction ds generalizing seq with
  | nil => simp [segments]
  | cons d ds ih =>
    intro row hrow
    rcases List.mem_cons.mp hrow with rfl | hrow
    · rfl
    · exact ih (seq + 1) row hrow

/-- New segments can always be read back. -/
theorem segments_asUsage (callId : CallId) (seq : ℤ) (ds : List (UsageKey × Totals)) :
    (segments callId seq ds).mapM asUsage =
      .ok (ds.map fun d => ⟨d.1.1, d.1.2, d.2.duration, d.2.free, d.2.extra⟩) := by
  induction ds generalizing seq with
  | nil => rfl
  | cons d ds ih => rw [segments, List.mapM_cons, ih]; rfl

theorem extra_segments (callId : CallId) (seq : ℤ) (ds : List (UsageKey × Totals)) :
    ((segments callId seq ds).map (·.extraSecondsUsed)).sum = extraDelta ds := by
  have h := committedExtra_eq (segments_asUsage callId seq ds)
  simpa [committedExtra, extraTotal, extraDelta, Function.comp_def] using h

theorem rowTotals_segments (callId : CallId) (seq : ℤ) {desired existing : List UsageSlice}
    {ds : List (UsageKey × Totals)} (h : usageDeltas desired existing = .ok ds) (k : UsageKey) :
    rowTotals (segments callId seq ds) k = deltaAt desired existing k := by
  have hk := fun (f : UsageSlice → ℤ) t hzero ht =>
    sumWhere_usageDeltas h (fun k' => decide (k' = k)) f t hzero ht
  rw [rowTotals_eq (segments_asUsage callId seq ds)]
  unfold totalsAt sumAt
  simp only [sumWhere_map, UsageSlice.key, Prod.mk.eta]
  rw [hk (·.durationSeconds) (·.duration) rfl fun _ => rfl,
    hk (·.freeSecondsUsed) (·.free) rfl fun _ => rfl,
    hk (·.extraSecondsUsed) (·.extra) rfl fun _ => rfl]
  rfl

/-! ### Committed settlements -/

/-- A settlement that found nothing new. -/
structure Replayed (m : ConnectedMeter) (db db' : VoiceDb) (r : Settlement) : Prop where
  call : ∃ call, db.call m.callId = some call ∧ call.userId = m.userId ∧
    db' = db.putCall m.callId (replayedCall call m)
  same : ∃ existing, (db.ledgerOf m.callId).mapM asUsage = .ok existing ∧
    sameUsage m.slices existing
  idempotent : r.idempotent = true

/-- A settlement that debited the account and filed new segments. -/
structure Debited (m : ConnectedMeter) (db db' : VoiceDb) (r : Settlement) (call : VoiceCall)
    (existing : List UsageSlice) (ds : List (UsageKey × Totals)) (day : ℤ) : Prop where
  call_eq : db.call m.callId = some call
  owner : call.userId = m.userId
  rows : (db.ledgerOf m.callId).mapM asUsage = .ok existing
  deltas : usageDeltas m.slices existing = .ok ds
  seen : ∃ seen, m.lastSeen = some seen ∧ day = shanghaiDay seen.wall
  clock : (accountForSettlement db m day).freeQuotaDate ≤ day
  valid : ∀ d ∈ ds, validDelta d
  free_le : ∀ d ∈ ds, freeByDay ds d.1.1 ≤ freeLimit (accountForSettlement db m day) m d.1.1
  extra_le : extraDelta ds ≤ (accountForSettlement db m day).extraRemainingSeconds
  db_eq : db' = { (db.putAccount m.userId (debit (accountForSettlement db m day) m day ds)).putCall
    m.callId (settledCall call m) with
      ledger := db.ledger ++ segments m.callId (lastSegment (db.ledgerOf m.callId)) ds }
  fresh : r.idempotent = false

@[simp] theorem replayedCall_userId (call : VoiceCall) (m : ConnectedMeter) :
    (replayedCall call m).userId = call.userId := by
  simp only [replayedCall, apply_ite VoiceCall.userId, ite_self]

@[simp] theorem replayedCall_status (call : VoiceCall) (m : ConnectedMeter) :
    (replayedCall call m).status = call.status := by
  simp only [replayedCall, apply_ite VoiceCall.status, ite_self]

/-- The inversion of `settle`: a replay, or a debit. -/
theorem settle_cases {m : ConnectedMeter} {db db' : VoiceDb} {r : Settlement}
    (h : settle m db = .ok (db', r)) :
    Replayed m db db' r ∨ ∃ call existing ds day, Debited m db db' r call existing ds day := by
  obtain ⟨_, _, h⟩ := bind_eq_ok.mp h
  cases hcall : db.call m.callId with
  | none => simp [hcall] at h
  | some call =>
    simp only [hcall] at h
    obtain ⟨_, howner, h⟩ := bind_eq_ok.mp h
    obtain ⟨existing, hrows, h⟩ := bind_eq_ok.mp h
    split_ifs at h with hsame
    · obtain ⟨rfl, rfl⟩ := Prod.mk.inj (pure_eq_ok.mp h)
      exact .inl ⟨⟨call, hcall, require_eq_ok.mp howner, rfl⟩, ⟨existing, hrows, hsame⟩, rfl⟩
    · obtain ⟨ds, hds, h⟩ := bind_eq_ok.mp h
      cases hseen : m.lastSeen with
      | none => simp [hseen] at h
      | some seen =>
        simp only [hseen] at h
        obtain ⟨_, hclock, h⟩ := bind_eq_ok.mp h
        obtain ⟨_, hvalid, h⟩ := bind_eq_ok.mp h
        obtain ⟨_, hfree, h⟩ := bind_eq_ok.mp h
        obtain ⟨_, hextra, h⟩ := bind_eq_ok.mp h
        obtain ⟨rfl, rfl⟩ := Prod.mk.inj (pure_eq_ok.mp h)
        exact .inr ⟨call, existing, ds, shanghaiDay seen.wall, hcall, require_eq_ok.mp howner,
          hrows, hds, ⟨seen, hseen, rfl⟩, require_eq_ok.mp hclock, require_eq_ok.mp hvalid,
          require_eq_ok.mp hfree, require_eq_ok.mp hextra, rfl, rfl⟩

/-- A settlement whose every check passes commits. -/
theorem settle_isOk {m : ConnectedMeter} {db : VoiceDb} {call : VoiceCall}
    {existing : List UsageSlice} (huser : m.userId ∈ db.users)
    (hcall : db.call m.callId = some call) (howner : call.userId = m.userId)
    (hrows : (db.ledgerOf m.callId).mapM asUsage = .ok existing)
    (hnew : ¬ sameUsage m.slices existing → ∃ ds seen, usageDeltas m.slices existing = .ok ds ∧
      m.lastSeen = some seen ∧
      (accountForSettlement db m (shanghaiDay seen.wall)).freeQuotaDate ≤ shanghaiDay seen.wall ∧
      (∀ d ∈ ds, validDelta d) ∧
      (∀ d ∈ ds, freeByDay ds d.1.1 ≤
        freeLimit (accountForSettlement db m (shanghaiDay seen.wall)) m d.1.1) ∧
      extraDelta ds ≤ (accountForSettlement db m (shanghaiDay seen.wall)).extraRemainingSeconds) :
    ∃ db' r, settle m db = .ok (db', r) := by
  unfold settle
  rw [require_of_pos huser, ok_bind, hcall]
  simp only
  rw [require_of_pos howner, ok_bind, hrows, ok_bind]
  split_ifs with hsame
  · exact ⟨_, _, rfl⟩
  · obtain ⟨ds, seen, hds, hseen, hclock, hvalid, hfree, hextra⟩ := hnew hsame
    rw [hds, ok_bind, hseen]
    simp only
    rw [require_of_pos hclock, require_of_pos hvalid, require_of_pos hfree, require_of_pos hextra]
    exact ⟨_, _, rfl⟩

/-- Equal dictionaries have equal figures under every key. -/
theorem totalsAt_eq_of_sameUsage {desired existing : List UsageSlice}
    (h : sameUsage desired existing) (k : UsageKey) : totalsAt desired k = totalsAt existing k := by
  by_cases hk : k ∈ usageKeys desired existing
  · exact h.2 k hk
  · rw [mem_usageKeys, not_or] at hk
    simp [totalsAt, sumAt_eq_zero_of_not_mem hk.1, sumAt_eq_zero_of_not_mem hk.2]

namespace Debited

variable {m : ConnectedMeter} {db db' : VoiceDb} {r : Settlement} {call : VoiceCall}
  {existing : List UsageSlice} {ds : List (UsageKey × Totals)} {day : ℤ}

theorem ledger_eq (h : Debited m db db' r call existing ds day) :
    db'.ledger = db.ledger ++ segments m.callId (lastSegment (db.ledgerOf m.callId)) ds := by
  rw [h.db_eq]

theorem call_of_other (h : Debited m db db' r call existing ds day) {id : CallId}
    (hid : id ≠ m.callId) : db'.call id = db.call id := by
  rw [h.db_eq]
  exact (VoiceDb.call_putCall _ _ _ _).trans (if_neg hid)

theorem call_self (h : Debited m db db' r call existing ds day) :
    db'.call m.callId = some (settledCall call m) := by
  rw [h.db_eq]
  exact VoiceDb.call_putCall_self _ _ _

theorem account_eq (h : Debited m db db' r call existing ds day) (user : UserId) :
    db'.account user = if user = m.userId
      then some (debit (accountForSettlement db m day) m day ds) else db.account user := by
  rw [h.db_eq]
  exact VoiceDb.account_putAccount _ _ _ _

theorem ledgerOf_other (h : Debited m db db' r call existing ds day) {id : CallId}
    (hid : id ≠ m.callId) : db'.ledgerOf id = db.ledgerOf id := by
  have hnone : (segments m.callId (lastSegment (db.ledgerOf m.callId)) ds).filter
      (fun row => decide (row.callId = id)) = [] := by
    refine List.filter_eq_nil_iff.mpr fun row hrow => ?_
    rw [segments_callId _ _ _ row hrow]
    simpa using hid.symm
  rw [VoiceDb.ledgerOf, h.ledger_eq, List.filter_append, hnone, List.append_nil]
  rfl

theorem ledgerOf_self (h : Debited m db db' r call existing ds day) :
    db'.ledgerOf m.callId = db.ledgerOf m.callId ++
      segments m.callId (lastSegment (db.ledgerOf m.callId)) ds := by
  have hall : (segments m.callId (lastSegment (db.ledgerOf m.callId)) ds).filter
      (fun row => decide (row.callId = m.callId)) =
        segments m.callId (lastSegment (db.ledgerOf m.callId)) ds := by
    refine List.filter_eq_self.mpr fun row hrow => ?_
    simp [segments_callId _ _ _ row hrow]
  rw [VoiceDb.ledgerOf, h.ledger_eq, List.filter_append, hall]
  rfl

/-- The rows of the call after a debit, read back as usage. -/
theorem usage_eq (h : Debited m db db' r call existing ds day) :
    (db'.ledgerOf m.callId).mapM asUsage =
      .ok (existing ++ ds.map fun d => ⟨d.1.1, d.1.2, d.2.duration, d.2.free, d.2.extra⟩) := by
  rw [h.ledgerOf_self, List.mapM_append, h.rows, ok_bind, segments_asUsage]
  rfl

/-- After a debit the rows of the call hold the free seconds of the meter, day by day. -/
theorem committedFreeOn_self (h : Debited m db db' r call existing ds day) (d : ℤ) :
    committedFreeOn (db'.ledgerOf m.callId) d = freeOn m.slices d := by
  have hday := freeByDay_usageDeltas h.deltas d
  rw [committedFreeOn_eq h.usage_eq]
  have hnew : freeOn (ds.map fun d => ⟨d.1.1, d.1.2, d.2.duration, d.2.free, d.2.extra⟩) d =
      freeByDay ds d := by
    unfold freeOn freeByDay
    rw [sumWhere_map]
  unfold freeOn at *
  rw [sumWhere_append, hnew]
  omega

theorem committedExtra_self (h : Debited m db db' r call existing ds day) :
    committedExtra (db'.ledgerOf m.callId) = extraTotal m.slices := by
  have hextra := extraDelta_usageDeltas h.deltas
  rw [committedExtra_eq h.usage_eq]
  simp only [extraTotal, extraDelta, List.map_append, List.map_map, List.sum_append,
    Function.comp_def] at *
  omega

/-- After a debit the ledger of the call is the meter, key by key. -/
theorem rowTotals_self (h : Debited m db db' r call existing ds day) (k : UsageKey) :
    rowTotals (db'.ledgerOf m.callId) k = totalsAt m.slices k := by
  rw [h.ledgerOf_self, rowTotals_append, rowTotals_segments _ _ h.deltas, rowTotals_eq h.rows]
  simp [deltaAt, totalsAt]

end Debited

namespace Replayed

variable {m : ConnectedMeter} {db db' : VoiceDb} {r : Settlement}

theorem ledger_eq (h : Replayed m db db' r) : db'.ledger = db.ledger := by
  obtain ⟨call, -, -, rfl⟩ := h.call
  rfl

theorem account_eq (h : Replayed m db db' r) (user : UserId) :
    db'.account user = db.account user := by
  obtain ⟨call, -, -, rfl⟩ := h.call
  rfl

theorem call_of_other (h : Replayed m db db' r) {id : CallId} (hid : id ≠ m.callId) :
    db'.call id = db.call id := by
  obtain ⟨call, -, -, rfl⟩ := h.call
  exact (VoiceDb.call_putCall _ _ _ _).trans (if_neg hid)

/-- A replayed ledger already was the meter, key by key. -/
theorem rowTotals_self (h : Replayed m db db' r) (k : UsageKey) :
    rowTotals (db'.ledgerOf m.callId) k = totalsAt m.slices k := by
  obtain ⟨existing, hrows, hsame⟩ := h.same
  rw [VoiceDb.ledgerOf, h.ledger_eq, totalsAt_eq_of_sameUsage hsame]
  exact rowTotals_eq hrows k

end Replayed

end CompanionBackend.VoiceQuota
