import CompanionBackend.VoiceQuota

/-!
# Filing usage into slices

`_append` extends the last slice of a meter or opens a new one, so filing two
amounts under one key is filing their sum. The grace loop files whole seconds
under the day each begins in, and composes the same way.
-/
namespace CompanionBackend.VoiceQuota

open Runs KeyedSums ShanghaiClock VoiceModels

/-- The slice with more usage under its key. -/
def UsageSlice.extend (row : UsageSlice) (secs free extra : ℤ) : UsageSlice :=
  { row with
    durationSeconds := row.durationSeconds + secs
    freeSecondsUsed := row.freeSecondsUsed + free
    extraSecondsUsed := row.extraSecondsUsed + extra }

@[simp] theorem UsageSlice.extend_key (row : UsageSlice) (secs free extra : ℤ) :
    (row.extend secs free extra).key = row.key := rfl

theorem UsageSlice.extend_extend (row : UsageSlice) (secs free extra secs' free' extra' : ℤ) :
    (row.extend secs free extra).extend secs' free' extra' =
      row.extend (secs + secs') (free + free') (extra + extra') := by
  simp [UsageSlice.extend, add_assoc]

@[simp] theorem append_zero (slices : List UsageSlice) (day : ℤ) (kind : UsageType)
    (free extra : ℤ) : append slices day kind 0 free extra = slices := by
  simp [append]

/-- Every append under one key extends one slice: the last one, or an empty new one. -/
theorem append_spec (slices : List UsageSlice) (day : ℤ) (kind : UsageType) :
    ∃ init row, row.key = (day, kind) ∧
      (∀ secs free extra, secs ≠ 0 →
        append slices day kind secs free extra = init ++ [row.extend secs free extra]) ∧
      (slices = init ++ [row] ∨ slices = init ∧ row = ⟨day, kind, 0, 0, 0⟩) := by
  have hnew : ∀ secs free extra, (⟨day, kind, secs, free, extra⟩ : UsageSlice) =
      (⟨day, kind, 0, 0, 0⟩ : UsageSlice).extend secs free extra := by
    simp [UsageSlice.extend]
  rcases List.eq_nil_or_concat slices with rfl | ⟨init, row, rfl⟩
  · refine ⟨[], ⟨day, kind, 0, 0, 0⟩, rfl, fun secs free extra h => ?_, .inr ⟨rfl, rfl⟩⟩
    simp [append, h, hnew secs]
  · by_cases hkey : row.quotaDate = day ∧ row.usageType = kind
    · refine ⟨init, row, Prod.ext hkey.1 hkey.2, fun secs free extra h => ?_, .inl (by simp)⟩
      simp [append, h, hkey, UsageSlice.extend]
    · refine ⟨init ++ [row], ⟨day, kind, 0, 0, 0⟩, rfl, fun secs free extra h => ?_,
        .inr ⟨by simp, rfl⟩⟩
      simp [append, h, hkey, hnew secs]

/-- Filing twice under one key is filing the sum. -/
theorem append_append (slices : List UsageSlice) (day : ℤ) (kind : UsageType)
    {secs free extra secs' free' extra' : ℤ} (hsecs : 0 ≤ secs) (hsecs' : 0 ≤ secs')
    (hzero : secs = 0 → free = 0 ∧ extra = 0) (hzero' : secs' = 0 → free' = 0 ∧ extra' = 0) :
    append (append slices day kind secs free extra) day kind secs' free' extra' =
      append slices day kind (secs + secs') (free + free') (extra + extra') := by
  by_cases h : secs = 0
  · obtain ⟨rfl, rfl⟩ := hzero h
    simp [h]
  · by_cases h' : secs' = 0
    · obtain ⟨rfl, rfl⟩ := hzero' h'
      simp [h']
    · obtain ⟨init, row, hkey, happend, -⟩ := append_spec slices day kind
      obtain ⟨hday, hkind⟩ := Prod.mk.inj hkey
      rw [happend _ _ _ h, happend _ _ _ (show secs + secs' ≠ 0 by omega),
        ← UsageSlice.extend_extend]
      simp [append, h', UsageSlice.extend, hday, hkind]

/-- A counter summed over the slices that pass a test on their keys. -/
theorem sumWhere_append_usage (slices : List UsageSlice) (day : ℤ) (kind : UsageType)
    {secs free extra : ℤ} (hzero : secs = 0 → free = 0 ∧ extra = 0) (q : UsageKey → Bool)
    (f : UsageSlice → ℤ)
    (hadd : ∀ row : UsageSlice,
      f (row.extend secs free extra) = f row + f ⟨day, kind, secs, free, extra⟩)
    (hempty : f ⟨day, kind, 0, 0, 0⟩ = 0) :
    sumWhere (fun s => q s.key) f (append slices day kind secs free extra) =
      sumWhere (fun s => q s.key) f slices +
        if q (day, kind) then f ⟨day, kind, secs, free, extra⟩ else 0 := by
  by_cases h : secs = 0
  · obtain ⟨rfl, rfl⟩ := hzero h
    subst h
    simp [hempty]
  · obtain ⟨init, row, hkey, happend, hold⟩ := append_spec slices day kind
    have hslices : sumWhere (fun s => q s.key) f slices =
        sumWhere (fun s => q s.key) f (init ++ [row]) := by
      rcases hold with rfl | ⟨rfl, rfl⟩
      · rfl
      · simp [sumWhere_cons, hempty]
    rw [happend _ _ _ h, hslices]
    simp only [sumWhere_append, sumWhere_cons, sumWhere_nil, UsageSlice.extend_key, hkey, hadd]
    split_ifs <;> omega

theorem freeOn_append (slices : List UsageSlice) (day : ℤ) (kind : UsageType)
    {secs free extra : ℤ} (hzero : secs = 0 → free = 0 ∧ extra = 0) (day' : ℤ) :
    freeOn (append slices day kind secs free extra) day' =
      freeOn slices day' + if day' = day then free else 0 := by
  have h := sumWhere_append_usage slices day kind hzero (fun k => decide (k.1 = day'))
    (·.freeSecondsUsed) (fun _ => rfl) rfl
  simpa [freeOn, UsageSlice.key, eq_comm] using h

theorem extraTotal_append (slices : List UsageSlice) (day : ℤ) (kind : UsageType)
    {secs free extra : ℤ} (hzero : secs = 0 → free = 0 ∧ extra = 0) :
    extraTotal (append slices day kind secs free extra) = extraTotal slices + extra := by
  have h := sumWhere_append_usage slices day kind hzero (fun _ => true) (·.extraSecondsUsed)
    (fun _ => rfl) rfl
  simpa only [sumWhere_true, extraTotal, if_true] using h

theorem billed_append (slices : List UsageSlice) (day : ℤ) (kind : UsageType)
    {secs free extra : ℤ} (hzero : secs = 0 → free = 0 ∧ extra = 0) (kind' : UsageType) :
    billed kind' (append slices day kind secs free extra) =
      billed kind' slices + if kind' = kind then secs else 0 := by
  have h := sumWhere_append_usage slices day kind hzero (fun k => decide (k.2 = kind'))
    (·.durationSeconds) (fun _ => rfl) rfl
  simpa [billed, UsageSlice.key, eq_comm] using h

/-- A property of slices survives an append that keeps it on the slice it writes. -/
theorem append_forall {P : UsageSlice → Prop} {slices : List UsageSlice} {day : ℤ}
    {kind : UsageType} {secs free extra : ℤ} (h : ∀ s ∈ slices, P s)
    (hnew : secs ≠ 0 → P ⟨day, kind, secs, free, extra⟩)
    (hextend : ∀ row ∈ slices, row.key = (day, kind) → P (row.extend secs free extra)) :
    ∀ s ∈ append slices day kind secs free extra, P s := by
  by_cases hsecs : secs = 0
  · subst hsecs
    simpa using h
  · obtain ⟨init, row, hkey, happend, hold⟩ := append_spec slices day kind
    rw [happend _ _ _ hsecs]
    intro s hs
    rcases List.mem_append.mp hs with hs | hs
    · rcases hold with rfl | ⟨rfl, -⟩
      · exact h s (List.mem_append_left _ hs)
      · exact h s hs
    · obtain rfl := List.mem_singleton.mp hs
      rcases hold with rfl | ⟨rfl, rfl⟩
      · exact hextend row (by simp) hkey
      · simpa [UsageSlice.extend] using hnew hsecs

/-- An append adds at most one entry to the list of types. -/
theorem append_types (slices : List UsageSlice) (day : ℤ) (kind : UsageType)
    (secs free extra : ℤ) :
    (append slices day kind secs free extra).map (·.usageType) = slices.map (·.usageType) ∨
      (append slices day kind secs free extra).map (·.usageType) =
        slices.map (·.usageType) ++ [kind] := by
  by_cases hsecs : secs = 0
  · subst hsecs
    simp
  · obtain ⟨init, row, hkey, happend, hold⟩ := append_spec slices day kind
    rw [happend _ _ _ hsecs]
    rcases hold with rfl | ⟨rfl, rfl⟩
    · exact .inl (by simp [UsageSlice.extend])
    · exact .inr (by simp [UsageSlice.extend])

/-- No append under another key changes the totals of a key. -/
theorem totalsAt_append (slices : List UsageSlice) (day : ℤ) (kind : UsageType)
    {secs free extra : ℤ} (hzero : secs = 0 → free = 0 ∧ extra = 0) (k : UsageKey) :
    totalsAt (append slices day kind secs free extra) k =
      ⟨(totalsAt slices k).duration + if (day, kind) = k then secs else 0,
        (totalsAt slices k).free + (if (day, kind) = k then free else 0),
        (totalsAt slices k).extra + if (day, kind) = k then extra else 0⟩ := by
  have hsum := fun (f : UsageSlice → ℤ) hadd hempty =>
    sumWhere_append_usage slices day kind hzero (fun k' => decide (k' = k)) f hadd hempty
  have hdur := hsum (·.durationSeconds) (fun _ => rfl) rfl
  have hfree := hsum (·.freeSecondsUsed) (fun _ => rfl) rfl
  have hextra := hsum (·.extraSecondsUsed) (fun _ => rfl) rfl
  simp only [decide_eq_true_eq] at hdur hfree hextra
  exact congr (congr (congrArg Totals.mk hdur) hfree) hextra

/-- Seconds from `cursor` that begin before midnight. -/
def secondsToday (cursor : ℤ) : ℤ := max 1 ⌈seconds (nextMidnight cursor - cursor)⌉

theorem secondsToday_eq (cursor : ℤ) :
    secondsToday cursor = (nextMidnight cursor - cursor + 999999) / 1000000 := by
  have := lt_nextMidnight cursor
  unfold secondsToday
  rw [ceil_seconds]
  omega

theorem fileGrace_zero (slices : List UsageSlice) (cursor : ℤ) :
    fileGrace slices cursor 0 = slices := by
  rw [fileGrace, if_pos rfl]

theorem fileGrace_of_ne {left : ℤ} (h : left ≠ 0) (slices : List UsageSlice) (cursor : ℤ) :
    fileGrace slices cursor left =
      fileGrace (append slices (shanghaiDay cursor) .grace (min left (secondsToday cursor)) 0 0)
        (cursor + min left (secondsToday cursor) * 1000000)
        (left - min left (secondsToday cursor)) := by
  rw [fileGrace, if_neg h]
  rfl

/-- What every append of whole grace seconds keeps, filing grace keeps. -/
theorem fileGrace_induct {P : List UsageSlice → Prop} (cursor left : ℤ) (hleft : 0 ≤ left)
    (hstep : ∀ slices c secs, P slices → 0 < secs → cursor ≤ c →
      c + secs * 1000000 ≤ cursor + left * 1000000 →
      P (append slices (shanghaiDay c) .grace secs 0 0))
    {slices : List UsageSlice} (h : P slices) : P (fileGrace slices cursor left) := by
  by_cases hzero : left = 0
  · subst hzero
    rwa [fileGrace_zero]
  · have htoday : 1 ≤ secondsToday cursor := le_max_left _ _
    rw [fileGrace_of_ne hzero]
    refine fileGrace_induct _ _ (by omega) (fun s c secs hs hsecs hc hend => ?_)
      (hstep slices cursor _ h (by omega) le_rfl (by omega))
    exact hstep s c secs hs hsecs (by omega) (by omega)
termination_by left.toNat
decreasing_by
  omega

theorem billed_fileGrace (slices : List UsageSlice) (cursor left : ℤ) (hleft : 0 ≤ left) :
    billed .grace (fileGrace slices cursor left) = billed .grace slices + left := by
  by_cases hzero : left = 0
  · subst hzero
    rw [fileGrace_zero, add_zero]
  · have htoday : 1 ≤ secondsToday cursor := le_max_left _ _
    rw [fileGrace_of_ne hzero, billed_fileGrace _ _ _ (by omega),
      billed_append _ _ _ fun _ => ⟨rfl, rfl⟩, if_pos rfl]
    omega
termination_by left.toNat
decreasing_by
  omega

/-- Filing grace twice, one after the other, is filing the sum. -/
theorem fileGrace_add (slices : List UsageSlice) (cursor left more : ℤ) (hleft : 0 ≤ left)
    (hmore : 0 ≤ more) :
    fileGrace (fileGrace slices cursor left) (cursor + left * 1000000) more =
      fileGrace slices cursor (left + more) := by
  by_cases hzero : left = 0
  · subst hzero
    simp [fileGrace_zero]
  · by_cases hnone : more = 0
    · subst hnone
      simp [fileGrace_zero]
    · have htoday := secondsToday_eq cursor
      have hmidnight := lt_nextMidnight cursor
      by_cases hin : left < secondsToday cursor
      · -- The second filing begins on the same day.
        have hday : shanghaiDay (cursor + left * 1000000) = shanghaiDay cursor :=
          shanghaiDay_eq_of_lt (by omega) (by omega)
        have hnext : nextMidnight (cursor + left * 1000000) = nextMidnight cursor :=
          nextMidnight_eq_of_lt (by omega) (by omega)
        have htoday' : secondsToday (cursor + left * 1000000) = secondsToday cursor - left := by
          rw [secondsToday_eq, hnext]
          omega
        rw [fileGrace_of_ne hzero, min_eq_left hin.le, sub_self, fileGrace_zero,
          fileGrace_of_ne hnone, fileGrace_of_ne (show left + more ≠ 0 by omega), hday, htoday',
          append_append _ _ _ hleft (by omega) (fun _ => ⟨rfl, rfl⟩) fun _ => ⟨rfl, rfl⟩]
        have hmin : left + min more (secondsToday cursor - left) =
            min (left + more) (secondsToday cursor) := by
          omega
        rw [hmin]
        congr 1 <;> omega
      · have htoday1 : 1 ≤ secondsToday cursor := le_max_left _ _
        have ih := fileGrace_add (append slices (shanghaiDay cursor) .grace (secondsToday cursor) 0 0)
          (cursor + secondsToday cursor * 1000000) (left - secondsToday cursor) more (by omega) hmore
        rw [fileGrace_of_ne hzero, fileGrace_of_ne (show left + more ≠ 0 by omega),
          min_eq_right (by omega : secondsToday cursor ≤ left),
          min_eq_right (by omega : secondsToday cursor ≤ left + more)]
        rw [show left + more - secondsToday cursor = left - secondsToday cursor + more by ring, ← ih]
        congr 1
        ring
termination_by left.toNat
decreasing_by
  omega

end CompanionBackend.VoiceQuota
