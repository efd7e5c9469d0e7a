import CompanionBackend.LifePlanner

/-!
# A ready plan is kept

A run looks whether the plan is ready before it asks the model, and writes whatever came of it. While
no run has something to write to a row that is ready by then, rows that are ready stay as they are.
Two runs that overlap can break this: the slower one fails and takes the scenes away.
-/
namespace CompanionBackend.ReadyPlans

open Runs TaskSystems TaskSystem ProviderEvents Dictionaries LifePlanner

variable {F : Formats}

/-! ### What is accepted of an answer -/

theorem mapM_zipIdx_ok {α β ε : Type} {f : ℕ → α → Except ε β} {xs : List α} {k : ℕ} {ys : List β}
    (h : ((xs.zipIdx k).mapM fun p => f p.2 p.1) = .ok ys) :
    ys.length = xs.length ∧ ∀ i y, ys[i]? = some y → ∃ x, f (k + i) x = .ok y := by
  induction xs generalizing k ys with
  | nil =>
    obtain rfl : [] = ys := Except.ok.inj h
    exact ⟨rfl, by simp⟩
  | cons x xs ih =>
    rw [List.zipIdx_cons, List.mapM_cons] at h
    obtain ⟨y, hy, h⟩ := bind_eq_ok.mp h
    obtain ⟨rest, hrest, h⟩ := bind_eq_ok.mp h
    obtain rfl := Except.ok.inj h
    obtain ⟨hlength, hall⟩ := ih hrest
    refine ⟨by simp [hlength], fun i z hz => ?_⟩
    cases i with
    | zero =>
      obtain rfl : y = z := by simpa using hz
      exact ⟨x, hy⟩
    | succ i =>
      obtain ⟨x', hx'⟩ := hall i z (by simpa using hz)
      exact ⟨x', by rwa [show k + (i + 1) = k + 1 + i by omega]⟩

theorem sceneId_inj {planDate i j : ℕ} (hi : i < 5) (hj : j < 5)
    (h : sceneId F planDate (i + 1) = sceneId F planDate (j + 1)) : i = j := by
  have hpads : ∀ i j : Fin 5, (Nat.toDigits 10 (i.val + 1)).leftpad 3 '0' =
      (Nat.toDigits 10 (j.val + 1)).leftpad 3 '0' → i.val = j.val := by decide
  have hrest := List.append_cancel_left h
  exact hpads ⟨i, hi⟩ ⟨j, hj⟩ (List.cons.inj hrest).2

theorem validateScene_ok {planDate i : ℕ} {city : Text} {categories : List Text} {item : Json}
    {s : Scene} (h : validateScene F planDate city categories i item = .ok s) :
    s.sceneId = sceneId F planDate (i + 1) ∧ s.city = city ∧ s.category ∈ categories := by
  unfold validateScene at h
  obtain ⟨_, -, h⟩ := bind_eq_ok.mp h
  obtain ⟨times, -, h⟩ := bind_eq_ok.mp h
  obtain ⟨start, -, h⟩ := bind_eq_ok.mp h
  obtain ⟨stop, -, h⟩ := bind_eq_ok.mp h
  obtain ⟨_, -, h⟩ := bind_eq_ok.mp h
  obtain ⟨_, -, h⟩ := bind_eq_ok.mp h
  obtain ⟨_, hcity, h⟩ := bind_eq_ok.mp h
  obtain ⟨_, hcategory, h⟩ := bind_eq_ok.mp h
  obtain ⟨_, -, h⟩ := bind_eq_ok.mp h
  obtain ⟨_, -, h⟩ := bind_eq_ok.mp h
  obtain rfl := Except.ok.inj h
  exact ⟨rfl, require_eq_ok.mp hcity, require_eq_ok.mp hcategory⟩

/-- What a ready plan has, and the row of the outline it was made from. -/
structure ReadyPlan (outlines : List OutlineRow) (planDate : ℕ) (scenes : List Scene) : Prop where
  count : 2 ≤ scenes.length ∧ scenes.length ≤ 5
  ids : (scenes.map (·.sceneId)).Nodup
  outline : ∃ o ∈ outlines, o.planDate = planDate ∧
    ∀ s ∈ scenes, s.city = o.city ∧ s.category ∈ splitLines o.categories

theorem validateScenes_ok {data : Json} {o : OutlineRow} {outlines : List OutlineRow}
    {scenes : List Scene} (ho : o ∈ outlines)
    (h : validateScenes F data o.planDate o.city (splitLines o.categories) = .ok scenes) :
    ReadyPlan outlines o.planDate scenes := by
  unfold validateScenes at h
  split at h
  · rename_i items hitems
    obtain ⟨_, hcount, h⟩ := bind_eq_ok.mp h
    obtain ⟨hlength, hall⟩ := mapM_zipIdx_ok
      (f := validateScene F o.planDate o.city (splitLines o.categories)) h
    have hcount : 2 ≤ items.length ∧ items.length ≤ 5 := require_eq_ok.mp hcount
    have hscene : ∀ i s, scenes[i]? = some s → s.sceneId = sceneId F o.planDate (i + 1) ∧
        s.city = o.city ∧ s.category ∈ splitLines o.categories := by
      intro i s hs
      obtain ⟨item, hitem⟩ := hall i s hs
      rw [zero_add] at hitem
      exact validateScene_ok hitem
    refine ⟨by omega, ?_, o, ho, rfl, fun s hs => ?_⟩
    · refine List.nodup_iff_getElem?_ne_getElem?.mpr fun i j hij hj heq => ?_
      rw [List.length_map] at hj
      have hi : i < scenes.length := hij.trans hj
      rw [List.getElem?_map, List.getElem?_map, List.getElem?_eq_getElem hi,
        List.getElem?_eq_getElem hj, Option.map_some, Option.map_some, Option.some.injEq,
        (hscene i _ (List.getElem?_eq_getElem hi)).1,
        (hscene j _ (List.getElem?_eq_getElem hj)).1] at heq
      have := sceneId_inj (by omega) (by omega) heq
      omega
    · obtain ⟨i, hi⟩ := List.mem_iff_getElem?.mp hs
      exact (hscene i s hi).2
  · cases h

/-- The rows of a run of `generate_week_outline`: all the days it was asked for. -/
structure WholeWeek (c : WeekCall) (rows : List OutlineRow) : Prop where
  count : (rows.length : ℤ) = c.daysCount
  dates : rows.map (·.planDate) = (List.range rows.length).map fun i => c.planStartDate + i
  week : ∀ row ∈ rows, row.weekStartDate = c.weekStartDate ∧ row.manual = c.isManual

theorem checkDates_ok {start i : ℕ} {days : List (ℕ × Text × Text)}
    (h : checkDates start i days = .ok ()) :
    days.map (·.1) = (List.range days.length).map fun k => start + (i + k) := by
  induction days generalizing i with
  | nil => rfl
  | cons day days ih =>
    obtain ⟨_, hday, h⟩ := bind_eq_ok.mp h
    rw [List.map_cons, ih h, List.length_cons, List.range_succ_eq_map, List.map_cons, List.map_map]
    refine congrArg₂ List.cons (require_eq_ok.mp hday) (List.map_congr_left fun k _ => ?_)
    simp only [Function.comp_apply]
    omega

theorem weekAnswer_ok {c : WeekCall} {vocab : List Text} {raw : Option Text} {rows : List OutlineRow}
    (h : weekAnswer F c vocab raw = .ok rows) : WholeWeek c rows := by
  unfold weekAnswer at h
  obtain ⟨raw, -, h⟩ := bind_eq_ok.mp h
  obtain ⟨data, -, h⟩ := bind_eq_ok.mp h
  obtain ⟨days, hdays, h⟩ := bind_eq_ok.mp h
  obtain rfl := Except.ok.inj h
  unfold validateOutline at hdays
  split at hdays
  · rename_i items hitems
    obtain ⟨_, hcount, hdays⟩ := bind_eq_ok.mp hdays
    obtain ⟨normalized, hnormalized, hdays⟩ := bind_eq_ok.mp hdays
    obtain ⟨_, hdates, hdays⟩ := bind_eq_ok.mp hdays
    obtain rfl := Except.ok.inj hdays
    obtain ⟨hlength, -⟩ := mapM_zipIdx_ok (f := validateDay F vocab) hnormalized
    have hdates := checkDates_ok hdates
    refine ⟨?_, ?_, fun row hrow => ?_⟩
    · rw [WeekCall.rows, List.length_map, hlength]
      exact require_eq_ok.mp hcount
    · simpa [WeekCall.rows, Function.comp_def] using hdates
    · obtain ⟨day, -, rfl⟩ := List.mem_map.mp hrow
      exact ⟨rfl, rfl⟩
  · cases hdays

/-! ### Writing to a ready row -/

/-- The columns that are written to a ready row have these values already. -/
def Harmless (found : PlanRow) (scenes : List Scene) (status : GenStatus) (p : PlanRow) : Prop :=
  (scenes = found.scenes ∨ scenes = p.scenes) ∧ (status = found.genStatus ∨ status = .ready)

instance (found : PlanRow) (scenes : List Scene) (status : GenStatus) (p : PlanRow) :
    Decidable (Harmless found scenes status p) := by
  unfold Harmless
  infer_instance

/-- No run changes a row of its date that is ready by then. -/
def Unspoiled (d : PlannerData) : PlannerTask → PlannerInput → Prop
  | .day date (.saving (some found) scenes status _), .commit =>
    ∀ p ∈ d.plans, p.planDate = date → p.genStatus = .ready → Harmless found scenes status p
  | _, _ => True

instance (d : PlannerData) (t : PlannerTask) (i : PlannerInput) : Decidable (Unspoiled d t i) := by
  unfold Unspoiled
  split <;> infer_instance

theorem written_eq_iff {found p : PlanRow} {scenes : List Scene} {status : GenStatus}
    (hready : p.genStatus = .ready) :
    PlannerData.written found scenes status p = p ↔ Harmless found scenes status p := by
  obtain ⟨date, rowScenes, rowStatus⟩ := p
  obtain rfl : rowStatus = .ready := hready
  unfold PlannerData.written Harmless
  split_ifs with hscenes hstatus hstatus <;> simp_all

/-- What a run writes: the scenes of a ready plan, or none. -/
def Content (outlines : List OutlineRow) (planDate : ℕ) (scenes : List Scene) (status : GenStatus) :
    Prop :=
  (status = .failed ∧ scenes = []) ∨ (status = .ready ∧ ReadyPlan outlines planDate scenes)

theorem ReadyPlan.mono {outlines outlines' : List OutlineRow} {date : ℕ} {scenes : List Scene}
    (h : ReadyPlan outlines date scenes) (hsub : ∀ o ∈ outlines, o ∈ outlines') :
    ReadyPlan outlines' date scenes := by
  obtain ⟨o, ho, hrest⟩ := h.outline
  exact ⟨h.count, h.ids, o, hsub o ho, hrest⟩

theorem Content.mono {outlines outlines' : List OutlineRow} {date : ℕ} {scenes : List Scene}
    {status : GenStatus} (h : Content outlines date scenes status)
    (hsub : ∀ o ∈ outlines, o ∈ outlines') : Content outlines' date scenes status :=
  h.imp id fun h => ⟨h.1, h.2.mono hsub⟩

structure DataOk (d : PlannerData) : Prop where
  plans : ∀ p ∈ d.plans, Content d.outlines p.planDate p.scenes p.genStatus
  planDates : (d.plans.map (·.planDate)).Nodup
  outlineDates : (d.outlines.map (·.planDate)).Nodup
  weeks : d.outlines = d.weeks.flatMap (·.2)
  whole : ∀ x ∈ d.weeks, WholeWeek x.1 x.2

/-- A row that was found has failed, or is still there. -/
def Found (d : PlannerData) (planDate : ℕ) (row : PlanRow) : Prop :=
  row.planDate = planDate ∧ ((row.genStatus = .failed ∧ row.scenes = []) ∨
    row.genStatus = .ready ∧ row ∈ d.plans)

def TaskOk (d : PlannerData) : PlannerTask → Prop
  | .day date (.outlined o) | .day date (.asking o) => o ∈ d.outlines ∧ o.planDate = date
  | .day date (.upserting scenes status _) => Content d.outlines date scenes status
  | .day date (.saving found scenes status _) =>
    Content d.outlines date scenes status ∧ ∀ row ∈ found, Found d date row
  | .week c (.saving rows) => WholeWeek c rows
  | _ => True

/-- What every step leaves: the outlines, and the plans that are ready. -/
structure Keeps (d d' : PlannerData) : Prop where
  outlines : ∀ o ∈ d.outlines, o ∈ d'.outlines
  ready : ∀ p ∈ d.plans, p.genStatus = .ready → p ∈ d'.plans

theorem Keeps.refl (d : PlannerData) : Keeps d d := ⟨fun _ h => h, fun _ h _ => h⟩

theorem TaskOk.kept {d d' : PlannerData} {t : PlannerTask} (h : TaskOk d t) (hk : Keeps d d') :
    TaskOk d' t := by
  cases t with
  | day date phase =>
    cases phase with
    | outlined o => exact ⟨hk.outlines o h.1, h.2⟩
    | asking o => exact ⟨hk.outlines o h.1, h.2⟩
    | upserting scenes status result => exact Content.mono h hk.outlines
    | saving found scenes status result =>
      refine ⟨h.1.mono hk.outlines, fun row hrow => ?_⟩
      obtain ⟨hdate, hrow⟩ := h.2 row hrow
      exact ⟨hdate, hrow.imp id fun hr => ⟨hr.1, hk.ready row hr.2 hr.1⟩⟩
    | _ => trivial
  | week c phase =>
    cases phase with
    | saving rows => exact h
    | _ => trivial

/-! ### Steps -/

section Steps

variable {d : PlannerData}

theorem plan_unique (hd : DataOk d) {p q : PlanRow} (hp : p ∈ d.plans) (hq : q ∈ d.plans)
    (h : p.planDate = q.planDate) : p = q :=
  List.inj_on_of_nodup_map hd.planDates hp hq h

theorem planOf_eq_some {date : ℕ} {p : PlanRow} (h : d.planOf date = some p) :
    p ∈ d.plans ∧ p.planDate = date :=
  ⟨List.mem_of_find?_eq_some h, by simpa using List.find?_some h⟩

/-- A row of the date stays as it is, or gets all of what the run writes. -/
theorem written_cases {date : ℕ} {row p : PlanRow} {scenes : List Scene} {status : GenStatus}
    (hd : DataOk d) (hrow : Found d date row) (hp : p ∈ d.plans) (hdate : p.planDate = date)
    (hok : p.genStatus = .ready → Harmless row scenes status p) :
    PlannerData.written row scenes status p = p ∨
      p.genStatus ≠ .ready ∧ PlannerData.written row scenes status p = ⟨date, scenes, status⟩ := by
  rcases hd.plans p hp with ⟨hfailed, hnone⟩ | ⟨hready, -⟩
  · refine .inr ⟨by simp [hfailed], ?_⟩
    have hsame : row.genStatus = .failed ∧ row.scenes = [] := by
      rcases hrow.2 with hrow' | ⟨hready, hmem⟩
      · exact hrow'
      · rw [plan_unique hd hmem hp (hrow.1.trans hdate.symm), hfailed] at hready
        cases hready
    subst hdate
    unfold PlannerData.written
    rw [hsame.1, hsame.2, hfailed, hnone]
    split_ifs with hscenes hstatus hstatus <;> simp_all
  · exact .inl ((written_eq_iff hready).mpr (hok hready))

/-- One row per date is left when a row is written. -/
theorem upsert_found_ok {date : ℕ} {row : PlanRow} {scenes : List Scene} {status : GenStatus}
    (hd : DataOk d) (hcontent : Content d.outlines date scenes status) (hrow : Found d date row)
    (hok : ∀ p ∈ d.plans, p.planDate = date → p.genStatus = .ready → Harmless row scenes status p) :
    DataOk { d with
        plans := d.plans.map fun p =>
          if p.planDate = date then PlannerData.written row scenes status p else p } ∧
      Keeps d { d with
        plans := d.plans.map fun p =>
          if p.planDate = date then PlannerData.written row scenes status p else p } := by
  have hdates : ∀ p : PlanRow, (if p.planDate = date then PlannerData.written row scenes status p
      else p).planDate = p.planDate := by
    intro p
    split_ifs <;> rfl
  refine ⟨⟨fun q hq => ?_, ?_, hd.outlineDates, hd.weeks, hd.whole⟩, ⟨fun _ h => h, fun p hp hready => ?_⟩⟩
  · obtain ⟨p, hp, rfl⟩ := List.mem_map.mp hq
    split_ifs with hdate
    · rcases written_cases hd hrow hp hdate (hok p hp hdate) with hsame | ⟨-, hnew⟩
      · rw [hsame]
        exact hd.plans p hp
      · rw [hnew]
        exact hcontent
    · exact hd.plans p hp
  · rw [List.map_map]
    exact (List.map_congr_left fun p _ => hdates p) ▸ hd.planDates
  · refine List.mem_map.mpr ⟨p, hp, ?_⟩
    split_ifs with hdate
    · rcases written_cases hd hrow hp hdate (hok p hp hdate) with hsame | ⟨hnot, -⟩
      · exact hsame
      · exact absurd hready hnot
    · rfl

/-- A commit loses a ready plan just when it changes it. -/
theorem kept_iff {d' : PlannerData} {row p : PlanRow} {scenes : List Scene} {status : GenStatus}
    (hd : DataOk d) (h : d.upsert p.planDate (some row) scenes status = some d') (hp : p ∈ d.plans)
    (hready : p.genStatus = .ready) : p ∈ d'.plans ↔ Harmless row scenes status p := by
  obtain rfl := Option.some.inj h
  rw [← written_eq_iff hready]
  constructor
  · intro hmem
    obtain ⟨q, hq, heq⟩ := List.mem_map.mp hmem
    have hdate : q.planDate = p.planDate := by
      rw [← heq]
      split_ifs <;> rfl
    obtain rfl := plan_unique hd hq hp hdate
    rwa [if_pos rfl] at heq
  · intro hsame
    exact List.mem_map.mpr ⟨p, hp, by rw [if_pos rfl, hsame]⟩

theorem upsert_ok {d' : PlannerData} {date : ℕ} {found : Option PlanRow} {scenes : List Scene}
    {status : GenStatus} {result : DayResult} (hd : DataOk d)
    (ht : TaskOk d (.day date (.saving found scenes status result)))
    (hok : Unspoiled d (.day date (.saving found scenes status result)) .commit)
    (h : d.upsert date found scenes status = some d') : DataOk d' ∧ Keeps d d' := by
  obtain ⟨hcontent, hfound⟩ := ht
  cases found with
  | some row =>
    obtain rfl := Option.some.inj h
    exact upsert_found_ok hd hcontent (hfound row rfl) hok
  | none =>
    simp only [PlannerData.upsert] at h
    split_ifs at h with hnone
    obtain rfl := Option.some.inj h
    have hfresh : ∀ p ∈ d.plans, p.planDate ≠ date := by
      intro p hp hdate
      refine hnone (List.find?_isSome.mpr ⟨p, hp, decide_eq_true hdate⟩)
    refine ⟨⟨fun p hp => ?_, ?_, hd.outlineDates, hd.weeks, hd.whole⟩,
      ⟨fun _ h => h, fun p hp _ => List.mem_append_left _ hp⟩⟩
    · rcases List.mem_append.mp hp with hp | hp
      · exact hd.plans p hp
      · rw [List.mem_singleton.mp hp]
        exact hcontent
    · rw [List.map_append]
      refine List.Nodup.append hd.planDates (List.nodup_singleton _) ?_
      intro x hx hdate
      obtain ⟨p, hp, rfl⟩ := List.mem_map.mp hx
      exact hfresh p hp (by simpa using hdate)

theorem storeWeek_ok {d' : PlannerData} {c : WeekCall} {rows : List OutlineRow} (hd : DataOk d)
    (hrows : WholeWeek c rows) (h : d.storeWeek c rows = some d') : DataOk d' ∧ Keeps d d' := by
  unfold PlannerData.storeWeek at h
  split_ifs at h with hstore
  obtain rfl := Option.some.inj h
  have hsub : ∀ o ∈ d.outlines, o ∈ d.outlines ++ rows := fun o ho => List.mem_append_left _ ho
  refine ⟨⟨fun p hp => (hd.plans p hp).mono hsub, hd.planDates, ?_, ?_, fun x hx => ?_⟩,
    ⟨hsub, fun _ h _ => h⟩⟩
  · rw [List.map_append]
    refine List.Nodup.append hd.outlineDates hstore.2 ?_
    intro date hold hnew
    obtain ⟨row, hrow, rfl⟩ := List.mem_map.mp hnew
    obtain ⟨o, ho, hdate⟩ := List.mem_map.mp hold
    have hnone := (hstore.1 row hrow).1
    rw [PlannerData.outlineOf, Option.isNone_iff_eq_none, List.find?_eq_none] at hnone
    exact hnone o ho (decide_eq_true hdate)
  · rw [List.flatMap_append, ← hd.weeks]
    simp
  · rcases List.mem_append.mp hx with hx | hx
    · exact hd.whole x hx
    · rw [List.mem_singleton.mp hx]
      exact hrows

theorem outlineOf_eq_some {date : ℕ} {o : OutlineRow} (h : d.outlineOf date = some o) :
    o ∈ d.outlines ∧ o.planDate = date :=
  ⟨List.mem_of_find?_eq_some h, by simpa using List.find?_some h⟩

theorem dayAnswer_ok {date : ℕ} {o : OutlineRow} {raw : Option Text} (ho : o ∈ d.outlines)
    (hdate : o.planDate = date) : TaskOk d (.day date (dayPhaseOf (dayAnswer F date o raw))) := by
  cases h : dayAnswer F date o raw with
  | error reason => exact .inl ⟨rfl, rfl⟩
  | ok scenes =>
    unfold dayAnswer at h
    obtain ⟨raw, -, h⟩ := bind_eq_ok.mp h
    obtain ⟨data, -, h⟩ := bind_eq_ok.mp h
    rw [mapError_eq_ok] at h
    subst hdate
    exact .inr ⟨rfl, validateScenes_ok ho h⟩

theorem found_of_planOf {date : ℕ} (hd : DataOk d) : ∀ row ∈ d.planOf date, Found d date row := by
  intro row hrow
  obtain ⟨hmem, hdate⟩ := planOf_eq_some hrow
  exact ⟨hdate, (hd.plans row hmem).imp id fun h => ⟨h.1, hmem⟩⟩

/-- One step of one run. -/
theorem advance_ok {d' : PlannerData} {t t' : PlannerTask} {i : PlannerInput} (hd : DataOk d)
    (ht : TaskOk d t) (hok : Unspoiled d t i) (h : advancePlanner F d t i = some (d', t')) :
    DataOk d' ∧ TaskOk d' t' ∧ Keeps d d' := by
  have hstay : ∀ t'' : PlannerTask, some (d, t'') = some (d', t') → TaskOk d t'' →
      DataOk d' ∧ TaskOk d' t' ∧ Keeps d d' := by
    intro t'' heq ht''
    obtain ⟨rfl, rfl⟩ := Prod.mk.inj (Option.some.inj heq)
    exact ⟨hd, ht'', Keeps.refl d⟩
  unfold advancePlanner at h
  split at h
  · refine hstay _ h ?_
    split
    · trivial
    · rename_i o ho
      exact outlineOf_eq_some ho
  · refine hstay _ h ?_
    split_ifs
    · trivial
    · exact ht
  · exact hstay _ h (dayAnswer_ok ht.1 ht.2)
  · exact hstay _ h ⟨ht, found_of_planOf hd⟩
  · split at h
    · rename_i d'' hupsert
      obtain ⟨rfl, rfl⟩ := Prod.mk.inj (Option.some.inj h)
      obtain ⟨hd'', hkeeps⟩ := upsert_ok hd ht hok hupsert
      exact ⟨hd'', trivial, hkeeps⟩
    · exact hstay _ h trivial
  · cases h
  · cases h
  · exact hstay _ h trivial
  · refine hstay _ h ?_
    split_ifs <;> trivial
  · refine hstay _ h ?_
    rename_i c vocab raw
    cases hanswer : weekAnswer F c vocab raw with
    | error e => trivial
    | ok rows => exact weekAnswer_ok hanswer
  · split at h
    · rename_i d'' hstore
      obtain ⟨rfl, rfl⟩ := Prod.mk.inj (Option.some.inj h)
      obtain ⟨hd'', hkeeps⟩ := storeWeek_ok hd ht hstore
      exact ⟨hd'', trivial, hkeeps⟩
    · exact hstay _ h trivial
  · exact hstay _ h trivial
  · exact hstay _ h trivial
  · exact hstay _ h trivial
  · cases h

end Steps

/-! ### Whole runs -/

def Sound (w : World PlannerData PlannerTask) : Prop :=
  DataOk w.data ∧ ∀ t ∈ w.tasks, TaskOk w.data t

theorem step_ok {w w' : World PlannerData PlannerTask} {i : Input PlannerInput} (hw : Sound w)
    (hok : guard Unspoiled w i) (h : (planner F).machine.step w i = some w') :
    Sound w' ∧ Keeps w.data w'.data := by
  obtain ⟨hd, htasks⟩ := hw
  cases i with
  | request i =>
    obtain ⟨ts, hts, rfl⟩ := Option.map_eq_some_iff.mp h
    refine ⟨⟨hd, fun t ht => ?_⟩, Keeps.refl _⟩
    rcases List.mem_append.mp ht with ht | ht
    · exact htasks t ht
    · simp only [planner] at hts
      split at hts
      · obtain rfl := Option.some.inj hts
        rw [List.mem_singleton.mp ht]
        trivial
      · obtain rfl := Option.some.inj hts
        rw [List.mem_singleton.mp ht]
        trivial
      · cases hts
  | task k i =>
    obtain ⟨t, ht, h⟩ := Option.bind_eq_some_iff.mp h
    obtain ⟨⟨d', ts⟩, hadvance, rfl⟩ := Option.map_eq_some_iff.mp h
    obtain ⟨⟨d'', t'⟩, hstep, heq⟩ := Option.map_eq_some_iff.mp hadvance
    obtain ⟨rfl, rfl⟩ := Prod.mk.inj heq
    obtain ⟨hd', ht', hkeeps⟩ := advance_ok hd (htasks t (List.mem_of_getElem? ht)) (hok t ht) hstep
    refine ⟨⟨hd', fun u hu => ?_⟩, hkeeps⟩
    rcases List.mem_append.mp hu with hu | hu
    · exact (htasks u (List.mem_of_mem_eraseIdx hu)).kept hkeeps
    · rw [List.mem_singleton.mp hu]
      exact ht'

theorem sound_of_reachable {w : World PlannerData PlannerTask}
    (hw : (planner F).machine.ReachableUnder (guard Unspoiled) w) : Sound w := by
  refine Machine.reachableUnder_invariant ?_ (fun w i w' hw hok h => (step_ok hw hok h).1) hw
  rintro ⟨d, tasks⟩ ⟨rfl, htasks⟩
  obtain rfl : tasks = [] := htasks
  exact ⟨⟨by simp, by simp, by simp, rfl, by simp⟩, by simp⟩

/-- A week that a run has stored. -/
def stored : PlannerTask → Option (WeekCall × List OutlineRow)
  | .week c (.success rows) => some (c, rows)
  | _ => none

theorem advance_weeks {d d' : PlannerData} {t t' : PlannerTask} {i : PlannerInput}
    (h : advancePlanner F d t i = some (d', t')) :
    stored t = none ∧ (stored t' = none ∧ d'.weeks = d.weeks ∨
      ∃ x, stored t' = some x ∧ d'.weeks = d.weeks ++ [x]) := by
  have hstay : ∀ t'' : PlannerTask, some (d, t'') = some (d', t') → stored t'' = none →
      stored t' = none ∧ d'.weeks = d.weeks := by
    intro t'' heq ht''
    obtain ⟨rfl, rfl⟩ := Prod.mk.inj (Option.some.inj heq)
    exact ⟨ht'', rfl⟩
  unfold advancePlanner at h
  split at h
  · exact ⟨rfl, .inl (hstay _ h rfl)⟩
  · exact ⟨rfl, .inl (hstay _ h rfl)⟩
  · exact ⟨rfl, .inl (hstay _ h rfl)⟩
  · exact ⟨rfl, .inl (hstay _ h rfl)⟩
  · refine ⟨rfl, .inl ?_⟩
    split at h
    · rename_i d'' hupsert
      obtain ⟨rfl, rfl⟩ := Prod.mk.inj (Option.some.inj h)
      refine ⟨rfl, ?_⟩
      unfold PlannerData.upsert at hupsert
      split at hupsert
      · obtain rfl := Option.some.inj hupsert
        rfl
      · split_ifs at hupsert
        obtain rfl := Option.some.inj hupsert
        rfl
    · exact hstay _ h rfl
  · cases h
  · cases h
  · rename_i date phase _ _
    refine ⟨?_, .inl (hstay _ h rfl)⟩
    cases phase <;> rfl
  · refine ⟨rfl, .inl (hstay _ h ?_)⟩
    split_ifs <;> rfl
  · rename_i c vocab raw
    refine ⟨rfl, .inl (hstay _ h ?_)⟩
    cases weekAnswer F c vocab raw <;> rfl
  · refine ⟨rfl, ?_⟩
    split at h
    · rename_i d'' hstore
      obtain ⟨rfl, rfl⟩ := Prod.mk.inj (Option.some.inj h)
      unfold PlannerData.storeWeek at hstore
      split_ifs at hstore
      obtain rfl := Option.some.inj hstore
      exact .inr ⟨_, rfl, rfl⟩
    · exact .inl (hstay _ h rfl)
  · exact ⟨rfl, .inl (hstay _ h rfl)⟩
  · exact ⟨rfl, .inl (hstay _ h rfl)⟩
  · exact ⟨rfl, .inl (hstay _ h rfl)⟩
  · cases h

/-- The weeks stored are those of the runs that have succeeded. -/
theorem weeks_stored {w : World PlannerData PlannerTask} (hw : (planner F).machine.Reachable w) :
    w.data.weeks.Perm (w.tasks.filterMap stored) := by
  refine reachable_log stored (fun d => d.weeks) ?_ ?_ ?_ hw
  · rintro d rfl
    rfl
  · intro d i ts h
    simp only [planner] at h
    split at h
    · obtain rfl := Option.some.inj h
      rfl
    · obtain rfl := Option.some.inj h
      rfl
    · cases h
  · intro d t i d' ts rest h hlog
    obtain ⟨⟨d'', t'⟩, hstep, heq⟩ := Option.map_eq_some_iff.mp h
    obtain ⟨rfl, rfl⟩ := Prod.mk.inj heq
    obtain ⟨hbefore, ⟨hafter, hsame⟩ | ⟨x, hafter, hgrown⟩⟩ := advance_weeks hstep
    · rw [hbefore] at hlog
      have hview : [t'].filterMap stored = [] := by simp [hafter]
      rw [hsame, hview]
      exact hlog
    · rw [hbefore] at hlog
      have hview : [t'].filterMap stored = [x] := by simp [hafter]
      rw [hgrown, hview]
      exact List.perm_append_comm.trans (hlog.cons x)

/-- While no run changes a row that is ready, a plan that is ready stays as it is for the rest of the
run, and a commit that does change it loses it; a date has one plan and one outline; a week is stored whole by a run that
succeeds; and a ready plan has two to five scenes of its own, in the city and the categories of an
outline of its date. -/
theorem ready_plans_kept {w : World PlannerData PlannerTask}
    (hw : (planner F).machine.ReachableUnder (guard Unspoiled) w) :
    (∀ is w', (planner F).machine.Guarded (guard Unspoiled) w is →
      (planner F).machine.run w is = some w' →
      ∀ p ∈ w.data.plans, p.genStatus = .ready → p ∈ w'.data.plans) ∧
    (∀ p ∈ w.data.plans, p.genStatus = .ready → ∀ found scenes status d',
      w.data.upsert p.planDate (some found) scenes status = some d' →
      (p ∈ d'.plans ↔ Harmless found scenes status p)) ∧
    (w.data.plans.map (·.planDate)).Nodup ∧ (w.data.outlines.map (·.planDate)).Nodup ∧
    w.data.outlines = w.data.weeks.flatMap (·.2) ∧
    w.data.weeks.Perm (w.tasks.filterMap stored) ∧
    (∀ x ∈ w.data.weeks, WholeWeek x.1 x.2) ∧
    ∀ p ∈ w.data.plans, p.genStatus = .ready → ReadyPlan w.data.outlines p.planDate p.scenes := by
  obtain ⟨hd, htasks⟩ := sound_of_reachable hw
  refine ⟨fun is w' hguarded hrun p hp hready => ?_,
    fun p hp hready found scenes status d' h => kept_iff hd h hp hready, hd.planDates, hd.outlineDates, hd.weeks,
    weeks_stored hw.reachable, hd.whole, fun p hp hready => ?_⟩
  · have hkept := Machine.guarded_invariant (M := (planner F).machine)
      (I := fun w => Sound w ∧ p ∈ w.data.plans) (fun v i v' hv hok hstep => ?_)
      ⟨⟨hd, htasks⟩, hp⟩ hguarded hrun
    · exact hkept.2
    · obtain ⟨hsound, hkeeps⟩ := step_ok hv.1 hok hstep
      exact ⟨hsound, hkeeps.ready p hv.2 hready⟩
  · rcases hd.plans p hp with ⟨hfailed, -⟩ | ⟨-, hplan⟩
    · rw [hready] at hfailed
      cases hfailed
    · exact hplan

/-! ### Two runs of one date -/

def monday : ℕ := 739768

def mondayText : Text := "2026-06-01".toList

def work : Text := "工作".toList

/-- One scene of an answer, as text. -/
def sceneText : Text :=
  "\x7b\"time_range\":\"09:00-10:30\",\"city\":\"杭州\",\"category\":\"工作\",".toList ++
    "\"venue_type\":\"咖啡馆\",\"description\":\"".toList ++ List.replicate 200 '描' ++ "\"\x7d".toList

def scenesText : Text := "\x7b\"scenes\":[".toList ++ sceneText ++ ',' :: sceneText ++ "]\x7d".toList

def weekText : Text :=
  "\x7b\"days\":[\x7b\"date\":\"2026-06-01\",\"city\":\"杭州\",\"categories\":\"工作\"\x7d]\x7d".toList

def sceneJson : Json :=
  .obj [("time_range".toList, .str "09:00-10:30".toList), ("city".toList, .str "杭州".toList),
    ("category".toList, .str work), ("venue_type".toList, .str "咖啡馆".toList),
    ("description".toList, .str (List.replicate 200 '描'))]

def weekJson : Json :=
  .obj [("days".toList, .arr [.obj [("date".toList, .str mondayText),
    ("city".toList, .str "杭州".toList), ("categories".toList, .str work)]])]

/-- The language, on the texts of the runs. -/
def mondayFormats : Formats where
  loads t :=
    if t = weekText then some weekJson
    else if t = scenesText then some (.obj [("scenes".toList, .arr [sceneJson, sceneJson])]) else none
  repr _ := []
  strptime t := if t = mondayText then some monday else none
  isoformat n := if n = monday then mondayText else []
  decimal c := if c.isDigit then some (c.toNat - 48) else none

/-- The week is generated for its Monday. -/
def weekRun : List (Input PlannerInput) :=
  [.request (.generateWeekOutline ⟨1, monday, true, monday⟩), .task 0 .read,
    .task 0 (.answer [work] (some weekText)), .task 0 .commit]

/-- The scheduled run makes the plan, and the retry finds it ready. -/
def dayRun : List (Input PlannerInput) :=
  weekRun ++ [.request (.generateDailyScenes monday), .task 1 .read, .task 1 .read,
    .task 1 (.answer [] (some scenesText)), .task 1 .read, .task 1 .commit]

def retryRun : List (Input PlannerInput) :=
  [.request (.generateDailyScenes monday), .task 2 .read, .task 2 .read]

/-- The retry begins before the plan is ready, and its model fails. -/
def slowRetry : List (Input PlannerInput) :=
  weekRun ++ [.request (.generateDailyScenes monday), .request (.generateDailyScenes monday),
    .task 1 .read, .task 2 .read, .task 1 .read, .task 2 .read,
    .task 1 (.answer [] (some scenesText)), .task 2 .read, .task 2 .commit,
    .task 1 (.answer [] none), .task 2 .read]

def emptyTables : World PlannerData PlannerTask := ⟨⟨[], [], []⟩, []⟩

def dayChecks (w : World PlannerData PlannerTask) : Bool :=
  decide ((planner mondayFormats).machine.Guarded (guard Unspoiled) w retryRun) &&
    (w.data.plans.any fun p => p.genStatus = .ready) &&
    ((planner mondayFormats).machine.run w retryRun).any fun w' =>
      w'.tasks.any fun t => t = .day monday (.done .skippedReady)

theorem dayRun_guarded :
    (planner mondayFormats).machine.Guarded (guard Unspoiled) emptyTables dayRun := by decide +kernel

theorem dayRun_ends : ((planner mondayFormats).machine.run emptyTables dayRun).any dayChecks = true := by
  decide +kernel

/-- The retry leaves the plan as it is. -/
theorem ready_plans_kept_retry : ∃ w w' : World PlannerData PlannerTask,
    (planner mondayFormats).machine.run w retryRun = some w' ∧
      PlannerTask.day monday (.done .skippedReady) ∈ w'.tasks ∧
      ∃ p, p ∈ w.data.plans ∧ p.genStatus = .ready ∧ p ∈ w'.data.plans := by
  obtain ⟨w, hrun, hchecks⟩ := (Option.any_eq_true _ _).mp dayRun_ends
  simp only [dayChecks, Bool.and_eq_true, decide_eq_true_eq] at hchecks
  obtain ⟨⟨hguarded, hready⟩, hretry⟩ := hchecks
  obtain ⟨p, hp, hready⟩ := List.any_eq_true.mp hready
  obtain ⟨w', hrun', hskipped⟩ := (Option.any_eq_true _ _).mp hretry
  obtain ⟨t, ht, hskipped⟩ := List.any_eq_true.mp hskipped
  obtain rfl := of_decide_eq_true hskipped
  obtain ⟨hkept, -⟩ := ready_plans_kept (F := mondayFormats)
    ⟨emptyTables, dayRun, ⟨rfl, rfl⟩, dayRun_guarded, hrun⟩
  exact ⟨w, w', hrun', ht, p, hp, of_decide_eq_true hready,
    hkept retryRun w' hguarded hrun' p hp (of_decide_eq_true hready)⟩

def lost (w : World PlannerData PlannerTask) : Bool :=
  (w.data.plans.any fun p => p.planDate = monday ∧ p.genStatus = .ready) &&
    ((planner mondayFormats).machine.step w (.task 2 .commit)).any fun w' =>
      w'.data.plans.any fun p => p.planDate = monday ∧ p.genStatus = .failed ∧ p.scenes = []

theorem slowRetry_ends : ((planner mondayFormats).machine.run emptyTables slowRetry).any lost = true := by
  decide +kernel

/-- A slow retry that fails takes a ready plan away. -/
theorem slow_retry_loses_plan : ∃ w w' : World PlannerData PlannerTask,
    (planner mondayFormats).machine.Reachable w ∧
      (planner mondayFormats).machine.step w (.task 2 .commit) = some w' ∧
      (∃ p ∈ w.data.plans, p.planDate = monday ∧ p.genStatus = .ready) ∧
      ∃ p ∈ w'.data.plans, p.planDate = monday ∧ p.genStatus = .failed ∧ p.scenes = [] := by
  obtain ⟨w, hrun, hlost⟩ := (Option.any_eq_true _ _).mp slowRetry_ends
  simp only [lost, Bool.and_eq_true] at hlost
  obtain ⟨hready, hlost⟩ := hlost
  obtain ⟨p, hp, hready⟩ := List.any_eq_true.mp hready
  obtain ⟨w', hstep, hfailed⟩ := (Option.any_eq_true _ _).mp hlost
  obtain ⟨q, hq, hfailed⟩ := List.any_eq_true.mp hfailed
  exact ⟨w, w', ⟨emptyTables, slowRetry, ⟨rfl, rfl⟩, hrun⟩, hstep, ⟨p, hp, of_decide_eq_true hready⟩,
    q, hq, of_decide_eq_true hfailed⟩

end CompanionBackend.ReadyPlans
