import CompanionBackend.DailyAggregates
import CompanionBackend.DailyValues

/-!
# Exactness of materialized days

The writes of a recomputation turn the rows it has locked into the measured metrics of its snapshot.
Nobody else changes these rows before it commits, so after any interleaving the rows of a key are
those of the recomputation that has committed last, and whoever raises has changed nothing.
-/
namespace CompanionBackend.DailyAggregates

open DailyMetrics Runs TaskSystems TaskSystem

variable {H : Host}

/-! ### Writes -/

theorem applyWrites_append (ws ws' : List Write) (rows : Rows) :
    applyWrites (ws ++ ws') rows = (applyWrites ws rows).bind (applyWrites ws') := by
  induction ws generalizing rows with
  | nil => rfl
  | cons w ws ih =>
    simp only [List.cons_append, applyWrites, Option.bind_assoc]
    congr 1
    funext rows'
    exact ih rows'

theorem applyWrites_anchor (dimensions : Dimensions) (rows : Rows) :
    applyWrites (anchor dimensions rows) rows = some (existing dimensions rows) := by
  unfold anchor existing
  by_cases h : (rows .dailyCallCount).isSome = true <;> simp [h, applyWrites, Write.apply]

theorem applyWrites_delete {names : List MetricName} {rows : Rows} (hnodup : names.Nodup)
    (h : ∀ name ∈ names, (rows name).isSome = true) :
    applyWrites (names.map .delete) rows =
      some fun name => if name ∈ names then none else rows name := by
  induction names generalizing rows with
  | nil => simp [applyWrites]
  | cons name names ih =>
    rw [List.nodup_cons] at hnodup
    have hname := h name (by simp)
    have hrest : ∀ n ∈ names, (Function.update rows name none n).isSome = true := by
      intro n hn
      have hne : n ≠ name := fun heq => hnodup.1 (heq ▸ hn)
      rw [Function.update_of_ne hne]
      exact h n (by simp [hn])
    simp only [List.map_cons, applyWrites, Write.apply, hname, if_true, Option.bind_some,
      ih hnodup.2 hrest]
    congr 1
    funext n
    by_cases hn : n = name
    · subst hn
      simp [hnodup.1]
    · simp [hn]

/-- Values of distinct names, each updated or inserted by what `rows` had at first. -/
theorem applyWrites_values {dimensions : Dimensions} {rows now : Rows}
    {values : List (MetricName × ℚ)} (hnodup : (values.map Prod.fst).Nodup)
    (hsame : ∀ v ∈ values, now v.1 = rows v.1)
    (hdim : ∀ name cell, rows name = some cell → cell.dimensions = dimensions) :
    applyWrites (values.map fun v =>
        if (rows v.1).isSome then .update v.1 (H.store v.2)
        else .insert v.1 ⟨dimensions, H.store v.2⟩) now =
      some fun name =>
        ((values.lookup name).map fun v => ⟨dimensions, H.store v⟩).or (now name) := by
  induction values generalizing now with
  | nil => simp [applyWrites]
  | cons v values ih =>
    rw [List.map_cons, List.nodup_cons] at hnodup
    have hv := hsame v (by simp)
    have hwrite : (if (rows v.1).isSome then Write.update v.1 (H.store v.2)
        else .insert v.1 ⟨dimensions, H.store v.2⟩).apply now =
          some (Function.update now v.1 (some ⟨dimensions, H.store v.2⟩)) := by
      cases hrow : rows v.1 with
      | none => simp [Write.apply, hv, hrow]
      | some cell => simp [Write.apply, hv, hrow, hdim v.1 cell hrow]
    have hrest : ∀ v' ∈ values,
        Function.update now v.1 (some ⟨dimensions, H.store v.2⟩) v'.1 = rows v'.1 := by
      intro v' hv'
      have hne : v'.1 ≠ v.1 := fun heq => hnodup.1 (heq ▸ List.mem_map_of_mem hv')
      rw [Function.update_of_ne hne]
      exact hsame v' (by simp [hv'])
    rw [List.map_cons, applyWrites, hwrite, Option.bind_some, ih hnodup.2 hrest]
    congr 1
    funext name
    by_cases hname : name = v.1
    · subst hname
      have hnone : values.lookup v.1 = none := by
        rw [List.lookup_eq_none_iff]
        intro p hp
        simp only [bne_iff_ne, ne_eq]
        exact fun heq => hnodup.1 (heq ▸ List.mem_map_of_mem hp)
      obtain ⟨n, q⟩ := v
      simp only at hnone
      simp [hnone]
    · have hbeq : (name == v.1) = false := by simpa using hname
      obtain ⟨n, q⟩ := v
      simp only at hname hbeq
      simp [List.lookup_cons, hbeq, hname]

/-- The changes leave the values and nothing else. -/
theorem applyWrites_changes {dimensions : Dimensions} {rows : Rows}
    {values : List (MetricName × ℚ)} {ws : List Write} (hnodup : (values.map Prod.fst).Nodup)
    (h : changes H dimensions rows values = some ws) :
    applyWrites ws rows =
      some fun name => (values.lookup name).map fun v => ⟨dimensions, H.store v⟩ := by
  unfold changes at h
  split at h
  · cases h
  next hforeign =>
    have hdim : ∀ name cell, rows name = some cell → cell.dimensions = dimensions := by
      intro name cell hcell
      by_contra hne
      refine hforeign (List.any_eq_true.mpr ⟨name, mem_METRIC_NAMES name, ?_⟩)
      simp [hcell, hne]
    have hdelete : ∀ name ∈ METRIC_NAMES.filter fun name =>
        (rows name).isSome && name ∉ values.map Prod.fst, (rows name).isSome = true := by
      intro name hname
      rw [List.mem_filter, Bool.and_eq_true] at hname
      exact hname.2.1
    have hnames : (METRIC_NAMES.filter fun name =>
        (rows name).isSome && name ∉ values.map Prod.fst).Nodup :=
      List.Nodup.filter _ (by decide)
    cases h
    rw [applyWrites_append, applyWrites_delete hnames hdelete, Option.bind_some,
      applyWrites_values hnodup ?_ hdim]
    · congr 1
      funext name
      cases hlookup : values.lookup name with
      | some v => simp
      | none =>
        have hout : name ∉ values.map Prod.fst := by
          rw [List.lookup_eq_none_iff] at hlookup
          intro hmem
          obtain ⟨v, hv, rfl⟩ := List.mem_map.mp hmem
          simpa using hlookup v hv
        cases hrow : rows name <;> simp [hout, hrow, mem_METRIC_NAMES, List.mem_filter]
    · intro v hv
      have hmem : v.1 ∈ values.map Prod.fst := List.mem_map_of_mem hv
      simp [List.mem_filter, hmem]

/-! ### What holds between the statements -/

/-- One row for each measured metric, with its value. -/
def Commit.rows (H : Host) (c : Commit) : Rows := fun name =>
  ((measured H c.p.metrics).lookup name).map fun v => ⟨dailyDimensions c.pricing, H.store v⟩

/-- The recomputation of a key that has committed last. -/
def Data.last (H : Host) (d : Data) (k : Key) : Option Commit := d.commits.find? fun c => c.key H = k

structure DataOk (H : Host) (d : Data) : Prop where
  rows : ∀ k, d.rows k = match d.last H k with
    | none => d.initial k
    | some c => c.rows H
  projections : ∀ c ∈ d.commits, computeDailyMetrics H c.source c.day c.pricing = some c.p

def Phase.inside : Phase → Bool
  | .anchored _ | .staged _ _ _ => true
  | _ => false

/-- Until it commits, a recomputation holds the lock of its rows and has the changes that lead from
them to the metrics of its snapshot. -/
def Knows (H : Host) (d : Data) (r : Recompute) : Prop :=
  match r.phase with
  | .anchored writes =>
    d.locked (r.key H) = true ∧ writes = anchor r.dimensions (d.rows (r.key H))
  | .staged writes source p =>
    d.locked (r.key H) = true ∧ computeDailyMetrics H source r.day r.pricing = some p ∧
      applyWrites writes (d.rows (r.key H)) = some (Commit.rows H ⟨r.day, r.pricing, source, p⟩)
  | _ => True

theorem knows_outside {d : Data} {r : Recompute} (h : r.phase.inside = false) : Knows H d r := by
  unfold Knows
  cases hphase : r.phase <;> simp_all [Phase.inside]

def TaskOk (H : Host) (d : Data) : Task → Prop
  | .recompute r => Knows H d r
  | .others => True

def holds (H : Host) : Task → Key → Prop
  | .recompute r, k => r.phase.inside = true ∧ r.key H = k
  | .others, _ => False

def Guarded (k : Key) (d d' : Data) : Prop := d'.rows k = d.rows k ∧ d'.locked k = true

theorem discipline :
    KeyedDiscipline (TaskOk H) (holds H) (fun d k => d.locked k = true) (fun _ _ => True)
      Guarded where
  locked {d t k} h hk := by
    cases t with
    | others => cases hk
    | recompute r =>
      obtain ⟨hinside, rfl⟩ := hk
      unfold TaskOk Knows at h
      cases hphase : r.phase <;> simp_all [Phase.inside]
  stable {d d' t} h _ hguarded := by
    cases t with
    | others => trivial
    | recompute r =>
      unfold TaskOk Knows at h ⊢
      cases hphase : r.phase with
      | anchored writes =>
        obtain ⟨hrows, hlocked⟩ := hguarded (r.key H) ⟨by simp [hphase, Phase.inside], rfl⟩
        simp only [hphase] at h ⊢
        exact ⟨hlocked, by rw [hrows]; exact h.2⟩
      | staged writes source p =>
        obtain ⟨hrows, hlocked⟩ := hguarded (r.key H) ⟨by simp [hphase, Phase.inside], rfl⟩
        simp only [hphase] at h ⊢
        exact ⟨hlocked, h.2.1, by rw [hrows]; exact h.2.2⟩
      | begun | returned | raised => simp only [hphase]

abbrev StepOk (H : Host) (d d' : Data) (t : Task) (ts : List Task) : Prop :=
  KeyedStep (DataOk H) (TaskOk H) (holds H) (fun d k => d.locked k = true) (fun _ _ => True)
    Guarded d d' t ts

/-- A step that leaves rows and commits and only releases a lock that it held, or none. -/
theorem stepOk_release {d : Data} {r r' : Recompute} (hd : DataOk H d)
    (hinside : r.phase.inside = true) (hphase : r'.phase.inside = false) :
    StepOk H d (d.unlock (r.key H)) (.recompute r) [.recompute r'] where
  data := ⟨hd.rows, hd.projections⟩
  frame := trivial
  tasks := by
    intro t ht
    obtain rfl := List.mem_singleton.mp ht
    exact knows_outside hphase
  single := by simp
  guarded := by
    intro k hk hlocked
    have hne : k ≠ r.key H := fun heq => hk ⟨hinside, heq.symm⟩
    refine ⟨⟨rfl, by simp [Data.unlock, hne, hlocked]⟩, ?_⟩
    intro t ht hold
    obtain rfl := List.mem_singleton.mp ht
    simp [holds, hphase] at hold

theorem stepOk_still {d : Data} {r r' : Recompute} (hd : DataOk H d)
    (hphase : r'.phase.inside = false) : StepOk H d d (.recompute r) [.recompute r'] where
  data := hd
  frame := trivial
  tasks := by
    intro t ht
    obtain rfl := List.mem_singleton.mp ht
    exact knows_outside hphase
  single := by simp
  guarded := by
    intro k hk hlocked
    refine ⟨⟨rfl, hlocked⟩, ?_⟩
    intro t ht hold
    obtain rfl := List.mem_singleton.mp ht
    simp [holds, hphase] at hold

/-! ### Steps -/

theorem stepOk_giveUp {d d' : Data} {r : Recompute} {ts : List Task} (hd : DataOk H d)
    (hinside : r.phase.inside = true) (h : giveUp H d r = some (d', ts)) :
    StepOk H d d' (.recompute r) ts := by
  cases h
  exact stepOk_release hd hinside rfl

theorem stepOk_begin {d d' : Data} {r : Recompute} {ts : List Task} (hd : DataOk H d)
    (h : begin H d r = some (d', ts)) : StepOk H d d' (.recompute r) ts := by
  unfold begin at h
  split at h
  · cases h
    exact stepOk_still hd rfl
  · split at h
    · cases h
    next hfree =>
      cases h
      refine ⟨⟨hd.rows, hd.projections⟩, trivial, ?_, by simp, ?_⟩
      · intro t ht
        obtain rfl := List.mem_singleton.mp ht
        exact ⟨by simp [Data.lock, Recompute.key, Recompute.dimensions], rfl⟩
      · intro k _ hlocked
        have hne : k ≠ r.key H := fun heq => hfree (heq ▸ hlocked)
        refine ⟨⟨rfl, by simp [Data.lock, hne, hlocked]⟩, ?_⟩
        intro t ht hold
        obtain rfl := List.mem_singleton.mp ht
        exact hne hold.2.symm

/-- What has been read and the changes that are sent. -/
theorem read_staged {d : Data} {r : Recompute} {p : Projection} {ws : List Write}
    (hws : (validatedValues H p r.day).bind
      (changes H r.dimensions (existing r.dimensions (d.rows (r.key H)))) = some ws) :
    applyWrites (anchor r.dimensions (d.rows (r.key H)) ++ ws) (d.rows (r.key H)) =
      some (Commit.rows H ⟨r.day, r.pricing, d.source, p⟩) := by
  obtain ⟨values, hvalues, hchanges⟩ := Option.bind_eq_some_iff.mp hws
  obtain ⟨rfl, hnodup⟩ := validatedValues_eq_some hvalues
  rw [applyWrites_append, applyWrites_anchor, Option.bind_some,
    applyWrites_changes (measured_nodup hnodup) hchanges]
  rfl

theorem stepOk_read {d d' : Data} {r : Recompute} {ts : List Task} {writes : List Write}
    (hd : DataOk H d) (ht : Knows H d r) (hphase : r.phase = .anchored writes)
    (h : read H d r writes = some (d', ts)) : StepOk H d d' (.recompute r) ts := by
  have hinside : r.phase.inside = true := by rw [hphase]; rfl
  simp only [Knows, hphase] at ht
  obtain ⟨hlocked, rfl⟩ := ht
  unfold read at h
  cases hp : computeDailyMetrics H d.source r.day r.pricing with
  | none =>
    rw [hp] at h
    exact stepOk_giveUp hd hinside h
  | some p =>
    simp only [hp] at h
    split at h
    · exact stepOk_giveUp hd hinside h
    · cases hws : (validatedValues H p r.day).bind
          (changes H r.dimensions (existing r.dimensions (d.rows (r.key H)))) with
      | none =>
        rw [hws] at h
        exact stepOk_giveUp hd hinside h
      | some ws =>
        simp only [hws] at h
        cases h
        refine ⟨hd, trivial, ?_, by simp, ?_⟩
        · intro t ht
          obtain rfl := List.mem_singleton.mp ht
          exact ⟨hlocked, hp, read_staged hws⟩
        · intro k hk hlocked
          refine ⟨⟨rfl, hlocked⟩, ?_⟩
          intro t ht hold
          obtain rfl := List.mem_singleton.mp ht
          exact hk ⟨hinside, hold.2⟩

theorem dataOk_commit {d : Data} {c : Commit} {k : Key} (hd : DataOk H d) (hk : c.key H = k)
    (hp : computeDailyMetrics H c.source c.day c.pricing = some c.p) :
    DataOk H (d.commit k (c.rows H) c) where
  rows := by
    intro k'
    by_cases heq : k' = k
    · subst heq
      simp [Data.commit, Data.last, hk]
    · have hne : ¬c.key H = k' := fun h => heq (h.symm.trans hk)
      have := hd.rows k'
      simp only [Data.last] at this
      simp [Data.commit, Data.last, hne, heq, this]
  projections := by
    intro c' hc'
    rcases List.mem_cons.mp hc' with rfl | hc'
    · exact hp
    · exact hd.projections c' hc'

/-- The commit of a recomputation succeeds, with the metrics of its snapshot. -/
theorem finish_eq {d : Data} {r : Recompute} {writes : List Write} {source : Source}
    {p : Projection} (ht : Knows H d r) (hphase : r.phase = .staged writes source p) :
    finish H d r writes source p =
      some ((d.commit (r.key H) (Commit.rows H ⟨r.day, r.pricing, source, p⟩)
        ⟨r.day, r.pricing, source, p⟩).unlock (r.key H),
          [.recompute { r with phase := .returned source p }]) := by
  simp only [Knows, hphase] at ht
  simp only [finish, ht.2.2]

theorem stepOk_finish {d d' : Data} {r : Recompute} {ts : List Task} {writes : List Write}
    {source : Source} {p : Projection} (hd : DataOk H d) (ht : Knows H d r)
    (hphase : r.phase = .staged writes source p)
    (h : finish H d r writes source p = some (d', ts)) : StepOk H d d' (.recompute r) ts := by
  rw [finish_eq ht hphase] at h
  cases h
  have hp : computeDailyMetrics H source r.day r.pricing = some p := by
    simp only [Knows, hphase] at ht
    exact ht.2.1
  have hcommit := dataOk_commit (c := ⟨r.day, r.pricing, source, p⟩) (k := r.key H) hd rfl hp
  refine ⟨⟨hcommit.rows, hcommit.projections⟩, trivial, ?_, by simp, ?_⟩
  · intro t ht
    obtain rfl := List.mem_singleton.mp ht
    simp only [TaskOk, Knows]
  · intro k hk hlocked
    have hne : k ≠ r.key H := by
      rintro rfl
      exact hk ⟨by rw [hphase]; rfl, rfl⟩
    refine ⟨⟨by simp [Data.commit, Data.unlock, hne], by simp [Data.commit, Data.unlock, hne, hlocked]⟩, ?_⟩
    intro t ht hold
    obtain rfl := List.mem_singleton.mp ht
    simp [holds, Phase.inside] at hold

theorem stepOk_retry {d d' : Data} {r : Recompute} {ts : List Task} (hd : DataOk H d)
    (hinside : r.phase.inside = true) (h : retry H d r = some (d', ts)) :
    StepOk H d d' (.recompute r) ts := by
  unfold retry at h
  split at h
  · exact stepOk_giveUp hd hinside h
  · cases h
    exact stepOk_release hd hinside rfl

theorem stepOk_advance {d d' : Data} {t : Task} {o : Outcome} {ts : List Task} (hd : DataOk H d)
    (ht : TaskOk H d t) (h : advance H d t o = some (d', ts)) : StepOk H d d' t ts := by
  cases t with
  | others =>
    cases o <;> simp only [advance, Option.some.injEq, Prod.mk.injEq, reduceCtorEq] at h
    obtain ⟨rfl, rfl⟩ := h
    refine ⟨⟨hd.rows, hd.projections⟩, trivial, by simp [TaskOk], by simp, ?_⟩
    intro k _ hlocked
    exact ⟨⟨rfl, hlocked⟩, by simp [holds]⟩
  | recompute r =>
    simp only [advance, advanceRecompute] at h
    cases hphase : r.phase with
    | begun =>
      cases o <;> simp only [hphase, reduceCtorEq] at h
      · exact stepOk_begin hd h
      · split at h <;> cases h
        · exact stepOk_still hd rfl
        · exact stepOk_still hd (by simp [Phase.inside])
      · cases h
        exact stepOk_still hd rfl
    | anchored writes =>
      have hinside : r.phase.inside = true := by rw [hphase]; rfl
      cases o <;> simp only [hphase, reduceCtorEq] at h
      · exact stepOk_read hd ht hphase h
      · exact stepOk_retry hd hinside h
      · exact stepOk_giveUp hd hinside h
    | staged writes source p =>
      have hinside : r.phase.inside = true := by rw [hphase]; rfl
      cases o <;> simp only [hphase, reduceCtorEq] at h
      · exact stepOk_finish hd ht hphase h
      · exact stepOk_retry hd hinside h
      · exact stepOk_giveUp hd hinside h
    | returned source p => simp [hphase] at h
    | raised => simp [hphase] at h

theorem reachable_exact {w : World Data Task} (hw : (system H).machine.Reachable w) :
    Holds (DataOk H) (TaskOk H) (Separate (holds H)) w := by
  refine reachable_holds separate_symm ?_ ?_ ?_ hw
  · rintro d ⟨hrows, hcommits, -⟩
    exact ⟨by simp [Data.last, hcommits, hrows], by simp [hcommits]⟩
  · intro d o ts _ hts
    have hfree : ∃ t, ts = [t] ∧ TaskOk H d t ∧ ∀ k, ¬holds H t k := by
      cases o <;> simp only [system, Option.some.injEq, reduceCtorEq] at hts <;> subst hts
      · exact ⟨_, rfl, by simp only [TaskOk, Knows], by simp [holds, Phase.inside]⟩
      · exact ⟨_, rfl, trivial, by simp [holds]⟩
    obtain ⟨t, rfl, hok, hnone⟩ := hfree
    refine ⟨by simpa using hok, List.pairwise_singleton _ _, fun u t' ht' => ?_⟩
    obtain rfl := List.mem_singleton.mp ht'
    exact separate_of_free hnone
  · intro d t o d' ts hd ht hadv
    exact (stepOk_advance hd ht hadv).establishes discipline

/-! ### Whole runs -/

/-- What a returned recomputation has committed. -/
def committed : Task → Option Commit
  | .recompute ⟨day, pricing, _, .returned source p⟩ => some ⟨day, pricing, source, p⟩
  | _ => none

/-- What one step does to rows and commits: nothing, or it is the commit of a recomputation. -/
inductive Effect (H : Host) (d d' : Data) (t : Task) (ts : List Task) : Prop
  | still (rows : d'.rows = d.rows) (commits : d'.commits = d.commits)
    (none : ∀ t' ∈ t :: ts, committed t' = none)
  | finished (r : Recompute) (writes : List Write) (source : Source) (p : Projection)
    (task : t = .recompute r) (phase : r.phase = .staged writes source p)
    (done : finish H d r writes source p = some (d', ts))
    (commits : d'.commits = ⟨r.day, r.pricing, source, p⟩ :: d.commits)
    (left : ts = [.recompute { r with phase := .returned source p }])

theorem effect_giveUp {d d' : Data} {r : Recompute} {ts : List Task}
    (hr : committed (.recompute r) = none) (h : giveUp H d r = some (d', ts)) :
    Effect H d d' (.recompute r) ts := by
  cases h
  exact .still rfl rfl (by simpa [committed] using hr)

theorem effect_retry {d d' : Data} {r : Recompute} {ts : List Task}
    (hr : committed (.recompute r) = none) (h : retry H d r = some (d', ts)) :
    Effect H d d' (.recompute r) ts := by
  unfold retry at h
  split at h
  · exact effect_giveUp hr h
  · cases h
    exact .still rfl rfl (by simpa [committed] using hr)

theorem effect_begin {d d' : Data} {r : Recompute} {ts : List Task}
    (hr : committed (.recompute r) = none) (h : begin H d r = some (d', ts)) :
    Effect H d d' (.recompute r) ts := by
  unfold begin at h
  split at h
  · cases h
    exact .still rfl rfl (by simpa [committed] using hr)
  · split at h
    · cases h
    · cases h
      exact .still rfl rfl (by simpa [committed] using hr)

theorem effect_read {d d' : Data} {r : Recompute} {ts : List Task} {writes : List Write}
    (hr : committed (.recompute r) = none) (h : read H d r writes = some (d', ts)) :
    Effect H d d' (.recompute r) ts := by
  unfold read at h
  split at h
  · exact effect_giveUp hr h
  · split at h
    · exact effect_giveUp hr h
    · split at h
      · exact effect_giveUp hr h
      · cases h
        exact .still rfl rfl (by simpa [committed] using hr)

theorem effect_finish {d d' : Data} {r : Recompute} {ts : List Task} {writes : List Write}
    {source : Source} {p : Projection} (hr : committed (.recompute r) = none)
    (hphase : r.phase = .staged writes source p)
    (h : finish H d r writes source p = some (d', ts)) : Effect H d d' (.recompute r) ts := by
  have hdone := h
  unfold finish at h
  split at h
  · exact effect_giveUp hr h
  · cases h
    exact .finished r writes source p rfl hphase hdone rfl rfl

theorem effect_advance {d d' : Data} {t : Task} {o : Outcome} {ts : List Task}
    (h : advance H d t o = some (d', ts)) : Effect H d d' t ts := by
  cases t with
  | others =>
    cases o <;> simp only [advance, Option.some.injEq, Prod.mk.injEq, reduceCtorEq] at h
    obtain ⟨rfl, rfl⟩ := h
    exact .still rfl rfl (by simp [committed])
  | recompute r =>
    obtain ⟨day, pricing, attempt, phase⟩ := r
    simp only [advance, advanceRecompute] at h
    cases phase with
    | begun =>
      cases o <;> simp only [reduceCtorEq] at h
      · exact effect_begin rfl h
      · split at h <;> cases h <;> exact .still rfl rfl (by simp [committed])
      · cases h
        exact .still rfl rfl (by simp [committed])
    | anchored writes =>
      cases o <;> simp only [reduceCtorEq] at h
      · exact effect_read rfl h
      · exact effect_retry rfl h
      · exact effect_giveUp rfl h
    | staged writes source p =>
      cases o <;> simp only [reduceCtorEq] at h
      · exact effect_finish rfl rfl h
      · exact effect_retry rfl h
      · exact effect_giveUp rfl h
    | returned source p => simp at h
    | raised => simp at h

/-- The commits are those of the recomputations that have returned, each once. -/
theorem reachable_commits {w : World Data Task} (hw : (system H).machine.Reachable w) :
    w.data.commits.Perm (w.tasks.filterMap committed) := by
  refine reachable_log committed Data.commits ?_ ?_ ?_ hw
  · rintro d ⟨-, hcommits, -⟩
    exact hcommits
  · intro d o ts hts
    cases o <;> simp only [system, Option.some.injEq, reduceCtorEq] at hts <;> subst hts <;> rfl
  · intro d t o d' ts rest hadv hlog
    cases effect_advance hadv with
    | still rows commits none =>
      have hts : ts.filterMap committed = [] :=
        List.filterMap_eq_nil_iff.mpr fun t' ht' => none t' (by simp [ht'])
      rw [none t (by simp)] at hlog
      rw [hts, commits]
      simpa using hlog
    | finished r writes source p task phase done commits left =>
      obtain ⟨day, pricing, attempt, phase'⟩ := r
      subst task left
      simp only at phase
      subst phase
      rw [commits]
      simpa [committed] using hlog

/-- Either no row has changed, or a recomputation has committed the metrics of its snapshot: the rows
of its key are these, and they are what they were if the last commit came of the same source. -/
inductive Step (H : Host) (d d' : Data) (ts : List Task) : Prop
  | still (rows : d'.rows = d.rows) (none : ∀ t ∈ ts, committed t = none)
  | returned (c : Commit) (task : ts.map committed = [some c])
    (projection : computeDailyMetrics H c.source c.day c.pricing = some c.p)
    (rows : d'.rows = Function.update d.rows (c.key H) (c.rows H))
    (again : ∀ last, d.last H (c.key H) = some last → last.pricing = c.pricing →
      last.source = c.source → d'.rows = d.rows)

/-- A recomputation of the source that the rows already come from writes what is there. -/
theorem rows_again {d : Data} {c last : Commit} (hd : DataOk H d)
    (hp : computeDailyMetrics H c.source c.day c.pricing = some c.p)
    (hlast : d.last H (c.key H) = some last) (hpricing : last.pricing = c.pricing)
    (hsource : last.source = c.source) : d.rows (c.key H) = c.rows H := by
  have hrows := hd.rows (c.key H)
  simp only [hlast] at hrows
  have hday : last.day = c.day := by
    have hkey := List.find?_some hlast
    simp only [decide_eq_true_eq] at hkey
    exact congrArg Key.day hkey
  have hsame : last.p = c.p := by
    have hlastp := hd.projections last (List.mem_of_find?_eq_some hlast)
    rw [hday, hpricing, hsource] at hlastp
    exact Option.some.inj (hlastp.symm.trans hp)
  rw [hrows]
  unfold Commit.rows
  rw [hsame, hpricing]

theorem step_advance {d d' : Data} {t : Task} {o : Outcome} {ts : List Task} (hd : DataOk H d)
    (ht : TaskOk H d t) (h : advance H d t o = some (d', ts)) : Step H d d' ts := by
  cases effect_advance h with
  | still rows commits none => exact .still rows fun t' ht' => none t' (by simp [ht'])
  | finished r writes source p task phase done commits left =>
    subst task
    have hp : computeDailyMetrics H source r.day r.pricing = some p := by
      simp only [TaskOk, Knows, phase] at ht
      exact ht.2.1
    rw [finish_eq ht phase] at done
    cases done
    refine .returned ⟨r.day, r.pricing, source, p⟩ rfl hp rfl ?_
    intro last hlast hpricing hsource
    have hsame := rows_again hd hp hlast hpricing hsource
    have hkey : Commit.key H ⟨r.day, r.pricing, source, p⟩ = r.key H := rfl
    rw [hkey] at hsame
    simp only [Data.unlock, Data.commit, ← hsame, Function.update_eq_self]

/-- A projection is accepted unless its totals of seconds are negative, and its rates lie between
zero and one. After any interleaving the rows of a key are those of the recomputation that has
committed last; every commit belongs to one recomputation that has returned; and each step that
commits writes the measured metrics of its snapshot, changing nothing if they were there, while
every other step leaves all rows. -/
theorem daily_aggregation_exact (hH : H.Lawful) :
    (∀ source day pricing p, (∀ bounds ∈ H.bounds day, Source.Settled source day bounds) →
      computeDailyMetrics H source day pricing = some p →
      validatedValues H p day = some (measured H p.metrics) ∧
        ∀ m ∈ p.metrics, m.name ∈ RATE_NAMES → ∀ v ∈ m.value, 0 ≤ v.toRat ∧ v.toRat ≤ 1) ∧
    ∀ w, (system H).machine.Reachable w →
      (∀ k, w.data.rows k = match w.data.last H k with
        | none => w.data.initial k
        | some c => c.rows H) ∧
      w.data.commits.Perm (w.tasks.filterMap committed) ∧
      ∀ t ∈ w.tasks, ∀ o d' ts, (system H).advance w.data t o = some (d', ts) →
        Step H w.data d' ts := by
  constructor
  · intro source day pricing p hsettled hp
    refine ⟨validatedValues_computed hH hsettled hp, ?_⟩
    intro m hm hrate v hv
    have hok := computed_ok hH hsettled hp m hm
    rw [Option.mem_def] at hv
    simp only [Metric.Ok, hv] at hok
    exact ⟨hok.2.1, hok.2.2 hrate⟩
  · intro w hw
    have hexact := reachable_exact hw
    refine ⟨hexact.data.rows, reachable_commits hw, ?_⟩
    intro t ht o d' ts hadv
    exact step_advance hexact.data (hexact.tasks t ht) hadv

/-! ### Two recomputations -/

/-- Rounding to so many binary places. -/
def places (n : ℕ) (q : ℚ) : ℚ := ⌊q * 2 ^ n + 1 / 2⌋ / 2 ^ n

theorem places_mono (n : ℕ) : Monotone (places n) := by
  intro q q' h
  unfold places
  have hfloor : ⌊q * 2 ^ n + 1 / 2⌋ ≤ ⌊q' * 2 ^ n + 1 / 2⌋ := by
    apply Int.floor_mono
    gcongr
  have hcast : (⌊q * 2 ^ n + 1 / 2⌋ : ℚ) ≤ ⌊q' * 2 ^ n + 1 / 2⌋ := by exact_mod_cast hfloor
  gcongr

/-- Between a quarter and a half a float has 54 binary places, and the column keeps 25 of them. -/
def columns : Host where
  bounds day := some (day * 86400000000 - 28800000000, (day + 1) * 86400000000 - 28800000000)
  hash dimensions := if dimensions.pricing = none then "plain" else "priced"
  toFloat := places 54
  store := places 25

theorem columns_lawful : columns.Lawful where
  mono := places_mono 54
  zero := by decide +kernel
  one := by decide +kernel

/-- An ended call of the first day. -/
def callOf (callId : ℕ) (connectedAt : Option Instant) : Call :=
  ⟨callId, 0, connectedAt, if connectedAt = none then .missed else .ended, 60, some false, .ready⟩

def noRows (source : Source) : World Data Task :=
  ⟨⟨source, fun _ _ => none, fun _ => false, fun _ _ => none, []⟩, []⟩

/-- Both recompute the first day; a call is written after the snapshot of the first one, and the
second one has to wait for its commit. -/
def overlapping : List (Input Outcome) :=
  [.request (.recompute 0 none), .request (.recompute 0 none), .request .others,
    .task 0 .go, .task 2 .go, .task 1 (.write ⟨[callOf 1 (some 5)], [], [], []⟩), .task 1 .go,
    .task 0 .go, .task 2 .go, .task 2 .go]

theorem daily_aggregation_exact_overlapping :
    ∃ w, (system columns).machine.Reachable w ∧ w.data.commits.length = 2 ∧
      w.data.rows ⟨0, "plain"⟩ .connectRate = some ⟨dailyDimensions none, 1⟩ ∧
      w.data.commits.Perm (w.tasks.filterMap committed) := by
  have hrun : ((system columns).machine.run (noRows ⟨[], [], [], []⟩) overlapping).any (fun w =>
      w.data.commits.length = 2 ∧
        w.data.rows ⟨0, "plain"⟩ .connectRate = some ⟨dailyDimensions none, 1⟩) = true := by
    decide +kernel
  obtain ⟨w, hw, hfinal⟩ := (Option.any_eq_true _ _).mp hrun
  have hreach : (system columns).machine.Reachable w :=
    ⟨_, overlapping, ⟨⟨rfl, rfl, fun _ => rfl⟩, rfl⟩, hw⟩
  have hperm := ((daily_aggregation_exact columns_lawful).2 w hreach).2.1
  exact ⟨w, hreach, (of_decide_eq_true hfinal).1, (of_decide_eq_true hfinal).2, hperm⟩

/-- A negative ledger row makes a projection that is refused, and of a third the column keeps
another number than the metric. -/
theorem daily_values_differ :
    (computeDailyMetrics columns ⟨[], [⟨some 0, .connected, -1, 0⟩], [], []⟩ 0 none).any
        (fun p => validatedValues columns p 0 = none) = true ∧
      (computeDailyMetrics columns ⟨[callOf 1 (some 5), callOf 2 none, callOf 3 none], [], [], []⟩
        0 none).any (fun p =>
          (Commit.rows columns ⟨0, none, ⟨[], [], [], []⟩, p⟩ .connectRate).any fun cell =>
            (measured columns p.metrics).lookup .connectRate ≠ some cell.value) = true := by
  decide +kernel

end CompanionBackend.DailyAggregates
