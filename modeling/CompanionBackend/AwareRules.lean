import CompanionBackend.TaskSystems
import CompanionBackend.AwareHooks

/-!
# What the hooks keep

Every row carries what the queries of its call saw. Rows only grow older: a row that was given up
stays so, and nothing else about it changes. So what a call ruled out by its queries is still ruled
out when it inserts, and two rows that exclude each other come from calls that overlapped. The
special places are counted exactly, the ones in flight included.
-/
namespace CompanionBackend.AwareRules

open Runs TaskSystems TaskSystem ProviderEvents DelayedJobs DelayedDelivery AwareHooks
open AgentMessages (TriggerType)
open GrowthCounters (Instant)

/-! ### Rows grow older -/

/-- The same row later on. -/
structure Aged (r r' : AwareRow) : Prop where
  userId : r'.userId = r.userId
  postId : r'.postId = r.postId
  triggerType : r'.triggerType = r.triggerType
  createdAt : r'.createdAt = r.createdAt
  isSpecial : r'.isSpecial = r.isSpecial
  active : active r'.status = true → active r.status = true

theorem Aged.refl (r : AwareRow) : Aged r r := ⟨rfl, rfl, rfl, rfl, rfl, id⟩

/-- Rows are added at the end, and those there were have aged. -/
structure Ages (q q' : List AwareRow) : Prop where
  length : q.length ≤ q'.length
  row : ∀ i r', i < q.length → q'[i]? = some r' → ∃ r, q[i]? = some r ∧ Aged r r'

theorem Ages.refl (q : List AwareRow) : Ages q q :=
  ⟨le_refl _, fun _ r' _ h => ⟨r', h, .refl r'⟩⟩

theorem ages_append (q : List AwareRow) (r : AwareRow) : Ages q (q ++ [r]) where
  length := by simp
  row i r' hi h := ⟨r', by rwa [List.getElem?_append_left hi] at h, .refl r'⟩

/-- The row a worker has claimed is generating, or failed already when it is marked again. -/
def WorkerHolds (q : List AwareRow) (s : AwareStage) : Prop :=
  ∀ id, s.claimed = some id → ∃ r, q[id]? = some r ∧
    (r.status = .generating ∨ isMarking s = true ∧ r.status = .failed)

/-- Of the first `n` rows all have the property. -/
def Seen (q : List AwareRow) (n : ℕ) (P : ℕ → AwareRow → Prop) : Prop :=
  n ≤ q.length ∧ ∀ i r, i < n → q[i]? = some r → P i r

theorem Seen.mono {q q' : List AwareRow} {n : ℕ} {P P' : ℕ → AwareRow → Prop} (h : Seen q n P)
    (hages : Ages q q') (hP : ∀ i r r', Aged r r' → P i r → P' i r') : Seen q' n P' := by
  refine ⟨h.1.trans hages.length, fun i r' hi hr' => ?_⟩
  obtain ⟨r, hr, haged⟩ := hages.row i r' (lt_of_lt_of_le hi h.1) hr'
  exact hP i r r' haged (h.2 i r hi hr)

/-- No active row of this kind for the post. -/
def NotQueued (userId : ℕ) (kind : HookKind) (postId : ℕ) (_ : ℕ) (r : AwareRow) : Prop :=
  isOf userId kind r = true → r.postId = postId → active r.status = false

/-- No active like message so recent, apart from those that were being generated. -/
def NotSuppressed (cfg : AwareConfig) (userId : ℕ) (t : Instant) (generating : List ℕ) (i : ℕ)
    (r : AwareRow) : Prop :=
  isOf userId .like r = true → active r.status = true →
    t - r.createdAt ≤ cfg.readSuppressAfterLike → i ∈ generating

/-- No active read message so recent. -/
def NotCooling (cfg : AwareConfig) (userId : ℕ) (t : Instant) (_ : ℕ) (r : AwareRow) : Prop :=
  isOf userId .read r = true → active r.status = true → cfg.readUserCooldown < t - r.createdAt

theorem isOf_aged {userId : ℕ} {kind : HookKind} {r r' : AwareRow} (h : Aged r r') :
    isOf userId kind r' = isOf userId kind r := by
  simp [isOf, h.userId, h.triggerType]

theorem NotQueued.aged {userId : ℕ} {kind : HookKind} {postId i : ℕ} {r r' : AwareRow}
    (h : Aged r r') (hr : NotQueued userId kind postId i r) : NotQueued userId kind postId i r' := by
  intro hof hpost
  have hinactive := hr (isOf_aged h ▸ hof) (h.postId ▸ hpost)
  cases hactive : active r'.status with
  | false => rfl
  | true => rw [h.active hactive] at hinactive; cases hinactive

theorem NotSuppressed.aged {cfg : AwareConfig} {userId : ℕ} {t t' : Instant} {generating : List ℕ}
    {i : ℕ} {r r' : AwareRow} (h : Aged r r') (ht : t ≤ t')
    (hr : NotSuppressed cfg userId t generating i r) :
    NotSuppressed cfg userId t' generating i r' := by
  intro hof hactive hrecent
  refine hr (isOf_aged h ▸ hof) (h.active hactive) ?_
  rw [h.createdAt] at hrecent
  exact (sub_le_sub_right ht _).trans hrecent

theorem NotCooling.aged {cfg : AwareConfig} {userId : ℕ} {t t' : Instant} {i : ℕ} {r r' : AwareRow}
    (h : Aged r r') (ht : t ≤ t') (hr : NotCooling cfg userId t i r) :
    NotCooling cfg userId t' i r' := by
  intro hof hactive
  have hlt := hr (isOf_aged h ▸ hof) (h.active hactive)
  rw [h.createdAt]
  exact hlt.trans_le (sub_le_sub_right ht _)

/-- What a call that inserts at the time `t` has ruled out by its queries. -/
structure Vetted (cfg : AwareConfig) (q : List AwareRow) (userId : ℕ) (kind : HookKind)
    (postId : ℕ) (c : Check) (t : Instant) : Prop where
  dedup : Seen q c.dedupSeen (NotQueued userId kind postId)
  suppress : kind = .read →
    Seen q c.suppressSeen (NotSuppressed cfg userId t c.generatingSeen)
  cooldown : kind = .read → 0 < cfg.readUserCooldown → Seen q c.cooldownSeen (NotCooling cfg userId t)

theorem Vetted.mono {cfg : AwareConfig} {q q' : List AwareRow} {userId : ℕ} {kind : HookKind}
    {postId : ℕ} {c : Check} {t t' : Instant} (h : Vetted cfg q userId kind postId c t)
    (hages : Ages q q') (ht : t ≤ t') : Vetted cfg q' userId kind postId c t' where
  dedup := h.dedup.mono hages fun _ _ _ haged => NotQueued.aged haged
  suppress hkind := (h.suppress hkind).mono hages fun _ _ _ haged => NotSuppressed.aged haged ht
  cooldown hkind hpos := (h.cooldown hkind hpos).mono hages fun _ _ _ haged =>
    NotCooling.aged haged ht

/-! ### The queries -/

/-- What a task relies on: a call on what it has ruled out, a worker on its row. -/
def Assertion (cfg : AwareConfig) (d : HookData) : HookTask → Prop
  | .suppressing c => Seen d.aware.queue c.check.dedupSeen (NotQueued c.userId c.kind c.postId)
  | .cooling c =>
    Seen d.aware.queue c.check.dedupSeen (NotQueued c.userId c.kind c.postId) ∧
      Seen d.aware.queue c.check.suppressSeen
        (NotSuppressed cfg c.userId d.now c.check.generatingSeen)
  | .loading c | .deciding c _ _ | .reserving c | .enqueuing c _ _ | .compensating c | .rolling c
  | .delaying c => Vetted cfg d.aware.queue c.userId c.kind c.postId c.check d.now
  | .worker s _ => WorkerHolds d.aware.queue s
  | _ => True

/-- The row that the task has claimed. -/
def claimedRow : HookTask → Option ℕ
  | .worker s _ => s.claimed
  | _ => none

/-- An assertion survives the steps of others. -/
theorem Assertion.mono {cfg : AwareConfig} {d d' : HookData} {u : HookTask}
    (h : Assertion cfg d u) (hages : Ages d.aware.queue d'.aware.queue) (hnow : d.now ≤ d'.now)
    (hrow : ∀ id r, claimedRow u = some id → d.aware.queue[id]? = some r → r.status ≠ .pending →
      d'.aware.queue[id]? = some r) : Assertion cfg d' u := by
  cases u with
  | anchoring userId posts => trivial
  | deduplicating kind userId postId => trivial
  | suppressing c => exact Seen.mono h hages fun _ _ _ haged => NotQueued.aged haged
  | cooling c =>
    exact ⟨h.1.mono hages fun _ _ _ haged => NotQueued.aged haged,
      h.2.mono hages fun _ _ _ haged => NotSuppressed.aged haged hnow⟩
  | loading c => exact Vetted.mono h hages hnow
  | deciding c createdAt usedCount => exact Vetted.mono h hages hnow
  | reserving c => exact Vetted.mono h hages hnow
  | enqueuing c special dueAt => exact Vetted.mono h hages hnow
  | compensating c => exact Vetted.mono h hages hnow
  | rolling c => exact Vetted.mono h hages hnow
  | delaying c => exact Vetted.mono h hages hnow
  | worker s rest =>
    intro id hid
    obtain ⟨r, hr, hstatus⟩ := h id hid
    refine ⟨r, hrow id r hid hr ?_, hstatus⟩
    rcases hstatus with hgen | ⟨-, hfailed⟩
    · simp [hgen]
    · simp [hfailed]

/-- Every row is there with the check of its call, and the places are within their maximum. -/
structure Rows (cfg : AwareConfig) (d : HookData) : Prop where
  checked : d.checks.length = d.rows
  vetted : ∀ (j : ℕ) (r : AwareRow) (c : Check) (kind : HookKind),
    d.aware.queue[j]? = some r → d.checks[j]? = some c → r.triggerType = kind.trigger →
    Vetted cfg d.aware.queue r.userId kind r.postId c r.createdAt
  quota : ∀ kind userId, 0 ≤ cfg.specialMax kind → d.used kind userId ≤ cfg.specialMax kind

/-- Nothing is added to the rows. -/
theorem Rows.mono {cfg : AwareConfig} {d d' : HookData} (h : Rows cfg d)
    (hages : Ages d.aware.queue d'.aware.queue) (hrows : d'.rows = d.rows)
    (hchecks : d'.checks = d.checks)
    (hquota : ∀ kind userId, 0 ≤ cfg.specialMax kind → d'.used kind userId ≤ cfg.specialMax kind) :
    Rows cfg d' where
  checked := by rw [hchecks, hrows, h.checked]
  vetted j r c kind hr hc hkind := by
    have hj : j < d.aware.queue.length := by
      have hlt := (List.getElem?_eq_some_iff.mp hr).1
      exact lt_of_lt_of_eq hlt hrows
    obtain ⟨r₀, hr₀, haged⟩ := hages.row j r hj hr
    have hvetted := h.vetted j r₀ c kind hr₀ (hchecks ▸ hc) (haged.triggerType ▸ hkind)
    rw [haged.userId, haged.postId, haged.createdAt]
    exact hvetted.mono hages (le_refl _)
  quota := hquota

/-- The row of a call that has ruled out what excludes it. -/
theorem Rows.enqueue {cfg : AwareConfig} {d : HookData} {c : Call} (h : Rows cfg d)
    (hc : Vetted cfg d.aware.queue c.userId c.kind c.postId c.check d.now) (special : Bool)
    (dueAt : Instant) : Rows cfg (d.enqueue c special dueAt) := by
  have hages : Ages d.aware.queue (d.enqueue c special dueAt).aware.queue := ages_append _ _
  have hlength : d.checks.length = d.aware.queue.length := h.checked
  refine ⟨?_, ?_, h.quota⟩
  · simp [HookData.enqueue, HookData.rows, AwareData.enqueue, hlength]
  · intro j r c' kind hr hc' hkind
    rcases Nat.lt_trichotomy j d.aware.queue.length with hlt | rfl | hgt
    · obtain ⟨r₀, hr₀, haged⟩ := hages.row j r hlt hr
      have hc₀ : d.checks[j]? = some c' := by
        rwa [HookData.enqueue, List.getElem?_append_left (by omega)] at hc'
      have hvetted := h.vetted j r₀ c' kind hr₀ hc₀ (haged.triggerType ▸ hkind)
      rw [haged.userId, haged.postId, haged.createdAt]
      exact hvetted.mono hages (le_refl _)
    · simp only [HookData.enqueue, AwareData.enqueue, List.getElem?_concat_length,
        Option.some.injEq] at hr
      obtain rfl : c.check = c' := by
        rw [← hlength] at hc'
        simpa [HookData.enqueue] using hc'
      subst hr
      obtain rfl : c.kind = kind := by
        revert hkind
        cases c.kind <;> cases kind <;> simp [HookKind.trigger]
      exact hc.mono hages (le_refl _)
    · rw [List.getElem?_eq_none] at hr
      · cases hr
      · simp [HookData.enqueue, AwareData.enqueue]
        omega

/-! ### One step -/

/-- A step of a call leaves the queue as it was or adds the row of the call. -/
structure CallStep (cfg : AwareConfig) (d d' : HookData) (ts : List HookTask) : Prop where
  rows : Rows cfg d'
  ages : Ages d.aware.queue d'.aware.queue
  kept : ∀ (id : ℕ) (r : AwareRow), d.aware.queue[id]? = some r → d'.aware.queue[id]? = some r
  now : d.now ≤ d'.now
  tasks : ∀ t ∈ ts, Assertion cfg d' t
  free : ∀ t ∈ ts, claimedRow t = none
  single : ts.length ≤ 1

theorem assertion_nil {cfg : AwareConfig} {d : HookData} : ∀ t ∈ ([] : List HookTask),
    Assertion cfg d t := by simp

/-- The clock moves on. -/
theorem Rows.tick {cfg : AwareConfig} {d : HookData} (h : Rows cfg d) (now : Instant) :
    Rows cfg { d with now := now } :=
  ⟨h.checked, h.vetted, h.quota⟩

theorem Assertion.tick {cfg : AwareConfig} {d : HookData} {t : HookTask} (h : Assertion cfg d t)
    {now : Instant} (hnow : d.now ≤ now) : Assertion cfg { d with now := now } t :=
  Assertion.mono h (Ages.refl _) hnow fun _ _ _ hr _ => hr

/-- A list of at most one task. -/
theorem pairwise_of_single {α : Type*} {R : α → α → Prop} {ts : List α} (h : ts.length ≤ 1) :
    ts.Pairwise R := by
  rcases ts with _ | ⟨t, _ | ⟨t', rest⟩⟩
  · exact .nil
  · exact List.pairwise_singleton _ _
  · simp at h

/-- What the others rely on after a step of a call. -/
theorem CallStep.establishes {cfg : AwareConfig} {d d' : HookData} {t : HookTask}
    {ts : List HookTask} (h : CallStep cfg d d' ts) :
    Establishes (Rows cfg) (Assertion cfg) (Distinct claimedRow) d d' t ts where
  data := h.rows
  tasks := h.tasks
  pairwise := pairwise_of_single h.single
  others u hu _ :=
    ⟨hu.mono h.ages h.now fun id r _ hr _ => h.kept id r hr,
      fun t' ht' => distinct_of_none (h.free t' ht')⟩

/-- The special rows of a user. -/
def specialRows (d : HookData) (kind : HookKind) (userId : ℕ) : ℕ :=
  d.aware.queue.countP fun r => isOf userId kind r && r.isSpecial

/-- No transaction of the places raises after its commit, and no place fails to be given back. -/
def Orderly : HookTask → HookInput → Prop
  | .reserving _, .lost _ _ | .enqueuing _ true _, .lost _ _ | .compensating _, .lost _ _
  | .compensating _, .raised _ => False
  | _, _ => True

instance (t : HookTask) (i : HookInput) : Decidable (Orderly t i) := by
  unfold Orderly
  split <;> infer_instance

/-- The places of a user, against what the tasks hold of them. -/
def Balanced (kind : HookKind) (userId : ℕ) (d : HookData) (held : ℕ) : Prop :=
  d.used kind userId = specialRows d kind userId + held

end CompanionBackend.AwareRules
