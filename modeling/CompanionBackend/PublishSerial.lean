import Mathlib.Algebra.Order.Group.Multiset
import CompanionBackend.AdminPublishing
import CompanionBackend.TaskSystems

/-!
# When publications are serial

The active version is read without a lock and the cache is written before the commit, so two
publications, a rollback of the database or a reader can each leave the rows or the cache
wrong. In runs where a publication commits on the rows it has read, commits once it has
written the cache, and a reader refills only what is active, they stay right.
-/
namespace CompanionBackend.AdminPublishing

open Runs TaskSystems ProviderEvents

/-- A publication commits on the rows it saw first and does not fail once its value is in the
cache; a reader writes what is active, while no other value is staged. -/
def Orderly (d : PublishData) (t : PublishTask) : PublishInput → Prop
  | .proceed =>
    match t with
    | .trimmed p _ _ => d.rows = p.snapshot
    | .refilling value => (activeRow d.rows).map ConfigRow.value = some value ∧
        (d.lock = .free ∨ d.lock = .writing)
    | _ => True
  | .abort =>
    match t with
    | .cached _ _ | .trimmed _ _ _ => False
    | _ => True
  | _ => True

instance decidableOrderly (d : PublishData) (t : PublishTask) (i : PublishInput) :
    Decidable (Orderly d t i) :=
  match i with
  | .publish _ | .rollback _ | .read | .evict => isTrue trivial
  | .proceed =>
    match t with
    | .trimmed p _ _ => inferInstanceAs (Decidable (d.rows = p.snapshot))
    | .refilling value => inferInstanceAs (Decidable
        ((activeRow d.rows).map ConfigRow.value = some value ∧
          (d.lock = .free ∨ d.lock = .writing)))
    | .publishing _ | .rollingBack _ | .prepared _ | .locked _ | .flushed _ _ | .cached _ _
    | .reading | .missed | .evicting => isTrue trivial
  | .abort =>
    match t with
    | .cached _ _ | .trimmed _ _ _ => isFalse id
    | .publishing _ | .rollingBack _ | .prepared _ | .locked _ | .flushed _ _ | .reading
    | .missed | .refilling _ | .evicting => isTrue trivial

/-- The rows are as they should be, no active row was ever deleted, and the cache is current
once nothing is in flight. -/
structure Serial (w : World PublishData PublishTask) : Prop where
  rows : RowsKept w.data.rows
  removed : ∀ r ∈ w.data.removed, r.isActive = false
  cache : (∀ t ∈ w.tasks, t = .evicting) → CacheCurrent w.data

/-! ### Rows after a commit -/

theorem activeRow_of_kept {rows : List ConfigRow} (h : RowsKept rows) :
    ∃ a ∈ rows, a.isActive = true ∧ activeRow rows = some a := by
  obtain ⟨a, ha⟩ := h.active
  have hmem : a ∈ rows.filter ConfigRow.isActive := by simp [ha]
  obtain ⟨hrow, hactive⟩ := List.mem_filter.mp hmem
  refine ⟨a, hrow, hactive, ?_⟩
  have hhead := List.head?_filter (p := ConfigRow.isActive) (l := rows)
  rw [ha] at hhead
  exact hhead.symm

@[simp] theorem length_deactivate (active : Option ConfigRow) (rows : List ConfigRow) :
    (deactivate active rows).length = rows.length := List.length_map ..

@[simp] theorem map_version_deactivate (active : Option ConfigRow) (rows : List ConfigRow) :
    (deactivate active rows).map ConfigRow.version = rows.map ConfigRow.version := by
  simp only [deactivate, List.map_map]
  refine List.map_congr_left fun r _ => ?_
  simp only [Function.comp_apply, apply_ite ConfigRow.version, ite_self]

@[simp] theorem map_id_deactivate (active : Option ConfigRow) (rows : List ConfigRow) :
    (deactivate active rows).map ConfigRow.id = rows.map ConfigRow.id := by
  simp only [deactivate, List.map_map]
  refine List.map_congr_left fun r _ => ?_
  simp only [Function.comp_apply, apply_ite ConfigRow.id, ite_self]

/-- Without the active row no row is active. -/
theorem inactive_of_deactivate {rows : List ConfigRow} (h : RowsKept rows) :
    ∀ r ∈ deactivate (activeRow rows) rows, r.isActive = false := by
  obtain ⟨a, -, -, hactive⟩ := activeRow_of_kept h
  obtain ⟨b, hb⟩ := h.active
  intro r hr
  obtain ⟨r', hr', rfl⟩ := List.mem_map.mp hr
  split_ifs with hid
  · rfl
  · by_contra hon
    rw [Bool.not_eq_false] at hon
    have hmem : r' ∈ rows.filter ConfigRow.isActive := List.mem_filter.mpr ⟨hr', hon⟩
    have hmem' : a ∈ rows.filter ConfigRow.isActive :=
      List.mem_filter.mpr ⟨List.mem_of_find?_eq_some hactive, List.find?_some hactive⟩
    rw [hb, List.mem_singleton] at hmem hmem'
    rw [hactive, hmem, hmem'] at hid
    exact hid rfl

/-- A publication of rows that are kept, before the trimming. -/
structure Extends (rows : List ConfigRow) (row : ConfigRow) : Prop where
  active : row.isActive = true
  version : row.version = currentVersion rows + 1
  fresh : ∀ r ∈ rows, r.id < row.id

theorem Extends.newer {rows : List ConfigRow} {row : ConfigRow} (hkept : RowsKept rows)
    (h : Extends rows row) : ∀ r ∈ rows, r.version < row.version := by
  obtain ⟨a, ha, hon, hactive⟩ := activeRow_of_kept hkept
  intro r hr
  have hle := hkept.greatest a ha hon r hr
  have hversion : row.version = a.version + 1 := by
    rw [h.version, currentVersion, hactive]
    rfl
  omega

theorem mem_deactivate {active : Option ConfigRow} {rows : List ConfigRow} {r : ConfigRow}
    (h : r ∈ deactivate active rows) : ∃ r' ∈ rows, r'.id = r.id ∧ r'.version = r.version := by
  obtain ⟨r', hr', rfl⟩ := List.mem_map.mp h
  refine ⟨r', hr', ?_⟩
  split_ifs <;> exact ⟨rfl, rfl⟩

/-- The trimming deletes nothing, or the oldest row of a full table. -/
theorem excessIds_extended {rows : List ConfigRow} {row : ConfigRow} (hkept : RowsKept rows)
    (hext : Extends rows row) :
    rows.length < maxHistoryVersions ∧
        excessIds (deactivate (activeRow rows) rows ++ [row]) = [] ∨
      rows.length = maxHistoryVersions ∧ ∃ oldest ∈ rows,
        excessIds (deactivate (activeRow rows) rows ++ [row]) = [oldest.id] ∧
        ∀ r ∈ rows, oldest.version ≤ r.version := by
  have hfilter : (deactivate (activeRow rows) rows ++ [row]).filter (fun r => !r.isActive) =
      deactivate (activeRow rows) rows := by
    rw [List.filter_append, List.filter_eq_self.mpr fun r hr => by
      simp [inactive_of_deactivate hkept r hr]]
    simp [hext.active]
  unfold excessIds
  rw [hfilter, List.length_append, length_deactivate, List.length_singleton]
  rcases Nat.lt_or_eq_of_le hkept.bounded with hless | hfull
  · refine .inl ⟨hless, ?_⟩
    have hzero : rows.length + 1 - maxHistoryVersions = 0 := by omega
    rw [hzero, List.take_zero, List.map_nil]
  · refine .inr ⟨hfull, ?_⟩
    have hone : rows.length + 1 - maxHistoryVersions = 1 := by omega
    have hlength := List.length_insertionSort versionLe (deactivate (activeRow rows) rows)
    have hsorted := List.pairwise_insertionSort versionLe (deactivate (activeRow rows) rows)
    have hmem := fun r => List.mem_insertionSort versionLe (x := r)
      (l := deactivate (activeRow rows) rows)
    rw [hone]
    cases hsort : (deactivate (activeRow rows) rows).insertionSort versionLe with
    | nil =>
      rw [hsort, length_deactivate, hfull] at hlength
      simp [maxHistoryVersions] at hlength
    | cons s rest =>
      rw [hsort] at hsorted hmem
      obtain ⟨oldest, hrow, hid, hversion⟩ := mem_deactivate ((hmem s).mp List.mem_cons_self)
      refine ⟨oldest, hrow, by simp [hid], fun r hr => ?_⟩
      have hr' : r.version ∈ (deactivate (activeRow rows) rows).map ConfigRow.version := by
        rw [map_version_deactivate]
        exact List.mem_map_of_mem hr
      obtain ⟨r', hmem', heq⟩ := List.mem_map.mp hr'
      rw [hversion, ← heq]
      rcases List.mem_cons.mp ((hmem r').mpr hmem') with rfl | hlater
      · exact le_rfl
      · exact (List.pairwise_cons.mp hsorted).1 r' hlater

theorem eq_of_id {rows : List ConfigRow} (hids : (rows.map ConfigRow.id).Nodup) {r s : ConfigRow}
    (hr : r ∈ rows) (hs : s ∈ rows) (h : r.id = s.id) : r = s :=
  List.inj_on_of_nodup_map hids hr hs h

theorem eq_of_version {rows : List ConfigRow} (hkept : RowsKept rows) {r s : ConfigRow}
    (hr : r ∈ rows) (hs : s ∈ rows) (h : r.version = s.version) : r = s :=
  List.inj_on_of_nodup_map hkept.distinct hr hs h

/-- A row that is deleted was not the active one. -/
theorem excess_inactive {rows : List ConfigRow} {row : ConfigRow} (hkept : RowsKept rows)
    (hids : (rows.map ConfigRow.id).Nodup) (hext : Extends rows row) {r : ConfigRow}
    (hr : r ∈ rows) (hexcess : r.id ∈ excessIds (deactivate (activeRow rows) rows ++ [row])) :
    r.isActive = false := by
  by_contra hon
  rw [Bool.not_eq_false] at hon
  rcases excessIds_extended hkept hext with ⟨-, hnone⟩ | ⟨hfull, oldest, hrow, hids', hmin⟩
  · simp [hnone] at hexcess
  · rw [hids', List.mem_singleton] at hexcess
    obtain rfl := eq_of_id hids hr hrow hexcess
    -- the oldest and the newest of twenty rows would be one
    have hall : ∀ s ∈ rows, s = r := fun s hs =>
      eq_of_version hkept hs hr (le_antisymm (hkept.greatest r hr hon s hs) (hmin s hs))
    have hsub : rows ⊆ [r] := fun s hs => List.mem_singleton.mpr (hall s hs)
    have hle := (List.subperm_of_subset (List.Nodup.of_map _ hids) hsub).length_le
    rw [hfull] at hle
    simp [maxHistoryVersions] at hle

/-- What a publication keeps of the rows it saw. -/
def survivors (p : Publication) (row : ConfigRow) : List ConfigRow :=
  (deactivate (activeRow p.snapshot) p.snapshot).filter fun r =>
    decide (r.id ∉ excessIds (PublishData.view p row))

theorem survivors_sublist (p : Publication) (row : ConfigRow) :
    (survivors p row).Sublist (deactivate (activeRow p.snapshot) p.snapshot) :=
  List.filter_sublist

/-- What is kept is inactive and older than the new row. -/
theorem survivor_spec {p : Publication} {row : ConfigRow} (hkept : RowsKept p.snapshot)
    (hext : Extends p.snapshot row) {r : ConfigRow} (hr : r ∈ survivors p row) :
    r.isActive = false ∧ r.version < row.version ∧ r.id < row.id := by
  have hmem := (survivors_sublist p row).subset hr
  obtain ⟨r', hr', hid, hversion⟩ := mem_deactivate hmem
  exact ⟨inactive_of_deactivate hkept r hmem, hversion ▸ hext.newer hkept r' hr',
    hid ▸ hext.fresh r' hr'⟩

theorem survivors_length {p : Publication} {row : ConfigRow} (hkept : RowsKept p.snapshot)
    (hext : Extends p.snapshot row) : (survivors p row).length < maxHistoryVersions := by
  rcases excessIds_extended hkept hext with ⟨hless, -⟩ | ⟨hfull, oldest, hrow, hone, -⟩
  · have hle := (survivors_sublist p row).length_le
    rw [length_deactivate] at hle
    omega
  · have hmem : oldest.id ∈ (deactivate (activeRow p.snapshot) p.snapshot).map ConfigRow.id := by
      rw [map_id_deactivate]
      exact List.mem_map_of_mem hrow
    obtain ⟨o, ho, heq⟩ := List.mem_map.mp hmem
    have hlt : (survivors p row).length < (deactivate (activeRow p.snapshot) p.snapshot).length :=
      List.length_filter_lt_length_iff_exists.mpr ⟨o, ho, by simp [PublishData.view, hone, heq]⟩
    rw [length_deactivate] at hlt
    omega

/-- The new row is not among the rows that are deleted. -/
theorem row_not_excess {p : Publication} {row : ConfigRow} (hkept : RowsKept p.snapshot)
    (hext : Extends p.snapshot row) : row.id ∉ excessIds (PublishData.view p row) := by
  rcases excessIds_extended hkept hext with ⟨-, hnone⟩ | ⟨-, oldest, hrow, hone, -⟩
  · simp [PublishData.view, hnone]
  · have := hext.fresh oldest hrow
    simp only [PublishData.view, hone, List.mem_singleton]
    omega

theorem commit_rows {d : PublishData} {p : Publication} {row : ConfigRow}
    (hsame : d.rows = p.snapshot) (hkept : RowsKept p.snapshot) (hext : Extends p.snapshot row) :
    (d.commit p row (excessIds (PublishData.view p row))).rows = survivors p row ++ [row] := by
  simp only [PublishData.commit, hsame, List.filter_append, survivors]
  congr 1
  simp [row_not_excess hkept hext]

theorem rowsKept_survivors {p : Publication} {row : ConfigRow} (hkept : RowsKept p.snapshot)
    (hext : Extends p.snapshot row) : RowsKept (survivors p row ++ [row]) := by
  have hold := fun r (hr : r ∈ survivors p row) => survivor_spec hkept hext hr
  refine ⟨⟨row, ?_⟩, ?_, fun a ha hon r hr => ?_, ?_⟩
  · rw [List.filter_append, List.filter_eq_nil_iff.mpr fun r hr => by simp [(hold r hr).1]]
    simp [hext.active]
  · rw [List.map_append]
    refine List.Nodup.append (((survivors_sublist p row).map _).nodup ?_) (by simp) ?_
    · rw [map_version_deactivate]
      exact hkept.distinct
    · intro v hv hv'
      obtain ⟨r, hr, rfl⟩ := List.mem_map.mp hv
      have := (hold r hr).2.1
      simp at hv'
      omega
  · obtain rfl : a = row := by
      rcases List.mem_append.mp ha with ha | ha
      · simp [(hold a ha).1] at hon
      · exact List.mem_singleton.mp ha
    rcases List.mem_append.mp hr with hr | hr
    · exact (hold r hr).2.1.le
    · rw [List.mem_singleton.mp hr]
  · rw [List.length_append, List.length_singleton]
    exact survivors_length hkept hext

/-- A publication that commits on the rows it saw leaves rows that are kept, the new one active. -/
theorem settled_commit {d : PublishData} {p : Publication} {row : ConfigRow} (hd : Settled d)
    (hsame : d.rows = p.snapshot) (hext : Extends p.snapshot row) (hid : row.id < d.nextId) :
    Settled (d.commit p row (excessIds (PublishData.view p row))) := by
  have hkept : RowsKept p.snapshot := hsame ▸ hd.rows
  have hold := fun r (hr : r ∈ survivors p row) => survivor_spec hkept hext hr
  have hrows := commit_rows hsame hkept hext
  refine ⟨hrows ▸ rowsKept_survivors hkept hext, ?_, fun r hr => ?_⟩
  · rw [hrows, List.map_append]
    refine List.Nodup.append (((survivors_sublist p row).map _).nodup ?_) (by simp) ?_
    · rw [map_id_deactivate, ← hsame]
      exact hd.ids
    · intro v hv hv'
      obtain ⟨r, hr, rfl⟩ := List.mem_map.mp hv
      have := (hold r hr).2.2
      simp at hv'
      omega
  · rw [hrows] at hr
    rcases List.mem_append.mp hr with hr | hr
    · exact (hold r hr).2.2.trans hid
    · rw [List.mem_singleton.mp hr]
      exact hid

theorem activeRow_commit {d : PublishData} {p : Publication} {row : ConfigRow}
    (hsame : d.rows = p.snapshot) (hkept : RowsKept p.snapshot) (hext : Extends p.snapshot row) :
    activeRow (d.commit p row (excessIds (PublishData.view p row))).rows = some row := by
  rw [commit_rows hsame hkept hext, activeRow, List.find?_append,
    List.find?_eq_none.mpr fun r hr => by simp [(survivor_spec hkept hext hr).1]]
  simp [hext.active]

/-! ### What operations carry -/

/-- The lock an operation holds, and what it has staged. -/
def carried : PublishTask → Multiset WriteLock
  | .locked _ | .flushed _ _ => {.writing}
  | .cached p _ | .trimmed p _ _ => {.staged p.value}
  | _ => 0

def held : WriteLock → Multiset WriteLock
  | .free => 0
  | l => {l}

/-- The lock is held by the one operation that carries it. -/
theorem held_split {l lock : WriteLock} {rest : Multiset WriteLock}
    (h : {l} + rest = held lock) : lock = l ∧ rest = 0 := by
  rw [Multiset.singleton_add] at h
  cases lock with
  | free => exact absurd h (Multiset.cons_ne_zero)
  | writing =>
    obtain ⟨rfl, rfl⟩ := (Multiset.singleton_eq_cons_iff rest).mp h.symm
    exact ⟨rfl, rfl⟩
  | staged value =>
    obtain ⟨rfl, rfl⟩ := (Multiset.singleton_eq_cons_iff rest).mp h.symm
    exact ⟨rfl, rfl⟩

theorem held_free {rest : Multiset WriteLock} (h : 0 + rest = held .free) : rest = 0 := by
  rwa [zero_add] at h

/-- The cache shows the staged value, or what is active while none is staged. -/
def CacheSound (d : PublishData) : Prop :=
  match d.lock with
  | .staged value => ∀ c ∈ d.cache, c = value
  | _ => CacheCurrent d

/-- The data between two steps. -/
structure Sound (d : PublishData) (locks : Multiset WriteLock) : Prop where
  settled : Settled d
  removed : ∀ r ∈ d.removed, r.isActive = false
  cache : CacheSound d
  locks : locks = held d.lock

/-- What an operation knows of its rows. -/
def Known (d : PublishData) : PublishTask → Prop
  | .prepared p | .locked p => ∀ r ∈ p.snapshot, r.id < d.nextId
  | .flushed p row | .cached p row =>
    Extends p.snapshot row ∧ row.value = p.value ∧ row.id < d.nextId
  | .trimmed p row ids => (Extends p.snapshot row ∧ row.value = p.value ∧ row.id < d.nextId) ∧
    ids = excessIds (PublishData.view p row)
  | _ => True

theorem Known.mono {d d' : PublishData} (hle : d.nextId ≤ d'.nextId) {t : PublishTask}
    (h : Known d t) : Known d' t := by
  cases t with
  | prepared p => exact fun r hr => (h r hr).trans_le hle
  | locked p => exact fun r hr => (h r hr).trans_le hle
  | flushed p row => exact ⟨h.1, h.2.1, h.2.2.trans_le hle⟩
  | cached p row => exact ⟨h.1, h.2.1, h.2.2.trans_le hle⟩
  | trimmed p row ids => exact ⟨⟨h.1.1, h.1.2.1, h.1.2.2.trans_le hle⟩, h.2⟩
  | _ => trivial

@[simp] theorem release_rows (d : PublishData) (t : PublishTask) : (d.release t).rows = d.rows := by
  unfold PublishData.release
  split_ifs <;> rfl

@[simp] theorem release_nextId (d : PublishData) (t : PublishTask) :
    (d.release t).nextId = d.nextId := by
  unfold PublishData.release
  split_ifs <;> rfl

theorem nextId_le_advance {d d' : PublishData} {t : PublishTask} {i : PublishInput}
    {ts : List PublishTask} (h : publishSystem.advance d t i = some (d', ts)) :
    d.nextId ≤ d'.nextId := by
  cases i with
  | abort =>
    obtain ⟨rfl, -⟩ := Prod.mk.inj (Option.some.inj h)
    simp
  | proceed =>
    change d.proceed t = some (d', ts) at h
    cases t with
    | publishing _ | flushed _ _ | cached _ _ | trimmed _ _ _ | refilling _ | evicting =>
      obtain ⟨rfl, -⟩ := Prod.mk.inj (Option.some.inj h)
      exact le_rfl
    | rollingBack version =>
      unfold PublishData.proceed at h
      dsimp only at h
      split at h <;>
      · obtain ⟨rfl, -⟩ := Prod.mk.inj (Option.some.inj h)
        exact le_rfl
    | prepared p =>
      simp only [PublishData.proceed] at h
      split_ifs at h
      obtain ⟨rfl, -⟩ := Prod.mk.inj (Option.some.inj h)
      exact le_rfl
    | locked p =>
      simp only [PublishData.proceed] at h
      split_ifs at h <;>
      · obtain ⟨rfl, -⟩ := Prod.mk.inj (Option.some.inj h)
        simp
    | reading =>
      simp only [PublishData.proceed] at h
      split_ifs at h <;>
      · obtain ⟨rfl, -⟩ := Prod.mk.inj (Option.some.inj h)
        exact le_rfl
    | missed =>
      unfold PublishData.proceed at h
      dsimp only at h
      split at h <;>
      · obtain ⟨rfl, -⟩ := Prod.mk.inj (Option.some.inj h)
        exact le_rfl
  | publish _ | rollback _ | read | evict => simp [publishSystem] at h

/-- What a step leaves: the data with what the other operations hold, and its successors. -/
structure StepSound (d' : PublishData) (ts : List PublishTask) (rest : Multiset WriteLock) :
    Prop where
  sound : Sound d' ((ts.map carried).sum + rest)
  known : ∀ t ∈ ts, Known d' t

theorem stepSound_single {d' : PublishData} {t : PublishTask} {rest : Multiset WriteLock}
    (hsound : Sound d' (carried t + rest)) (hknown : Known d' t) : StepSound d' [t] rest :=
  ⟨by simpa using hsound, by simpa using hknown⟩

theorem stepSound_over {d' : PublishData} {rest : Multiset WriteLock} (hsound : Sound d' rest) :
    StepSound d' [] rest := ⟨by simpa using hsound, by simp⟩

/-- Giving up the lock before the cache is written leaves everything as it was. -/
theorem sound_release {d : PublishData} {t : PublishTask} {rest : Multiset WriteLock}
    (h : Sound d (carried t + rest)) (hearly : carried t = {.writing} ∧ t.holds = true ∨
      carried t = 0 ∧ t.holds = false) : Sound (d.release t) rest := by
  rcases hearly with ⟨hcarried, hholds⟩ | ⟨hcarried, hholds⟩
  · have hlocks := h.locks
    rw [hcarried] at hlocks
    obtain ⟨hlock, rfl⟩ := held_split hlocks
    have hcache := h.cache
    simp only [CacheSound, hlock] at hcache
    simp only [PublishData.release, hholds, if_true]
    exact ⟨⟨h.settled.rows, h.settled.ids, h.settled.fresh⟩, h.removed, hcache, rfl⟩
  · simp only [PublishData.release, hholds, Bool.false_eq_true, if_false]
    rwa [hcarried, zero_add] at h

/-- The commit of a publication makes the staged value the active one. -/
theorem sound_commit {d : PublishData} {p : Publication} {row : ConfigRow} {ids : List ℕ}
    {rest : Multiset WriteLock} (h : Sound d ({.staged p.value} + rest))
    (hknown : Known d (.trimmed p row ids)) (hsame : d.rows = p.snapshot) :
    Sound (d.commit p row ids) rest := by
  obtain ⟨⟨hext, hvalue, hid⟩, rfl⟩ := hknown
  obtain ⟨hlock, rfl⟩ := held_split h.locks
  have hkept : RowsKept p.snapshot := hsame ▸ h.settled.rows
  have hcache := h.cache
  simp only [CacheSound, hlock] at hcache
  refine ⟨settled_commit h.settled hsame hext hid, fun r hr => ?_, ?_, rfl⟩
  · rcases List.mem_append.mp hr with hold | hnew
    · exact h.removed r hold
    · obtain ⟨hmem, hexcess⟩ := List.mem_filter.mp hnew
      rw [hsame] at hmem
      exact excess_inactive hkept (hsame ▸ h.settled.ids) hext hmem (of_decide_eq_true hexcess)
  · change CacheCurrent (d.commit p row (excessIds (PublishData.view p row)))
    intro c hc a ha
    rw [activeRow_commit hsame hkept hext] at ha
    obtain rfl := Option.some.inj ha
    exact (hcache c hc).trans hvalue.symm

theorem proceed_sound {d d' : PublishData} {t : PublishTask} {ts : List PublishTask}
    {rest : Multiset WriteLock} (hknown : Known d t) (hok : Orderly d t .proceed)
    (h : d.proceed t = some (d', ts)) (hsound : Sound d (carried t + rest)) :
    StepSound d' ts rest := by
  have hidle : carried t = 0 → Sound d rest := by
    intro hzero
    rwa [hzero, zero_add] at hsound
  cases t with
  | publishing value =>
    obtain ⟨rfl, rfl⟩ := Prod.mk.inj (Option.some.inj h)
    exact stepSound_single hsound hsound.settled.fresh
  | rollingBack version =>
    unfold PublishData.proceed at h
    dsimp only at h
    split at h
    · obtain ⟨rfl, rfl⟩ := Prod.mk.inj (Option.some.inj h)
      exact stepSound_single hsound hsound.settled.fresh
    · obtain ⟨rfl, rfl⟩ := Prod.mk.inj (Option.some.inj h)
      exact stepSound_over (hidle rfl)
  | prepared p =>
    simp only [PublishData.proceed] at h
    split_ifs at h with hfree
    obtain ⟨rfl, rfl⟩ := Prod.mk.inj (Option.some.inj h)
    have hlocks := hsound.locks
    rw [hfree] at hlocks
    obtain rfl := held_free hlocks
    have hcache := hsound.cache
    simp only [CacheSound, hfree] at hcache
    exact stepSound_single ⟨⟨hsound.settled.rows, hsound.settled.ids, hsound.settled.fresh⟩,
      hsound.removed, hcache, rfl⟩ hknown
  | locked p =>
    simp only [PublishData.proceed] at h
    split_ifs at h with hstale
    · obtain ⟨rfl, rfl⟩ := Prod.mk.inj (Option.some.inj h)
      exact stepSound_over (sound_release hsound (.inl ⟨rfl, rfl⟩))
    · obtain ⟨rfl, rfl⟩ := Prod.mk.inj (Option.some.inj h)
      refine stepSound_single ⟨⟨hsound.settled.rows, hsound.settled.ids, fun r hr =>
        Nat.lt_succ_of_lt (hsound.settled.fresh r hr)⟩, hsound.removed, hsound.cache,
        hsound.locks⟩ ⟨⟨rfl, rfl, hknown⟩, rfl, Nat.lt_succ_self _⟩
  | flushed p row =>
    obtain ⟨rfl, rfl⟩ := Prod.mk.inj (Option.some.inj h)
    obtain ⟨-, rfl⟩ := held_split hsound.locks
    refine stepSound_single ⟨⟨hsound.settled.rows, hsound.settled.ids, hsound.settled.fresh⟩,
      hsound.removed, ?_, rfl⟩ hknown
    intro c hc
    exact (Option.some.inj hc).symm
  | cached p row =>
    obtain ⟨rfl, rfl⟩ := Prod.mk.inj (Option.some.inj h)
    exact stepSound_single hsound ⟨hknown, rfl⟩
  | trimmed p row ids =>
    obtain ⟨rfl, rfl⟩ := Prod.mk.inj (Option.some.inj h)
    exact stepSound_over (sound_commit hsound hknown hok)
  | reading =>
    simp only [PublishData.proceed] at h
    split_ifs at h
    · obtain ⟨rfl, rfl⟩ := Prod.mk.inj (Option.some.inj h)
      exact stepSound_over (hidle rfl)
    · obtain ⟨rfl, rfl⟩ := Prod.mk.inj (Option.some.inj h)
      exact stepSound_single hsound trivial
  | missed =>
    unfold PublishData.proceed at h
    dsimp only at h
    split at h
    · obtain ⟨rfl, rfl⟩ := Prod.mk.inj (Option.some.inj h)
      exact stepSound_single hsound trivial
    · obtain ⟨rfl, rfl⟩ := Prod.mk.inj (Option.some.inj h)
      exact stepSound_over (hidle rfl)
  | refilling value =>
    obtain ⟨rfl, rfl⟩ := Prod.mk.inj (Option.some.inj h)
    have hrest := hidle rfl
    obtain ⟨hactive, hlock⟩ := hok
    have hcurrent : CacheCurrent { d with cache := some value } := by
      intro c hc a ha
      change activeRow d.rows = some a at ha
      rw [ha] at hactive
      rw [← Option.some.inj hc]
      exact (Option.some.inj hactive).symm
    refine stepSound_over ⟨⟨hrest.settled.rows, hrest.settled.ids, hrest.settled.fresh⟩,
      hrest.removed, ?_, hrest.locks⟩
    rcases hlock with hlock | hlock
    · simpa only [CacheSound, hlock] using hcurrent
    · simpa only [CacheSound, hlock] using hcurrent
  | evicting =>
    obtain ⟨rfl, rfl⟩ := Prod.mk.inj (Option.some.inj h)
    have hrest := hidle rfl
    refine stepSound_over ⟨⟨hrest.settled.rows, hrest.settled.ids, hrest.settled.fresh⟩,
      hrest.removed, ?_, hrest.locks⟩
    unfold CacheSound
    split
    · simp
    · intro c hc
      simp at hc

theorem abort_sound {d : PublishData} {t : PublishTask} {rest : Multiset WriteLock}
    (hok : Orderly d t .abort) (hsound : Sound d (carried t + rest)) :
    StepSound (d.release t) [] rest := by
  refine stepSound_over (sound_release hsound ?_)
  cases t with
  | locked p => exact .inl ⟨rfl, rfl⟩
  | flushed p row => exact .inl ⟨rfl, rfl⟩
  | cached p row => exact absurd hok id
  | trimmed p row ids => exact absurd hok id
  | _ => exact .inr ⟨rfl, rfl⟩

theorem advance_sound {d d' : PublishData} {t : PublishTask} {i : PublishInput}
    {ts : List PublishTask} {rest : Multiset WriteLock} (hknown : Known d t)
    (hok : Orderly d t i) (h : publishSystem.advance d t i = some (d', ts))
    (hsound : Sound d (carried t + rest)) : StepSound d' ts rest := by
  cases i with
  | proceed => exact proceed_sound hknown hok h hsound
  | abort =>
    obtain ⟨rfl, rfl⟩ := Prod.mk.inj (Option.some.inj h)
    exact abort_sound hok hsound
  | publish _ | rollback _ | read | evict => simp [publishSystem] at h

theorem sound_initial {d : PublishData} (h : publishSystem.initial d) : Sound d 0 := by
  obtain ⟨hsettled, hcache, hremoved, hlock⟩ := h
  refine ⟨hsettled, by simp [hremoved], ?_, by rw [hlock]; rfl⟩
  simpa only [CacheSound, hlock] using hcache

theorem accept_idle {d : PublishData} {i : PublishInput} {ts : List PublishTask}
    (h : publishSystem.accept d i = some ts) :
    (ts.map carried).sum = 0 ∧ ∀ t ∈ ts, Known d t := by
  cases i with
  | proceed => simp [publishSystem] at h
  | abort => simp [publishSystem] at h
  | _ =>
    obtain rfl := Option.some.inj h
    exact ⟨rfl, by simp [Known]⟩

/-- In an orderly run the rows stay right and the cache is current when nothing is in flight. -/
theorem publishing_serial {w : World PublishData PublishTask}
    (hw : publishSystem.machine.ReachableUnder (TaskSystem.guard Orderly) w) : Serial w := by
  obtain ⟨hsound, -⟩ := TaskSystem.reachableUnder_balance carried (B := Sound) (T := Known)
    (fun _ => sound_initial) (fun _ _ _ => accept_idle)
    (fun _ _ _ _ _ h _ hu => hu.mono (nextId_le_advance h))
    (fun _ _ _ _ _ _ hknown hok h hsound =>
      let hstep := advance_sound hknown hok h hsound
      ⟨hstep.sound, hstep.known⟩) hw
  refine ⟨hsound.settled.rows, hsound.removed, fun hquiet => ?_⟩
  have hnone : (w.tasks.map carried).sum = 0 := by
    refine List.sum_eq_zero fun m hm => ?_
    obtain ⟨t, ht, rfl⟩ := List.mem_map.mp hm
    rw [hquiet t ht]
    rfl
  have hlocks := hsound.locks
  have hcache := hsound.cache
  rw [hnone] at hlocks
  unfold CacheSound at hcache
  cases hlock : w.data.lock with
  | free => simpa only [hlock] using hcache
  | writing =>
    rw [hlock] at hlocks
    exact absurd hlocks.symm (Multiset.singleton_ne_zero _)
  | staged value =>
    rw [hlock] at hlocks
    exact absurd hlocks.symm (Multiset.singleton_ne_zero _)

/-! ### Two administrators at once -/

/-- One published version, in the rows and in the cache. -/
def firstVersion : PublishData :=
  ⟨[⟨1, 1, "first".toList, true⟩], [], 2, some "first".toList, .free⟩

theorem firstVersion_initial : publishSystem.initial firstVersion := by
  refine ⟨⟨⟨⟨⟨1, 1, "first".toList, true⟩, rfl⟩, by simp [firstVersion], ?_, by decide⟩,
    by simp [firstVersion], by simp [firstVersion]⟩, ?_, rfl, rfl⟩
  · simp [firstVersion]
  · intro c hc a ha
    obtain rfl := Option.some.inj hc
    obtain rfl := Option.some.inj ha
    rfl

/-- Both read the first version before either of them commits. -/
def overlappingPublications : List (Input PublishInput) :=
  [.request (.publish "second".toList), .request (.publish "other".toList)] ++
    List.replicate 2 (.task 0 .proceed) ++
    [.task 0 .proceed, .task 1 .proceed, .task 1 .proceed, .task 1 .proceed, .task 1 .proceed] ++
    List.replicate 5 (.task 0 .proceed)

theorem publishing_not_serial :
    ¬ ∀ w, publishSystem.machine.Reachable w → Serial w := by
  intro h
  have hserial := h (publishSystem.machine.after ⟨firstVersion, []⟩ overlappingPublications)
    (Machine.reachable_after ⟨firstVersion_initial, rfl⟩ (by decide))
  obtain ⟨a, ha⟩ := hserial.rows.active
  have htwo : ((publishSystem.machine.after ⟨firstVersion, []⟩ overlappingPublications).data.rows
      |>.filter ConfigRow.isActive).length = 2 := by decide
  rw [ha] at htwo
  simp at htwo

/-- One publication after the other, and a reader once the cached value has expired. -/
def successivePublications : List (Input PublishInput) :=
  .request (.publish "second".toList) :: List.replicate 6 (.task 0 .proceed) ++
    .request (.rollback 1) :: List.replicate 6 (.task 0 .proceed) ++
    .request .evict :: .task 0 .proceed :: .request .read :: List.replicate 3 (.task 0 .proceed)

theorem publishing_serial_successive :
    (publishSystem.machine.after ⟨firstVersion, []⟩ successivePublications).data.rows.length = 3 ∧
      Serial (publishSystem.machine.after ⟨firstVersion, []⟩ successivePublications) :=
  ⟨by decide, publishing_serial (Machine.reachableUnder_after ⟨firstVersion_initial, rfl⟩
    (by decide) (by decide))⟩

end CompanionBackend.AdminPublishing
