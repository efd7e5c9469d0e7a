import Mathlib.Data.List.Basic
import Mathlib.Algebra.Ring.Int.Defs
import CompanionBackend.TaskSystems
import Mathlib.Data.List.Nodup

/-!
# Likes of a post

A like inserts a row and writes a counter that was computed from the post as it was loaded; taking
a like back deletes the row and decrements the counter in the database. Plain reads see the snapshot
that a transaction takes when it loads the post; writes wait for the locks of the rows.
One post is modelled; what is shown of it is left out.
-/
namespace CompanionBackend.FeedLikes

open TaskSystems

/-- What a plain read sees of the post. -/
structure PostView where
  realLikes : ℤ
  likes : List ℕ
  deriving DecidableEq

/-- The post with the users that like it, and the locks of open transactions. -/
structure PostData where
  realLikes : ℤ
  likes : List ℕ
  postLocked : Bool
  /-- Users whose row is being inserted or deleted. -/
  keyLocked : ℕ → Bool

namespace PostData

/-- The snapshot of a transaction that loads the post now. -/
def view (d : PostData) : PostView := ⟨d.realLikes, d.likes⟩

def lockPost (d : PostData) : PostData := { d with postLocked := true }

def lockKey (d : PostData) (u : ℕ) : PostData :=
  { d with keyLocked := Function.update d.keyLocked u true }

def unlockPost (d : PostData) : PostData := { d with postLocked := false }

def unlockKey (d : PostData) (u : ℕ) : PostData :=
  { d with keyLocked := Function.update d.keyLocked u false }

end PostData

/-- `like_post` or `unlike_post` between two of its statements. -/
inductive LikeTask
  | likeBegun (u : ℕ)
  | likeLoaded (u : ℕ) (v : PostView)
  /-- The insert and the update of the flush are outstanding, with `post.real_likes` as read. -/
  | flushing (u : ℕ) (realLikes : ℤ)
  | inserted (u : ℕ) (realLikes : ℤ)
  | counted (u : ℕ) (written : ℤ)
  | flushed (u : ℕ) (written : ℤ)
  | unlikeBegun (u : ℕ)
  | deleting (u : ℕ)
  | deleted (u : ℕ)
  /-- The decrement has been made, unless the counter was at zero. -/
  | decremented (u : ℕ) (written : Option ℤ)
  | refreshed (u : ℕ) (written : Option ℤ)
  /-- Nothing has been written. -/
  | finishing
  deriving DecidableEq

namespace LikeTask

/-- The transaction has the row of the post. -/
def holdsPost : LikeTask → Bool
  | .counted _ _ | .flushed _ _ | .decremented _ _ | .refreshed _ _ => true
  | _ => false

/-- The user whose like row the transaction has. -/
def key : LikeTask → Option ℕ
  | .inserted u _ | .flushed u _ | .deleted u | .decremented u _ | .refreshed u _ => some u
  | _ => none

end LikeTask

inductive LikeAnswer
  | done
  /-- The post is there, visible and due. -/
  | visible (found : Bool)
  /-- The next statement of a flush. -/
  | insert
  | update
  deriving DecidableEq

inductive LikeInput
  | likePost (u : ℕ)
  | unlikePost (u : ℕ)
  | proceed (a : LikeAnswer)
  /-- The request raises or is cancelled; its transaction is rolled back. -/
  | abort

namespace PostData

/-- The transaction of the task is over. -/
def release (d : PostData) (t : LikeTask) : PostData :=
  let d := if t.holdsPost then d.unlockPost else d
  match t.key with
  | some u => d.unlockKey u
  | none => d

/-- The commit of a like. -/
def commitLike (d : PostData) (u : ℕ) (written : ℤ) : PostData :=
  { d with realLikes := written, likes := d.likes ++ [u] }

/-- The commit of a like that is taken back. -/
def commitUnlike (d : PostData) (u : ℕ) (written : Option ℤ) : PostData :=
  { d with realLikes := written.getD d.realLikes, likes := d.likes.erase u }

/-- What the task does up to its next statement. A statement that has to wait for a lock is not
enabled. -/
def proceed (d : PostData) : LikeTask → LikeAnswer → Option (PostData × List LikeTask)
  | .likeBegun u, .visible found => some (d, if found then [.likeLoaded u d.view] else [])
  | .likeLoaded u v, .done =>
    some (d, [if u ∈ v.likes then .finishing else .flushing u v.realLikes])
  | .flushing u n, .insert =>
    if d.keyLocked u then none
    -- the key of the table is violated
    else if u ∈ d.likes then some (d, [])
    else some (d.lockKey u, [.inserted u n])
  | .flushing u n, .update =>
    if d.postLocked then none else some (d.lockPost, [.counted u (n + 1)])
  | .inserted u n, .update =>
    if d.postLocked then none else some (d.lockPost, [.flushed u (n + 1)])
  | .counted u m, .insert =>
    if d.keyLocked u then none
    else if u ∈ d.likes then some (d.unlockPost, [])
    else some (d.lockKey u, [.flushed u m])
  | .flushed u m, .done => some ((d.commitLike u m).release (.flushed u m), [])
  | .unlikeBegun u, .visible found => some (d, if found then [.deleting u] else [])
  | .deleting u, .done =>
    if d.keyLocked u then none
    else if u ∈ d.likes then some (d.lockKey u, [.deleted u])
    else some (d, [.finishing])
  | .deleted u, .done =>
    if d.postLocked then none
    else
      some (d.lockPost, [.decremented u (if 0 < d.realLikes then some (d.realLikes - 1) else none)])
  | .decremented u w, .done => some (d, [.refreshed u w])
  | .refreshed u w, .done => some ((d.commitUnlike u w).release (.refreshed u w), [])
  | .finishing, .done => some (d, [])
  | _, _ => none

end PostData

/-- Likes of one post by any users, given and taken back. -/
def likeSystem : TaskSystem PostData LikeTask LikeInput where
  initial d := d.realLikes = d.likes.length ∧ d.likes.Nodup ∧ d.postLocked = false ∧
    ∀ u, d.keyLocked u = false
  accept _ i :=
    match i with
    | .likePost u => some [.likeBegun u]
    | .unlikePost u => some [.unlikeBegun u]
    | _ => none
  advance d t i :=
    match i with
    | .proceed a => d.proceed t a
    | .abort => some (d.release t, [])
    | _ => none

end CompanionBackend.FeedLikes

/-!
## The counter of a post and its like rows

The counter is never negative. It is the number of rows as long as every like writes its counter
from the value that the row has at that moment; a like that read before another transaction changed
the counter takes that change back.
-/
namespace CompanionBackend.LikeAgreement

open Runs TaskSystems TaskSystem FeedLikes

/-! ### The counter is never negative -/

/-- The values a task has read or written are not negative. -/
def NonnegTask : LikeTask → Prop
  | .likeLoaded _ v => 0 ≤ v.realLikes
  | .flushing _ n | .inserted _ n => 0 ≤ n
  | .counted _ m | .flushed _ m => 0 ≤ m
  | .decremented _ w | .refreshed _ w => ∀ m ∈ w, 0 ≤ m
  | _ => True

theorem release_realLikes (d : PostData) (t : LikeTask) :
    (d.release t).realLikes = d.realLikes ∧ (d.release t).likes = d.likes := by
  unfold PostData.release
  cases t <;> simp [LikeTask.holdsPost, LikeTask.key, PostData.unlockPost, PostData.unlockKey]

theorem nonneg_proceed {d d' : PostData} {t : LikeTask} {a : LikeAnswer} {ts : List LikeTask}
    (h : d.proceed t a = some (d', ts)) (hd : 0 ≤ d.realLikes) (ht : NonnegTask t) :
    0 ≤ d'.realLikes ∧ ∀ t' ∈ ts, NonnegTask t' := by
  unfold PostData.proceed at h
  split at h
  · rename_i u found
    cases h
    cases found
    · exact ⟨hd, by simp⟩
    · exact ⟨hd, by simpa [NonnegTask, PostData.view] using hd⟩
  · cases h
    refine ⟨hd, fun t' ht' => ?_⟩
    obtain rfl := List.mem_singleton.mp ht'
    split_ifs
    · trivial
    · exact ht
  · split_ifs at h <;> cases h
    · exact ⟨hd, by simp⟩
    · exact ⟨hd, by simpa [NonnegTask] using ht⟩
  · rename_i u n
    have hn : 0 ≤ n := ht
    split_ifs at h
    cases h
    refine ⟨hd, fun t' ht' => ?_⟩
    obtain rfl := List.mem_singleton.mp ht'
    simp only [NonnegTask]
    omega
  · rename_i u n
    have hn : 0 ≤ n := ht
    split_ifs at h
    cases h
    refine ⟨hd, fun t' ht' => ?_⟩
    obtain rfl := List.mem_singleton.mp ht'
    simp only [NonnegTask]
    omega
  · split_ifs at h <;> cases h
    · exact ⟨hd, by simp⟩
    · exact ⟨hd, by simpa [NonnegTask] using ht⟩
  · rename_i u m
    cases h
    refine ⟨?_, by simp⟩
    rw [(release_realLikes _ _).1]
    exact ht
  · rename_i u found
    cases h
    cases found <;> exact ⟨hd, by simp [NonnegTask]⟩
  · split_ifs at h <;> cases h <;> exact ⟨hd, by simp [NonnegTask]⟩
  · split_ifs at h with hlocked hpos <;> cases h
    · refine ⟨hd, fun t' ht' => ?_⟩
      obtain rfl := List.mem_singleton.mp ht'
      rintro m hm
      cases hm
      omega
    · exact ⟨hd, by simp [NonnegTask]⟩
  · cases h
    exact ⟨hd, by simpa [NonnegTask] using ht⟩
  · rename_i u w
    cases h
    refine ⟨?_, by simp⟩
    rw [(release_realLikes _ _).1]
    cases w with
    | none => exact hd
    | some m => exact ht m rfl
  · cases h
    exact ⟨hd, by simp⟩
  · cases h

theorem reachable_nonneg {w : World PostData LikeTask} (hw : likeSystem.machine.Reachable w) :
    0 ≤ w.data.realLikes := by
  have hholds := reachable_holds (G := fun d => 0 ≤ d.realLikes) (T := fun _ t => NonnegTask t)
    (R := fun _ _ => True) (fun _ _ _ => trivial) ?_ ?_ ?_ hw
  · exact hholds.data
  · rintro d ⟨hcount, -⟩
    rw [hcount]
    exact Int.natCast_nonneg _
  · intro d i ts _ hts
    cases i <;> simp only [likeSystem, Option.some.injEq, reduceCtorEq] at hts <;> subst hts <;>
      simp [NonnegTask]
  · intro d t i d' ts hd ht hadv
    have hstep : 0 ≤ d'.realLikes ∧ ∀ t' ∈ ts, NonnegTask t' := by
      cases i with
      | likePost u => cases hadv
      | unlikePost u => cases hadv
      | proceed a => exact nonneg_proceed hadv hd ht
      | abort =>
        cases hadv
        exact ⟨by rwa [(release_realLikes d t).1], by simp⟩
    refine ⟨hstep.1, hstep.2, List.pairwise_of_forall fun _ _ => trivial, fun u hu _ => ?_⟩
    exact ⟨hu, fun _ _ => trivial⟩

/-! ### The counter is the number of rows -/

/-- Like rows are distinct, and the counter is their number. -/
structure Agrees (d : PostData) : Prop where
  count : d.realLikes = d.likes.length
  nodup : d.likes.Nodup

/-- What a task knows of the rows it has locked. -/
def LockedBy (d : PostData) : LikeTask → Prop
  | .inserted u _ => u ∉ d.likes ∧ d.keyLocked u = true
  | .counted _ m => m = d.realLikes + 1 ∧ d.postLocked = true
  | .flushed u m =>
    (u ∉ d.likes ∧ d.keyLocked u = true) ∧ m = d.realLikes + 1 ∧ d.postLocked = true
  | .deleted u => u ∈ d.likes ∧ d.keyLocked u = true
  | .decremented u w | .refreshed u w =>
    (u ∈ d.likes ∧ d.keyLocked u = true) ∧ w = some (d.realLikes - 1) ∧ d.postLocked = true
  | _ => True

/-- The row of the post, or the like row of a user. -/
inductive RowLock
  | post
  | key (u : ℕ)
  deriving DecidableEq

def holds (t : LikeTask) : RowLock → Prop
  | .post => t.holdsPost = true
  | .key u => t.key = some u

def locked (d : PostData) : RowLock → Prop
  | .post => d.postLocked = true
  | .key u => d.keyLocked u = true

/-- What a lock guards. -/
def Guarded (k : RowLock) (d d' : PostData) : Prop :=
  match k with
  | .post => d'.realLikes = d.realLikes ∧ d'.postLocked = d.postLocked
  | .key u => (u ∈ d'.likes ↔ u ∈ d.likes) ∧ d'.keyLocked u = d.keyLocked u

theorem discipline : KeyedDiscipline LockedBy holds locked (fun _ _ => True) Guarded where
  locked {d t k} h hk := by
    cases k with
    | post => cases t <;> simp_all [holds, locked, LockedBy, LikeTask.holdsPost]
    | key u => cases t <;> simp_all [holds, locked, LockedBy, LikeTask.key]
  stable {d d' t} h _ hguarded := by
    have hpost : t.holdsPost = true → Guarded .post d d' := fun h => hguarded .post h
    have hkey : ∀ u, t.key = some u → Guarded (.key u) d d' := fun u h => hguarded (.key u) h
    cases t <;>
      simp_all [LockedBy, Guarded, LikeTask.holdsPost, LikeTask.key]

/-- The like writes its counter from the value that the row has. -/
def Current (d : PostData) : LikeTask → LikeInput → Prop
  | .flushing _ n, .proceed .update | .inserted _ n, .proceed .update => n = d.realLikes
  | _, _ => True

instance (d : PostData) (t : LikeTask) (i : LikeInput) : Decidable (Current d t i) := by
  unfold Current
  split <;> infer_instance

/-- What a step leaves of the locks of others. -/
abbrev StepOk (d d' : PostData) (t : LikeTask) (ts : List LikeTask) : Prop :=
  KeyedStep Agrees LockedBy holds locked (fun _ _ => True) Guarded d d' t ts

/-- The data stays as it is. -/
theorem stepOk_of_same {d : PostData} {t : LikeTask} {ts : List LikeTask} (hd : Agrees d)
    (hts : ∀ t' ∈ ts, LockedBy d t') (hsingle : ts.length ≤ 1)
    (hfree : ∀ t' ∈ ts, ∀ k, holds t' k → holds t k) : StepOk d d t ts where
  data := hd
  frame := trivial
  tasks := hts
  single := hsingle
  guarded k hk _ := by
    refine ⟨?_, fun t' ht' hk' => hk (hfree t' ht' k hk')⟩
    cases k <;> simp [Guarded]

theorem stepOk_nil {d : PostData} {t : LikeTask} (hd : Agrees d) : StepOk d d t [] :=
  stepOk_of_same hd (by simp) (by simp) (by simp)

theorem stepOk_next {d : PostData} {t t' : LikeTask} (hd : Agrees d) (ht' : LockedBy d t')
    (hfree : ∀ k, holds t' k → holds t k) : StepOk d d t [t'] :=
  stepOk_of_same hd (by simpa using ht') (by simp) (by simpa using hfree)

/-- The like row of a user is locked. -/
theorem stepOk_lockKey {d : PostData} {t t' : LikeTask} {u : ℕ} (hd : Agrees d)
    (hunlocked : d.keyLocked u = false) (ht' : LockedBy (d.lockKey u) t')
    (hholds : ∀ k, holds t' k → holds t k ∨ k = .key u) : StepOk d (d.lockKey u) t [t'] where
  data := ⟨hd.count, hd.nodup⟩
  frame := trivial
  tasks := by simpa using ht'
  single := by simp
  guarded k hk hlocked := by
    have hne : k ≠ .key u := by
      rintro rfl
      simp [locked, hunlocked] at hlocked
    refine ⟨?_, fun t'' ht'' hk'' => ?_⟩
    · cases k with
      | post => exact ⟨rfl, rfl⟩
      | key v =>
        have hv : v ≠ u := fun h => hne (by rw [h])
        simp [Guarded, PostData.lockKey, hv]
    · obtain rfl := List.mem_singleton.mp ht''
      exact (hholds k hk'').elim hk hne

/-- The row of the post is locked. -/
theorem stepOk_lockPost {d : PostData} {t t' : LikeTask} (hd : Agrees d)
    (hunlocked : d.postLocked = false) (ht' : LockedBy d.lockPost t')
    (hholds : ∀ k, holds t' k → holds t k ∨ k = .post) : StepOk d d.lockPost t [t'] where
  data := ⟨hd.count, hd.nodup⟩
  frame := trivial
  tasks := by simpa using ht'
  single := by simp
  guarded k hk hlocked := by
    have hne : k ≠ .post := by
      rintro rfl
      simp [locked, hunlocked] at hlocked
    refine ⟨?_, fun t'' ht'' hk'' => ?_⟩
    · cases k with
      | post => exact absurd rfl hne
      | key v => exact ⟨Iff.rfl, rfl⟩
    · obtain rfl := List.mem_singleton.mp ht''
      exact (hholds k hk'').elim hk hne

/-- The transaction ends with a change to what it has locked. -/
theorem stepOk_end {d e : PostData} {t : LikeTask} (hd : Agrees (e.release t))
    (hpost : t.holdsPost = false → e.realLikes = d.realLikes)
    (hlikes : ∀ v, t.key ≠ some v → (v ∈ e.likes ↔ v ∈ d.likes))
    (hlocks : e.postLocked = d.postLocked ∧ e.keyLocked = d.keyLocked) :
    StepOk d (e.release t) t [] where
  data := hd
  frame := trivial
  tasks := by simp
  single := by simp
  guarded k hk _ := by
    refine ⟨?_, by simp⟩
    obtain ⟨hreal, hlist⟩ := release_realLikes e t
    cases k with
    | post =>
      have hfree : t.holdsPost = false := by simpa [holds] using hk
      refine ⟨hreal.trans (hpost hfree), ?_⟩
      rw [← hlocks.1]
      unfold PostData.release
      rw [hfree]
      cases t <;> rfl
    | key v =>
      have hkey : t.key ≠ some v := hk
      refine ⟨by rw [hlist]; exact hlikes v hkey, ?_⟩
      rw [← hlocks.2]
      unfold PostData.release
      cases hu : t.key with
      | none => split <;> rfl
      | some u =>
        have hv : v ≠ u := by
          rintro rfl
          exact hkey hu
        dsimp only
        split <;> simp [PostData.unlockKey, PostData.unlockPost, hv]

theorem agrees_commitLike {d : PostData} {u : ℕ} (hd : Agrees d) (hu : u ∉ d.likes) :
    Agrees (d.commitLike u (d.realLikes + 1)) where
  count := by simp [PostData.commitLike, hd.count]
  nodup := by
    simp only [PostData.commitLike, List.nodup_append, hd.nodup, List.nodup_singleton, true_and]
    intro a ha b hb hab
    rw [List.mem_singleton] at hb
    exact hu (hb ▸ hab ▸ ha)

theorem agrees_commitUnlike {d : PostData} {u : ℕ} (hd : Agrees d) (hu : u ∈ d.likes) :
    Agrees (d.commitUnlike u (some (d.realLikes - 1))) where
  count := by
    have hpos : 0 < d.likes.length := List.length_pos_of_mem hu
    simp only [PostData.commitUnlike, Option.getD_some, hd.count, List.length_erase_of_mem hu]
    omega
  nodup := hd.nodup.erase u

theorem agrees_release {d : PostData} (t : LikeTask) (hd : Agrees d) : Agrees (d.release t) := by
  obtain ⟨hreal, hlist⟩ := release_realLikes d t
  exact ⟨by rw [hreal, hlist]; exact hd.count, by rw [hlist]; exact hd.nodup⟩

theorem stepOk_abort {d : PostData} {t : LikeTask} (hd : Agrees d) : StepOk d (d.release t) t [] :=
  stepOk_end (agrees_release t hd) (fun _ => rfl) (fun _ _ => Iff.rfl) ⟨rfl, rfl⟩

/-- A statement or a commit of one transaction. -/
theorem stepOk_of_proceed {d d' : PostData} {t : LikeTask} {a : LikeAnswer} {ts : List LikeTask}
    (h : d.proceed t a = some (d', ts)) (hd : Agrees d) (ht : LockedBy d t)
    (hok : Current d t (.proceed a)) : StepOk d d' t ts := by
  unfold PostData.proceed at h
  split at h
  · rename_i u found
    cases h
    cases found with
    | true =>
      exact stepOk_next hd trivial
        (by rintro (_ | _) <;> simp [holds, LikeTask.holdsPost, LikeTask.key])
    | false => exact stepOk_nil hd
  · cases h
    refine stepOk_next hd ?_ ?_
    · split_ifs <;> trivial
    · split_ifs <;> rintro (_ | _) <;> simp [holds, LikeTask.holdsPost, LikeTask.key]
  · rename_i u n
    split_ifs at h with hlocked hmem
    · cases h
      exact stepOk_nil hd
    · cases h
      refine stepOk_lockKey hd (by simpa using hlocked) ⟨hmem, by simp [PostData.lockKey]⟩ ?_
      rintro (_ | v) <;> simp [holds, LikeTask.holdsPost, LikeTask.key, eq_comm]
  · rename_i u n
    split_ifs at h with hlocked
    cases h
    have hn : n = d.realLikes := hok
    refine stepOk_lockPost hd (by simpa using hlocked) ⟨by rw [hn]; rfl, rfl⟩ ?_
    rintro (_ | v) <;> simp [holds, LikeTask.holdsPost, LikeTask.key]
  · rename_i u n
    split_ifs at h with hlocked
    cases h
    have hn : n = d.realLikes := hok
    refine stepOk_lockPost hd (by simpa using hlocked) ⟨ht, by rw [hn]; rfl, rfl⟩ ?_
    rintro (_ | v) <;> simp [holds, LikeTask.holdsPost, LikeTask.key]
  · rename_i u m
    split_ifs at h with hlocked hmem
    · cases h
      exact stepOk_abort (t := .counted u m) hd
    · cases h
      refine stepOk_lockKey hd (by simpa using hlocked)
        ⟨⟨hmem, by simp [PostData.lockKey]⟩, ht⟩ ?_
      rintro (_ | v) <;> simp [holds, LikeTask.holdsPost, LikeTask.key, eq_comm]
  · rename_i u m
    cases h
    obtain ⟨⟨hmem, -⟩, rfl, -⟩ := ht
    refine stepOk_end (agrees_release _ (agrees_commitLike hd hmem)) (by simp [LikeTask.holdsPost])
      (fun v hv => ?_) ⟨rfl, rfl⟩
    have hvu : v ≠ u := fun h => hv (by rw [h]; rfl)
    simp [PostData.commitLike, hvu]
  · rename_i u found
    cases h
    cases found with
    | true =>
      exact stepOk_next hd trivial
        (by rintro (_ | _) <;> simp [holds, LikeTask.holdsPost, LikeTask.key])
    | false => exact stepOk_nil hd
  · rename_i u
    split_ifs at h with hlocked hmem
    · cases h
      refine stepOk_lockKey hd (by simpa using hlocked) ⟨hmem, by simp [PostData.lockKey]⟩ ?_
      rintro (_ | v) <;> simp [holds, LikeTask.holdsPost, LikeTask.key, eq_comm]
    · cases h
      exact stepOk_next hd trivial
        (by rintro (_ | _) <;> simp [holds, LikeTask.holdsPost, LikeTask.key])
  · rename_i u
    have hmem : u ∈ d.likes := ht.1
    have hpos : 0 < d.realLikes := by
      have hlength : 0 < d.likes.length := List.length_pos_of_mem hmem
      rw [hd.count]
      omega
    split_ifs at h with hlocked
    all_goals cases h
    refine stepOk_lockPost hd (by simpa using hlocked) ⟨ht, rfl, rfl⟩ ?_
    rintro (_ | v) <;> simp [holds, LikeTask.holdsPost, LikeTask.key]
  · cases h
    exact stepOk_next hd ht
      (by rintro (_ | _) <;> simp [holds, LikeTask.holdsPost, LikeTask.key])
  · rename_i u w
    cases h
    obtain ⟨⟨hmem, -⟩, rfl, -⟩ := ht
    refine stepOk_end (agrees_release _ (agrees_commitUnlike hd hmem))
      (by simp [LikeTask.holdsPost]) (fun v hv => ?_) ⟨rfl, rfl⟩
    have hvu : v ≠ u := fun h => hv (by rw [h]; rfl)
    simp [PostData.commitUnlike, List.mem_erase_of_ne hvu]
  · cases h
    exact stepOk_nil hd
  · cases h

/-- In runs of which every like writes a current value. -/
theorem reachableUnder_agrees {w : World PostData LikeTask}
    (hw : likeSystem.machine.ReachableUnder (guard Current) w) : Agrees w.data := by
  refine (reachableUnder_holds (G := Agrees) (T := LockedBy) (R := Separate holds) separate_symm
    ?_ ?_ ?_ hw).data
  · rintro d ⟨hcount, hnodup, -⟩
    exact ⟨hcount, hnodup⟩
  · intro d i ts _ hts
    have hfree : ∃ t, ts = [t] ∧ LockedBy d t ∧ ∀ k, ¬holds t k := by
      cases i <;> simp only [likeSystem, Option.some.injEq, reduceCtorEq] at hts <;> subst hts <;>
        refine ⟨_, rfl, trivial, ?_⟩ <;> rintro (_ | _) <;>
        simp [holds, LikeTask.holdsPost, LikeTask.key]
    obtain ⟨t, rfl, hassert, hnone⟩ := hfree
    refine ⟨by simpa using hassert, List.pairwise_singleton _ _, fun u t' ht' => ?_⟩
    obtain rfl := List.mem_singleton.mp ht'
    exact separate_of_free hnone
  · intro d t i d' ts hd ht hok hadv
    refine KeyedStep.establishes discipline ?_
    cases i with
    | likePost u => cases hadv
    | unlikePost u => cases hadv
    | proceed a => exact stepOk_of_proceed hadv hd ht hok
    | abort =>
      cases hadv
      exact stepOk_abort hd

/-- The counter is never negative, and it is the number of like rows in every run whose likes write
their counter from the value that the row has. -/
theorem likes_counted (w : World PostData LikeTask) :
    (likeSystem.machine.Reachable w → 0 ≤ w.data.realLikes) ∧
      (likeSystem.machine.ReachableUnder (guard Current) w →
        w.data.realLikes = w.data.likes.length) :=
  ⟨reachable_nonneg, fun hw => (reachableUnder_agrees hw).count⟩

/-- A post that nobody likes. -/
def freshPost : PostData := ⟨0, [], false, fun _ => false⟩

/-- A like and an unlike of user 1, and a like of user 2 that begins after the first. -/
def likesInTurn : List (TaskSystems.Input LikeInput) :=
  [.request (.likePost 1), .task 0 (.proceed (.visible true)),
    .task 0 (.proceed .done), .task 0 (.proceed .insert), .task 0 (.proceed .update),
    .task 0 (.proceed .done), .request (.unlikePost 1), .request (.likePost 2),
    .task 0 (.proceed (.visible true)), .task 0 (.proceed (.visible true)), .task 1 (.proceed .done), .task 1 (.proceed .update),
    .task 0 (.proceed .done), .task 0 (.proceed .insert), .task 1 (.proceed .done)]

theorem likes_counted_in_turn :
    ∃ w : World PostData LikeTask, w.data.likes = [1, 2] ∧ 0 ≤ w.data.realLikes ∧
      w.data.realLikes = w.data.likes.length := by
  have hcheck : ((likeSystem.machine.run ⟨freshPost, []⟩ likesInTurn).isSome &&
      decide (likeSystem.machine.Guarded (guard Current) ⟨freshPost, []⟩ likesInTurn) &&
      decide ((likeSystem.machine.after ⟨freshPost, []⟩ likesInTurn).data.likes = [1, 2])) =
        true := by
    decide
  simp only [Bool.and_eq_true, decide_eq_true_eq] at hcheck
  obtain ⟨⟨hrun, hguard⟩, hlikes⟩ := hcheck
  have hstart : likeSystem.machine.start ⟨freshPost, []⟩ :=
    ⟨⟨rfl, List.nodup_nil, rfl, fun _ => rfl⟩, rfl⟩
  exact ⟨_, hlikes, (likes_counted _).1 (Machine.reachable_after hstart hrun),
    (likes_counted _).2 (Machine.reachableUnder_after hstart hguard hrun)⟩

/-- Two users like a post at the same time: both have read zero. -/
theorem overlapping_likes_lose_one : ∃ w : World PostData LikeTask,
    likeSystem.machine.Reachable w ∧ w.tasks = [] ∧ w.data.likes = [1, 2] ∧
      w.data.realLikes = 1 := by
  have hcheck : (likeSystem.machine.run ⟨freshPost, []⟩
      [.request (.likePost 1), .request (.likePost 2),
        .task 0 (.proceed (.visible true)), .task 0 (.proceed (.visible true)),
        .task 0 (.proceed .done), .task 0 (.proceed .done),
        .task 0 (.proceed .update), .task 1 (.proceed .insert), .task 1 (.proceed .done),
        .task 0 (.proceed .update), .task 0 (.proceed .insert), .task 0 (.proceed .done)]).any
      (fun w => w.tasks.isEmpty && decide (w.data.likes = [1, 2] ∧ w.data.realLikes = 1)) =
        true := by
    decide
  obtain ⟨w, hw, hfacts⟩ := (Option.any_eq_true _ _).mp hcheck
  simp only [Bool.and_eq_true, decide_eq_true_eq, List.isEmpty_iff] at hfacts
  exact ⟨w, ⟨⟨freshPost, []⟩, _, ⟨⟨rfl, List.nodup_nil, rfl, fun _ => rfl⟩, rfl⟩, hw⟩, hfacts.1,
    hfacts.2.1, hfacts.2.2⟩

end CompanionBackend.LikeAgreement
