import CompanionBackend.TaskSystems
import CompanionBackend.CapabilityEvidence
import CompanionBackend.AgentMessages
import Mathlib.Algebra.Order.Ring.Int

/-!
# Comments on posts

A comment is checked against the recent ones of its user by a count in the snapshot of its
transaction, then for banned words, and only then takes the mark of the first comment by an
update that waits for the row. The row of the relationship is created with the user.
Texts other than the comment, the level of the relationship and the display mark are left out.
-/
namespace CompanionBackend.FeedComments

open TaskSystems ProviderEvents
open AgentMessages (second)
open CapabilityEvidence (strip)
open GrowthCounters (Instant)

/-- A row of `feed_comment`. -/
structure Comment where
  userId : ℕ
  postId : ℕ
  content : Text
  createdAt : Instant
  dueAt : Instant
  /-- The call was the one that set the mark. The code keeps no such record. -/
  first : Bool
  deriving DecidableEq

structure CommentData where
  comments : List Comment
  /-- `has_ever_commented_feed`, and the rows of it that a transaction has locked. -/
  everCommented : ℕ → Bool
  markLocked : ℕ → Bool

inductive FeedError
  | postNotFound | commentEmpty | commentTooLong | commentRateLimit | contentSafetyViolation
  deriving DecidableEq, Repr

/-- `_MAX_COMMENT_LEN`. -/
def maxCommentLen : ℕ := 200

/-- `_COMMENT_RATE_WINDOW_SEC`. -/
def commentRateWindow : ℤ := 30 * second

/-- `_FIRST_COMMENT_OVERRIDE_SEC`. -/
def firstCommentOverride : ℤ := 30 * second

/-- The checks of the text. -/
def contentError (content : Text) : Option FeedError :=
  if (strip content).length = 0 then some .commentEmpty
  else if maxCommentLen < content.length then some .commentTooLong
  else none

/-- The count of the rate limit, in what the transaction sees. -/
def recentCount (seen : List Comment) (userId postId : ℕ) (now : Instant) : ℕ :=
  seen.countP fun c =>
    c.userId = userId ∧ c.postId = postId ∧ now - commentRateWindow ≤ c.createdAt

/-- What a call carries: its snapshot, and the time it stamps its comment with. -/
structure CommentCall where
  userId : ℕ
  postId : ℕ
  content : Text
  snapshot : List Comment
  now : Instant
  deriving DecidableEq

/-- `create_comment` between two of its awaits. -/
inductive CommentTask
  | begun (userId postId : ℕ) (content : Text)
  | counting (c : CommentCall)
  | checking (c : CommentCall)
  | marking (c : CommentCall)
  | delaying (c : CommentCall)
  | inserting (c : CommentCall) (first : Bool) (dueAt : Instant)
  | committing (c : CommentCall) (first : Bool) (dueAt : Instant)
  deriving DecidableEq

/-- The user whose mark the transaction has set. -/
def CommentTask.marked : CommentTask → Option ℕ
  | .inserting c true _ | .committing c true _ => some c.userId
  | _ => none

inductive CommentAnswer
  | done
  /-- The post is visible or not; the clock is read next. -/
  | visible (found : Bool) (now : Instant)
  /-- A banned word or not. -/
  | verdict (hit : Bool)
  /-- The bounds of the delay, and what `random.randint` chose. -/
  | delay (lower upper chosen : ℤ)
  deriving DecidableEq

inductive CommentInput
  | createComment (userId postId : ℕ) (content : Text)
  | proceed (a : CommentAnswer)
  /-- The request raises or is cancelled; its transaction is rolled back. -/
  | abort

namespace CommentData

def setMark (d : CommentData) (u : ℕ) : CommentData :=
  { d with everCommented := Function.update d.everCommented u true }

def lock (d : CommentData) (u : ℕ) (b : Bool) : CommentData :=
  { d with markLocked := Function.update d.markLocked u b }

/-- The transaction of the task is over. -/
def release (d : CommentData) (t : CommentTask) : CommentData :=
  match t.marked with
  | some u => d.lock u false
  | none => d

/-- The commit of a comment, with the mark if the call has set it. -/
def store (d : CommentData) (c : CommentCall) (first : Bool) (dueAt : Instant) : CommentData :=
  let d := if first then d.setMark c.userId else d
  { d with comments := d.comments ++ [⟨c.userId, c.postId, c.content, c.now, dueAt, first⟩] }

/-- What a call does up to its next await. A `FeedError` ends it. -/
def proceed (d : CommentData) : CommentTask → CommentAnswer → Option (CommentData × List CommentTask)
  | .begun u p content, .visible found now =>
    if found then
      some (d, if (contentError content).isSome then []
        else [.counting ⟨u, p, content, d.comments, now⟩])
    else some (d, [])
  | .counting c, .done =>
    some (d, if 1 ≤ recentCount c.snapshot c.userId c.postId c.now then [] else [.checking c])
  | .checking c, .verdict hit => some (d, if hit then [] else [.marking c])
  | .marking c, .done =>
    if d.markLocked c.userId then none
    else if d.everCommented c.userId then some (d, [.delaying c])
    else some (d.lock c.userId true, [.inserting c true (c.now + firstCommentOverride)])
  | .delaying c, .delay lower upper chosen =>
    if lower ≤ chosen ∧ chosen ≤ max lower upper then
      some (d, [.inserting c false (c.now + chosen * second)])
    else none
  | .inserting c first dueAt, .done => some (d, [.committing c first dueAt])
  | .committing c first dueAt, .done =>
    some ((d.store c first dueAt).release (.committing c first dueAt), [])
  | _, _ => none

end CommentData

/-- Two comments of one user on one post. -/
def SameKey (a b : Comment) : Prop := a.userId = b.userId ∧ a.postId = b.postId

instance (a b : Comment) : Decidable (SameKey a b) :=
  inferInstanceAs (Decidable (_ ∧ _))

/-- Half a minute apart, if they are of one user on one post. -/
def Apart (a b : Comment) : Prop := SameKey a b → commentRateWindow ≤ |a.createdAt - b.createdAt|

/-- What the claims about comments say of the rows. -/
structure CommentRules (d : CommentData) : Prop where
  apart : d.comments.Pairwise Apart
  firstOnce : ∀ u, d.comments.countP (fun c => c.userId = u ∧ c.first = true) ≤ 1
  marked : ∀ u, d.everCommented u = true ↔ ∃ c ∈ d.comments, c.userId = u

/-- Comments of any users on any posts. -/
def commentSystem : TaskSystem CommentData CommentTask CommentInput where
  initial d := CommentRules d ∧ ∀ u, d.markLocked u = false
  accept _ i :=
    match i with
    | .createComment u p content => some [.begun u p content]
    | _ => none
  advance d t i :=
    match i with
    | .proceed a => d.proceed t a
    | .abort => some (d.release t, [])
    | _ => none

end CompanionBackend.FeedComments

/-!
## Limits of comments

The mark of the first comment is exact: the update that sets it waits for the row, so of a user one
comment gets its delay. The rate limit is not: a comment that was committed after the snapshot of
a call is not counted. Without such comments the half minute is kept.
-/
namespace CompanionBackend.CommentLimits

open Runs TaskSystems TaskSystem FeedComments
open GrowthCounters (Instant)

/-! ### Assertions -/

/-- The snapshot of the call is an earlier part of the comments. -/
def Snapshot (d : CommentData) (c : CommentCall) : Prop := c.snapshot <+: d.comments

/-- No comment of the user on the post in the snapshot is less than half a minute old. -/
def Rested (c : CommentCall) : Prop := recentCount c.snapshot c.userId c.postId c.now = 0

/-- What a task relies on. -/
def Assertion (d : CommentData) : CommentTask → Prop
  | .begun _ _ _ => True
  | .counting c => Snapshot d c
  | .checking c | .marking c => Snapshot d c ∧ Rested c
  | .delaying c => (Snapshot d c ∧ Rested c) ∧ d.everCommented c.userId = true
  | .inserting c first _ | .committing c first _ =>
    (Snapshot d c ∧ Rested c) ∧
      if first then d.everCommented c.userId = false ∧ d.markLocked c.userId = true
      else d.everCommented c.userId = true

/-- Comments are added, and no mark is taken back. -/
structure Grows (d d' : CommentData) : Prop where
  comments : d.comments <+: d'.comments
  marked : ∀ u, d.everCommented u = true → d'.everCommented u = true

theorem Grows.refl (d : CommentData) : Grows d d := ⟨List.prefix_refl _, fun _ h => h⟩

def holds (t : CommentTask) (u : ℕ) : Prop := t.marked = some u

def locked (d : CommentData) (u : ℕ) : Prop := d.markLocked u = true

/-- What the lock of a relationship guards. -/
def Guarded (u : ℕ) (d d' : CommentData) : Prop :=
  d'.everCommented u = d.everCommented u ∧ d'.markLocked u = d.markLocked u

theorem discipline : KeyedDiscipline Assertion holds locked Grows Guarded where
  locked {d t u} h hu := by
    unfold holds CommentTask.marked at hu
    split at hu
    · cases hu
      exact h.2.2
    · cases hu
      exact h.2.2
    · cases hu
  stable {d d' t} h hgrows hguarded := by
    have hsnapshot : ∀ c, Snapshot d c → Snapshot d' c := fun c hc => hc.trans hgrows.comments
    cases t with
    | begun u p content => trivial
    | counting c => exact hsnapshot c h
    | checking c => exact ⟨hsnapshot c h.1, h.2⟩
    | marking c => exact ⟨hsnapshot c h.1, h.2⟩
    | delaying c => exact ⟨⟨hsnapshot c h.1.1, h.1.2⟩, hgrows.marked _ h.2⟩
    | inserting c first dueAt =>
      refine ⟨⟨hsnapshot c h.1.1, h.1.2⟩, ?_⟩
      cases first with
      | true =>
        obtain ⟨hmark, hlock⟩ := hguarded c.userId rfl
        exact ⟨hmark.trans h.2.1, hlock.trans h.2.2⟩
      | false => exact hgrows.marked _ h.2
    | committing c first dueAt =>
      refine ⟨⟨hsnapshot c h.1.1, h.1.2⟩, ?_⟩
      cases first with
      | true =>
        obtain ⟨hmark, hlock⟩ := hguarded c.userId rfl
        exact ⟨hmark.trans h.2.1, hlock.trans h.2.2⟩
      | false => exact hgrows.marked _ h.2

/-! ### The comments -/

/-- The mark and the first comments. -/
structure Marks (d : CommentData) : Prop where
  firstOnce : ∀ u, d.comments.countP (fun c => c.userId = u ∧ c.first = true) ≤ 1
  marked : ∀ u, d.everCommented u = true ↔ ∃ c ∈ d.comments, c.userId = u

/-- What a comment would be committed as. -/
def CommentCall.row (c : CommentCall) (first : Bool) (dueAt : Instant) : Comment :=
  ⟨c.userId, c.postId, c.content, c.now, dueAt, first⟩

theorem store_comments (d : CommentData) (c : CommentCall) (first : Bool) (dueAt : Instant) :
    (d.store c first dueAt).comments = d.comments ++ [CommentCall.row c first dueAt] := by
  cases first <;> rfl

theorem store_everCommented (d : CommentData) (c : CommentCall) (first : Bool) (dueAt : Instant)
    (u : ℕ) : (d.store c first dueAt).everCommented u =
      (d.everCommented u || (first && decide (u = c.userId))) := by
  cases first with
  | false => simp [CommentData.store]
  | true =>
    by_cases hu : u = c.userId
    · simp [CommentData.store, CommentData.setMark, hu]
    · simp [CommentData.store, CommentData.setMark, hu]

theorem release_data (d : CommentData) (t : CommentTask) :
    (d.release t).comments = d.comments ∧ (d.release t).everCommented = d.everCommented := by
  unfold CommentData.release
  split <;> exact ⟨rfl, rfl⟩

theorem Marks.congr {d d' : CommentData} (h : Marks d) (hcomments : d'.comments = d.comments)
    (hmarks : d'.everCommented = d.everCommented) : Marks d' := by
  refine ⟨fun u => ?_, fun u => ?_⟩
  · rw [hcomments]
    exact h.firstOnce u
  · rw [hcomments, hmarks]
    exact h.marked u

/-- The commit of a comment by a call that knows about the mark. -/
theorem Marks.store {d : CommentData} (h : Marks d) {c : CommentCall} {first : Bool}
    (hmark : d.everCommented c.userId = !first) (dueAt : Instant) :
    Marks (d.store c first dueAt) := by
  refine ⟨fun u => ?_, fun u => ?_⟩
  · rw [store_comments, List.countP_append]
    by_cases hu : first = true ∧ c.userId = u
    · obtain ⟨rfl, rfl⟩ := hu
      have hnone : ¬∃ x ∈ d.comments, x.userId = c.userId := by
        rw [← h.marked, hmark]
        simp
      have hzero : d.comments.countP (fun x => x.userId = c.userId ∧ x.first = true) = 0 := by
        refine List.countP_eq_zero.mpr fun x hx => ?_
        simp only [decide_eq_true_eq, not_and]
        exact fun hxu => absurd ⟨x, hx, hxu⟩ hnone
      rw [hzero]
      simp [CommentCall.row]
    · have hzero : [CommentCall.row c first dueAt].countP
          (fun x => x.userId = u ∧ x.first = true) = 0 := by
        rw [List.countP_singleton, if_neg]
        rw [decide_eq_true_eq]
        exact fun hboth => hu hboth.symm
      rw [hzero]
      exact h.firstOnce u
  · rw [store_everCommented, store_comments, Bool.or_eq_true, h.marked]
    by_cases hu : u = c.userId
    · subst hu
      have hmarked : (∃ x ∈ d.comments, x.userId = c.userId) ∨
          (first && decide (c.userId = c.userId)) = true := by
        cases first with
        | true => exact Or.inr (by simp)
        | false => exact Or.inl ((h.marked _).mp (by simpa using hmark))
      exact ⟨fun _ => ⟨CommentCall.row c first dueAt, by simp, rfl⟩, fun _ => hmarked⟩
    · simp only [decide_eq_false hu, Bool.and_false, Bool.false_eq_true, or_false,
        List.mem_append, List.mem_singleton]
      constructor
      · rintro ⟨x, hx, hxu⟩
        exact ⟨x, Or.inl hx, hxu⟩
      · rintro ⟨x, hx | rfl, hxu⟩
        · exact ⟨x, hx, hxu⟩
        · exact absurd hxu.symm hu

/-- No comment of the user on the post was committed within half a minute of it since the snapshot
of the call. -/
def Unseen (d : CommentData) : CommentTask → CommentInput → Prop
  | .committing c first dueAt, .proceed .done =>
    ∀ x ∈ d.comments.drop c.snapshot.length, Apart x (CommentCall.row c first dueAt)
  | _, _ => True

instance (a b : Comment) : Decidable (Apart a b) :=
  inferInstanceAs (Decidable (_ → _))

instance (d : CommentData) (t : CommentTask) (i : CommentInput) : Decidable (Unseen d t i) := by
  unfold Unseen
  split <;> infer_instance

/-- What the query has counted is far enough from the new comment. -/
theorem apart_of_rested {c : CommentCall} (h : Rested c) {x : Comment} (hx : x ∈ c.snapshot)
    (first : Bool) (dueAt : Instant) : Apart x (CommentCall.row c first dueAt) := by
  rintro ⟨huser, hpost⟩
  have hrecent := List.countP_eq_zero.mp h x hx
  have huser' : x.userId = c.userId := huser
  have hpost' : x.postId = c.postId := hpost
  simp only [huser', hpost', true_and, decide_eq_true_eq, not_le] at hrecent
  have hlt : commentRateWindow < c.now - x.createdAt := by linarith
  rw [abs_sub_comm]
  exact hlt.le.trans (le_abs_self _)

theorem apart_store {d : CommentData} (hd : d.comments.Pairwise Apart) {c : CommentCall}
    (hsnapshot : Snapshot d c) (hrested : Rested c) {first : Bool} {dueAt : Instant}
    (hunseen : ∀ x ∈ d.comments.drop c.snapshot.length, Apart x (CommentCall.row c first dueAt)) :
    (d.store c first dueAt).comments.Pairwise Apart := by
  rw [store_comments]
  refine List.pairwise_append.mpr ⟨hd, List.pairwise_singleton _ _, fun x hx y hy => ?_⟩
  obtain rfl := List.mem_singleton.mp hy
  obtain ⟨rest, hrest⟩ := hsnapshot
  rw [← hrest] at hx
  rcases List.mem_append.mp hx with hold | hnew
  · exact apart_of_rested hrested hold first dueAt
  · refine hunseen x ?_
    rw [← hrest, List.drop_left]
    exact hnew

/-! ### Steps -/

/-- The marks hold in every run, the distance of comments where `close` is excluded. -/
def Kept (close : Prop) (d : CommentData) : Prop := Marks d ∧ (close → d.comments.Pairwise Apart)

abbrev StepOk (close : Prop) (d d' : CommentData) (t : CommentTask) (ts : List CommentTask) : Prop :=
  KeyedStep (Kept close) Assertion holds locked Grows Guarded d d' t ts

/-- The data stays as it is. -/
theorem stepOk_same {close : Prop} {d : CommentData} {t : CommentTask} {ts : List CommentTask}
    (hd : Kept close d) (hts : ∀ t' ∈ ts, Assertion d t') (hsingle : ts.length ≤ 1)
    (hfree : ∀ t' ∈ ts, ∀ u, holds t' u → holds t u) : StepOk close d d t ts where
  data := hd
  frame := .refl d
  tasks := hts
  single := hsingle
  guarded u hu _ := ⟨⟨rfl, rfl⟩, fun t' ht' hu' => hu (hfree t' ht' u hu')⟩

theorem stepOk_nil {close : Prop} {d : CommentData} {t : CommentTask} (hd : Kept close d) :
    StepOk close d d t [] :=
  stepOk_same hd (by simp) (by simp) (by simp)

theorem stepOk_next {close : Prop} {d : CommentData} {t t' : CommentTask} (hd : Kept close d)
    (ht' : Assertion d t') (hfree : ∀ u, holds t' u → holds t u) : StepOk close d d t [t'] :=
  stepOk_same hd (by simpa using ht') (by simp) (by simpa using hfree)

/-- The transaction ends; what it changes besides comments is the mark it holds. -/
theorem stepOk_end {close : Prop} {d e : CommentData} {t : CommentTask}
    (hd : Kept close (e.release t)) (hgrows : Grows d e) (hlocks : e.markLocked = d.markLocked)
    (hmarks : ∀ u, ¬holds t u → e.everCommented u = d.everCommented u) :
    StepOk close d (e.release t) t [] where
  data := hd
  frame := by
    obtain ⟨hcomments, hmarked⟩ := release_data e t
    exact ⟨by rw [hcomments]; exact hgrows.comments, by rw [hmarked]; exact hgrows.marked⟩
  tasks := by simp
  single := by simp
  guarded u hu _ := by
    refine ⟨⟨?_, ?_⟩, by simp⟩
    · rw [(release_data e t).2]
      exact hmarks u hu
    · rw [← hlocks]
      unfold CommentData.release
      cases hmarked : t.marked with
      | none => rfl
      | some v =>
        have huv : u ≠ v := by
          rintro rfl
          exact hu hmarked
        simp [CommentData.lock, huv]

theorem kept_release {close : Prop} {d : CommentData} (hd : Kept close d) (t : CommentTask) :
    Kept close (d.release t) := by
  obtain ⟨hcomments, hmarks⟩ := release_data d t
  exact ⟨hd.1.congr hcomments hmarks, fun h => by rw [hcomments]; exact hd.2 h⟩

theorem grows_store (d : CommentData) (c : CommentCall) (first : Bool) (dueAt : Instant) :
    Grows d (d.store c first dueAt) where
  comments := by
    rw [store_comments]
    exact List.prefix_append _ _
  marked u hu := by
    rw [store_everCommented, hu]
    rfl

/-- A step of a call. -/
theorem stepOk_of_proceed {close : Prop} {d d' : CommentData} {t : CommentTask} {a : CommentAnswer}
    {ts : List CommentTask} (h : d.proceed t a = some (d', ts)) (hd : Kept close d)
    (ht : Assertion d t) (hok : close → Unseen d t (.proceed a)) : StepOk close d d' t ts := by
  unfold CommentData.proceed at h
  split at h
  · split_ifs at h
    · cases h
      exact stepOk_nil hd
    · cases h
      exact stepOk_next hd (List.prefix_refl _) (by simp [holds, CommentTask.marked])
    · cases h
      exact stepOk_nil hd
  · rename_i c
    cases h
    by_cases hcount : 1 ≤ recentCount c.snapshot c.userId c.postId c.now
    · rw [if_pos hcount]
      exact stepOk_nil hd
    · rw [if_neg hcount]
      exact stepOk_next hd ⟨ht, by unfold Rested; omega⟩ (by simp [holds, CommentTask.marked])
  · rename_i c hit
    cases h
    cases hit with
    | true => exact stepOk_nil hd
    | false => exact stepOk_next hd ht (by simp [holds, CommentTask.marked])
  · rename_i c
    split_ifs at h with hlocked hmarked
    · cases h
      exact stepOk_next hd ⟨ht, hmarked⟩ (by simp [holds, CommentTask.marked])
    · cases h
      have hunlocked : d.markLocked c.userId = false := by simpa using hlocked
      have hunmarked : d.everCommented c.userId = false := by simpa using hmarked
      refine ⟨⟨hd.1.congr rfl rfl, hd.2⟩, ⟨List.prefix_refl _, fun _ h => h⟩, ?_, by simp, ?_⟩
      · intro t' ht'
        obtain rfl := List.mem_singleton.mp ht'
        exact ⟨ht, hunmarked, by simp [CommentData.lock]⟩
      · intro u _ hu
        have huc : u ≠ c.userId := by
          rintro rfl
          simp [locked, hunlocked] at hu
        refine ⟨⟨rfl, by simp [CommentData.lock, huc]⟩, fun t' ht' => ?_⟩
        obtain rfl := List.mem_singleton.mp ht'
        simpa [holds, CommentTask.marked] using fun h => huc h.symm
  · split_ifs at h
    cases h
    exact stepOk_next hd ⟨ht.1, by simpa using ht.2⟩ (by simp [holds, CommentTask.marked])
  · rename_i c first dueAt
    cases h
    refine stepOk_next hd ht fun u hu => ?_
    cases first
    · simp [holds, CommentTask.marked] at hu
    · exact hu
  · rename_i c first dueAt
    cases h
    have hmark : d.everCommented c.userId = !first := by
      cases first with
      | true => exact ht.2.1
      | false => exact ht.2
    have hkept : Kept close (d.store c first dueAt) :=
      ⟨hd.1.store hmark dueAt, fun h => apart_store (hd.2 h) ht.1.1 ht.1.2 (hok h)⟩
    refine stepOk_end (kept_release hkept _) (grows_store d c first dueAt) ?_ fun u hu => ?_
    · cases first <;> rfl
    · rw [store_everCommented]
      cases first with
      | false => simp
      | true =>
        have huc : u ≠ c.userId := by
          rintro rfl
          exact hu rfl
        simp [huc]
  · cases h

/-- In runs whose steps exclude unseen comments, where `close` asks for it. -/
theorem kept_of_run {close : Prop} {w : World CommentData CommentTask}
    (hw : commentSystem.machine.ReachableUnder (guard fun d t i => close → Unseen d t i) w) :
    Kept close w.data := by
  refine (reachableUnder_holds (G := Kept close) (T := Assertion) (R := Separate holds)
    separate_symm ?_ ?_ ?_ hw).data
  · rintro d ⟨hrules, -⟩
    exact ⟨⟨hrules.firstOnce, hrules.marked⟩, fun _ => hrules.apart⟩
  · intro d i ts _ hts
    cases i <;> simp only [commentSystem, Option.some.injEq, reduceCtorEq] at hts
    subst hts
    refine ⟨by simp [Assertion], List.pairwise_singleton _ _, fun u t' ht' => ?_⟩
    obtain rfl := List.mem_singleton.mp ht'
    exact separate_of_free (by simp [holds, CommentTask.marked])
  · intro d t i d' ts hd ht hok hadv
    refine KeyedStep.establishes discipline ?_
    cases i with
    | createComment u p content => cases hadv
    | proceed a => exact stepOk_of_proceed hadv hd ht hok
    | abort =>
      cases hadv
      exact stepOk_end (kept_release hd t) (.refl d) rfl fun _ _ => rfl

/-- Of every user at most one comment got the delay of the first comment, and the mark is set
exactly if the user has a comment; comments of a user on a post are half a minute apart in every run
of which no call commits next to one that its count could not see. -/
theorem comment_limits (w : World CommentData CommentTask) :
    (commentSystem.machine.Reachable w →
      (∀ u, w.data.comments.countP (fun c => c.userId = u ∧ c.first = true) ≤ 1) ∧
        ∀ u, w.data.everCommented u = true ↔ ∃ c ∈ w.data.comments, c.userId = u) ∧
      (commentSystem.machine.ReachableUnder (guard Unseen) w →
        w.data.comments.Pairwise Apart) := by
  constructor
  · rintro ⟨s₀, is, hstart, hrun⟩
    have hguarded : commentSystem.machine.Guarded
        (guard fun d t i => False → Unseen d t i) s₀ is :=
      Machine.guarded_of_forall (by rintro w (i | ⟨k, i⟩) <;> simp [TaskSystem.guard])
    have hkept := kept_of_run ⟨s₀, is, hstart, hguarded, hrun⟩
    exact ⟨hkept.1.firstOnce, hkept.1.marked⟩
  · rintro ⟨s₀, is, hstart, hguarded, hrun⟩
    have hguarded' : commentSystem.machine.Guarded
        (guard fun d t i => True → Unseen d t i) s₀ is := by
      simpa using hguarded
    exact (kept_of_run ⟨s₀, is, hstart, hguarded', hrun⟩).2 trivial

/-- Nobody has commented. -/
def noComments : CommentData := ⟨[], fun _ => false, fun _ => false⟩

theorem noComments_start : commentSystem.machine.start ⟨noComments, []⟩ :=
  ⟨⟨⟨List.Pairwise.nil, by simp [noComments], by simp [noComments]⟩, fun _ => rfl⟩, rfl⟩

/-- Two comments of one user on two posts at the same time, and a third one later. -/
def commentsInTurn : List (TaskSystems.Input CommentInput) :=
  [.request (.createComment 1 5 ['a']), .request (.createComment 1 6 ['b']),
    .task 0 (.proceed (.visible true 0)), .task 0 (.proceed (.visible true 0)),
    .task 0 (.proceed .done), .task 0 (.proceed .done),
    .task 0 (.proceed (.verdict false)), .task 0 (.proceed (.verdict false)),
    .task 0 (.proceed .done), .task 1 (.proceed .done), .task 1 (.proceed .done),
    .task 0 (.proceed .done), .task 0 (.proceed (.delay 300 600 400)), .task 0 (.proceed .done),
    .task 0 (.proceed .done), .request (.createComment 1 5 ['c']),
    .task 0 (.proceed (.visible true 60000000)), .task 0 (.proceed .done),
    .task 0 (.proceed (.verdict false)), .task 0 (.proceed .done),
    .task 0 (.proceed (.delay 300 600 400)), .task 0 (.proceed .done), .task 0 (.proceed .done)]

theorem comment_limits_in_turn : ∃ w : World CommentData CommentTask,
    w.data.comments.length = 3 ∧
      ((∀ u, w.data.comments.countP (fun c => c.userId = u ∧ c.first = true) ≤ 1) ∧
        ∀ u, w.data.everCommented u = true ↔ ∃ c ∈ w.data.comments, c.userId = u) ∧
      w.data.comments.Pairwise Apart := by
  have hcheck : ((commentSystem.machine.run ⟨noComments, []⟩ commentsInTurn).isSome &&
      decide (commentSystem.machine.Guarded (guard Unseen) ⟨noComments, []⟩ commentsInTurn) &&
      decide ((commentSystem.machine.after ⟨noComments, []⟩ commentsInTurn).data.comments.length =
        3)) = true := by
    decide
  simp only [Bool.and_eq_true, decide_eq_true_eq] at hcheck
  obtain ⟨⟨hrun, hguard⟩, hlength⟩ := hcheck
  exact ⟨_, hlength, (comment_limits _).1 (Machine.reachable_after noComments_start hrun),
    (comment_limits _).2 (Machine.reachableUnder_after noComments_start hguard hrun)⟩

/-- The same comment sent twice: neither call counts the other, and both are committed. -/
theorem overlapping_comments_not_limited : ∃ w : World CommentData CommentTask,
    commentSystem.machine.Reachable w ∧ ¬w.data.comments.Pairwise Apart := by
  have hcheck : (commentSystem.machine.run ⟨noComments, []⟩
      [.request (.createComment 1 5 ['a']), .request (.createComment 1 5 ['a']),
        .task 0 (.proceed (.visible true 0)), .task 0 (.proceed (.visible true 1000000)),
        .task 0 (.proceed .done), .task 0 (.proceed .done),
        .task 0 (.proceed (.verdict false)), .task 0 (.proceed (.verdict false)),
        .task 0 (.proceed .done), .task 1 (.proceed .done), .task 1 (.proceed .done),
        .task 0 (.proceed .done), .task 0 (.proceed (.delay 300 600 400)),
        .task 0 (.proceed .done), .task 0 (.proceed .done)]).any
      (fun w => !decide (w.data.comments.Pairwise Apart)) = true := by
    decide
  obtain ⟨w, hw, hfacts⟩ := (Option.any_eq_true _ _).mp hcheck
  exact ⟨w, ⟨⟨noComments, []⟩, _, noComments_start, hw⟩, by simpa using hfacts⟩

end CompanionBackend.CommentLimits
