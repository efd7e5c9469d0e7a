import Mathlib.Data.List.Basic
import Mathlib.Data.List.Perm.Basic
import CompanionBackend.Runs
import Mathlib.Algebra.BigOperators.Group.List.Basic

/-!
# Tasks over shared data

Cooperative tasks share one data value. A task runs until its next suspension in
one step and is replaced by the tasks it leaves behind: its continuation and what
it spawned. Any task may be the next to run. The invariant rule asks for a global
assertion, an assertion of each task that the others' steps keep, and a relation
between any two tasks.
-/
namespace CompanionBackend.TaskSystems

open Runs

/-- Requests start tasks; a task advances by one step on an outcome chosen outside. -/
structure TaskSystem (δ τ ι : Type*) where
  initial : δ → Prop
  accept : δ → ι → Option (List τ)
  advance : δ → τ → ι → Option (δ × List τ)

structure World (δ τ : Type*) where
  data : δ
  tasks : List τ

inductive Input (ι : Type*)
  | request (i : ι)
  | task (k : ℕ) (i : ι)

variable {δ τ ι : Type*}

namespace TaskSystem

/-- The interleavings of the tasks. -/
def machine (S : TaskSystem δ τ ι) : Machine (World δ τ) (Input ι) where
  start w := S.initial w.data ∧ w.tasks = []
  step w
    | .request i => (S.accept w.data i).map fun ts => ⟨w.data, w.tasks ++ ts⟩
    | .task k i => w.tasks[k]?.bind fun t =>
        (S.advance w.data t i).map fun r => ⟨r.1, w.tasks.eraseIdx k ++ r.2⟩

/-- A guard on the steps of tasks, as a guard on the machine. -/
def guard (ok : δ → τ → ι → Prop) : World δ τ → Input ι → Prop
  | _, .request _ => True
  | w, .task k i => ∀ t, w.tasks[k]? = some t → ok w.data t i

instance (ok : δ → τ → ι → Prop) [∀ d t i, Decidable (ok d t i)] (w : World δ τ) (i : Input ι) :
    Decidable (guard ok w i) :=
  match i with
  | .request _ => isTrue trivial
  | .task k i =>
    match h : w.tasks[k]? with
    | none => isTrue fun t ht => absurd (h.symm.trans ht) (by simp)
    | some t => decidable_of_iff (ok w.data t i) (by simp [guard, h])

/-- The global assertion, the assertion of every task, and the relation between tasks. -/
structure Holds (G : δ → Prop) (T : δ → τ → Prop) (R : τ → τ → Prop) (w : World δ τ) : Prop where
  data : G w.data
  tasks : ∀ t ∈ w.tasks, T w.data t
  pairwise : w.tasks.Pairwise R

/-- What a step of one task has to establish: the global assertion, the assertions of the tasks
it leaves, and those of every other task it is related to. -/
structure Establishes (G : δ → Prop) (T : δ → τ → Prop) (R : τ → τ → Prop) (d d' : δ) (t : τ)
    (ts : List τ) : Prop where
  data : G d'
  tasks : ∀ t' ∈ ts, T d' t'
  pairwise : ts.Pairwise R
  others : ∀ u, T d u → R t u → T d' u ∧ ∀ t' ∈ ts, R u t'

theorem perm_eraseIdx {tasks : List τ} {k : ℕ} {t : τ} (h : tasks[k]? = some t) :
    tasks.Perm (t :: tasks.eraseIdx k) := by
  obtain ⟨hk, rfl⟩ := List.getElem?_eq_some_iff.mp h
  exact (List.getElem_cons_eraseIdx_perm hk).symm

/-- One step of one task. -/
theorem holds_advance {G : δ → Prop} {T : δ → τ → Prop} {R : τ → τ → Prop}
    (hsymm : ∀ t u, R t u → R u t) {w : World δ τ} {k : ℕ} {t : τ} {d' : δ} {ts : List τ}
    (hw : Holds G T R w) (ht : w.tasks[k]? = some t) (h : Establishes G T R w.data d' t ts) :
    Holds G T R ⟨d', w.tasks.eraseIdx k ++ ts⟩ := by
  have hperm := perm_eraseIdx ht
  have hpairwise : (t :: w.tasks.eraseIdx k).Pairwise R :=
    (hperm.pairwise_iff fun {a b} => hsymm a b).mp hw.pairwise
  obtain ⟨hrelated, hrest⟩ := List.pairwise_cons.mp hpairwise
  have hothers : ∀ u ∈ w.tasks.eraseIdx k, T d' u ∧ ∀ t' ∈ ts, R u t' := by
    intro u hu
    exact h.others u (hw.tasks u (List.mem_of_mem_eraseIdx hu)) (hrelated u hu)
  refine ⟨h.data, ?_, ?_⟩
  · intro u hu
    rcases List.mem_append.mp hu with hu | hu
    · exact (hothers u hu).1
    · exact h.tasks u hu
  · refine List.pairwise_append.mpr ⟨hrest, h.pairwise, ?_⟩
    intro u hu t' ht'
    exact (hothers u hu).2 t' ht'

/-- The invariant rule: a new task starts with its assertion and related to all tasks, and every
guarded step establishes what the other tasks rely on. -/
theorem reachableUnder_holds {S : TaskSystem δ τ ι} {ok : δ → τ → ι → Prop} {G : δ → Prop}
    {T : δ → τ → Prop} {R : τ → τ → Prop} (hsymm : ∀ t u, R t u → R u t)
    (hinitial : ∀ d, S.initial d → G d)
    (haccept : ∀ d i ts, G d → S.accept d i = some ts →
      (∀ t ∈ ts, T d t) ∧ ts.Pairwise R ∧ ∀ u, ∀ t ∈ ts, R u t)
    (hadvance : ∀ d t i d' ts, G d → T d t → ok d t i → S.advance d t i = some (d', ts) →
      Establishes G T R d d' t ts)
    {w : World δ τ} (hw : S.machine.ReachableUnder (guard ok) w) : Holds G T R w := by
  refine Machine.reachableUnder_invariant ?_ ?_ hw
  · rintro ⟨d, tasks⟩ ⟨hd, htasks⟩
    obtain rfl : tasks = [] := htasks
    exact ⟨hinitial d hd, by simp, List.Pairwise.nil⟩
  · rintro w (i | ⟨k, i⟩) w' hw hok hstep
    · obtain ⟨ts, hts, rfl⟩ := Option.map_eq_some_iff.mp hstep
      obtain ⟨htasks, hpairwise, hrelated⟩ := haccept w.data i ts hw.data hts
      refine ⟨hw.data, ?_, ?_⟩
      · intro t ht
        rcases List.mem_append.mp ht with ht | ht
        · exact hw.tasks t ht
        · exact htasks t ht
      · exact List.pairwise_append.mpr ⟨hw.pairwise, hpairwise, fun u _ t ht => hrelated u t ht⟩
    · obtain ⟨t, ht, hrest⟩ := Option.bind_eq_some_iff.mp hstep
      obtain ⟨⟨d', ts⟩, hadv, rfl⟩ := Option.map_eq_some_iff.mp hrest
      exact holds_advance hsymm hw ht
        (hadvance w.data t i d' ts hw.data (hw.tasks t (List.mem_of_getElem? ht)) (hok t ht) hadv)

/-- The rule without a guard. -/
theorem reachable_holds {S : TaskSystem δ τ ι} {G : δ → Prop}
    {T : δ → τ → Prop} {R : τ → τ → Prop} (hsymm : ∀ t u, R t u → R u t)
    (hinitial : ∀ d, S.initial d → G d)
    (haccept : ∀ d i ts, G d → S.accept d i = some ts →
      (∀ t ∈ ts, T d t) ∧ ts.Pairwise R ∧ ∀ u, ∀ t ∈ ts, R u t)
    (hadvance : ∀ d t i d' ts, G d → T d t → S.advance d t i = some (d', ts) →
      Establishes G T R d d' t ts)
    {w : World δ τ} (hw : S.machine.Reachable w) : Holds G T R w := by
  obtain ⟨s₀, is, hstart, hrun⟩ := hw
  have hunder : S.machine.ReachableUnder (guard fun _ _ _ => True) w :=
    ⟨s₀, is, hstart, Machine.guarded_of_forall (by rintro w (i | ⟨k, i⟩) <;> simp [guard]), hrun⟩
  exact reachableUnder_holds hsymm hinitial haccept
    (fun d t i d' ts hd ht _ => hadvance d t i d' ts hd ht) hunder

/-- A list in the data records what the tasks carry, when every step moves both alike. -/
theorem reachable_log {κ : Type*} {S : TaskSystem δ τ ι} (view : τ → Option κ) (log : δ → List κ)
    (hinitial : ∀ d, S.initial d → log d = [])
    (haccept : ∀ d i ts, S.accept d i = some ts → ts.filterMap view = [])
    (hadvance : ∀ d t i d' ts rest, S.advance d t i = some (d', ts) →
      (log d).Perm ((view t).toList ++ rest) → (log d').Perm (ts.filterMap view ++ rest))
    {w : World δ τ} (hw : S.machine.Reachable w) :
    (log w.data).Perm (w.tasks.filterMap view) := by
  refine Machine.reachable_invariant (I := fun w => (log w.data).Perm (w.tasks.filterMap view))
    ?_ ?_ hw
  · rintro ⟨d, tasks⟩ ⟨hd, htasks⟩
    obtain rfl : tasks = [] := htasks
    simp [hinitial d hd]
  · rintro w (i | ⟨k, i⟩) w' hlog hstep
    · obtain ⟨ts, hts, rfl⟩ := Option.map_eq_some_iff.mp hstep
      simpa [List.filterMap_append, haccept w.data i ts hts] using hlog
    · obtain ⟨t, ht, hrest⟩ := Option.bind_eq_some_iff.mp hstep
      obtain ⟨⟨d', ts⟩, hadv, rfl⟩ := Option.map_eq_some_iff.mp hrest
      have hsplit : (w.tasks.filterMap view).Perm
          ((view t).toList ++ (w.tasks.eraseIdx k).filterMap view) := by
        refine ((perm_eraseIdx ht).filterMap view).trans (List.Perm.of_eq ?_)
        cases hview : view t <;> simp [hview]
      have hmoved := hadvance w.data t i d' ts _ hadv (hlog.trans hsplit)
      rw [List.filterMap_append]
      exact hmoved.trans List.perm_append_comm

end TaskSystem

end CompanionBackend.TaskSystems

/-!
## Tasks and one lock

At most one task holds the lock. A step of another task leaves alone what the lock guards, so that
the holder's assertion survives it; every other assertion only needs what all steps
keep.
-/
namespace CompanionBackend.TaskSystems

variable {δ τ : Type*} {G : δ → Prop} {T : δ → τ → Prop}

namespace TaskSystem

/-- Not both hold the lock. -/
def Apart (holds : τ → Bool) (t u : τ) : Prop := ¬(holds t = true ∧ holds u = true)

theorem apart_symm {holds : τ → Bool} (t u : τ) (h : Apart holds t u) : Apart holds u t :=
  fun hboth => h hboth.symm

theorem apart_of_free {holds : τ → Bool} {t u : τ} (h : holds u = false) : Apart holds t u := by
  simp [Apart, h]

/-- What the assertions of tasks need of a step: `frame` of every step, and `guarded` of the steps
that others make while a task holds the lock. -/
structure LockDiscipline (T : δ → τ → Prop) (holds : τ → Bool) (locked : δ → Prop)
    (frame guarded : δ → δ → Prop) : Prop where
  locked : ∀ {d t}, T d t → holds t = true → locked d
  stable : ∀ {d d' t}, T d t → frame d d' → (holds t = true → guarded d d') → T d' t

/-- One step of one task under the discipline. -/
structure LockStep (G : δ → Prop) (T : δ → τ → Prop) (holds : τ → Bool) (locked : δ → Prop)
    (frame guarded : δ → δ → Prop) (d d' : δ) (t : τ) (ts : List τ) : Prop where
  data : G d'
  frame : frame d d'
  tasks : ∀ t' ∈ ts, T d' t'
  single : ts.length ≤ 1
  guarded : holds t = false → locked d → guarded d d' ∧ ∀ t' ∈ ts, holds t' = false

/-- A step under the discipline establishes what the other tasks rely on. -/
theorem LockStep.establishes {holds : τ → Bool} {locked : δ → Prop} {frame guarded : δ → δ → Prop}
    (hT : LockDiscipline T holds locked frame guarded) {d d' : δ} {t : τ} {ts : List τ}
    (h : LockStep G T holds locked frame guarded d d' t ts) :
    Establishes G T (Apart holds) d d' t ts where
  data := h.data
  tasks := h.tasks
  pairwise := by
    have hsingle := h.single
    rcases ts with _ | ⟨t', _ | ⟨t'', rest⟩⟩
    · exact .nil
    · exact List.pairwise_singleton _ _
    · simp at hsingle
  others u hu hapart := by
    by_cases hholds : holds u = true
    · have ht : holds t = false := by simpa [Apart, hholds] using hapart
      obtain ⟨hguarded, hfree⟩ := h.guarded ht (hT.locked hu hholds)
      exact ⟨hT.stable hu h.frame fun _ => hguarded, fun t' ht' => apart_of_free (hfree t' ht')⟩
    · exact ⟨hT.stable hu h.frame fun hu' => absurd hu' hholds,
        fun t' _ => fun hboth => hholds hboth.1⟩

end TaskSystem

end CompanionBackend.TaskSystems

/-!
## Tasks and many locks

The rule of one lock for any number of them: each lock has at most one holder, and a step of
another task leaves alone what that lock guards. A task may hold several locks at a time.
-/
namespace CompanionBackend.TaskSystems

variable {δ τ κ : Type*} {G : δ → Prop} {T : δ → τ → Prop}

namespace TaskSystem

/-- No lock is held by both. -/
def Separate (holds : τ → κ → Prop) (t u : τ) : Prop := ∀ k, holds t k → ¬holds u k

theorem separate_symm {holds : τ → κ → Prop} (t u : τ) (h : Separate holds t u) :
    Separate holds u t := fun k hu ht => h k ht hu

theorem separate_of_free {holds : τ → κ → Prop} {t u : τ} (h : ∀ k, ¬holds u k) :
    Separate holds t u := fun k _ => h k

/-- What the assertions of tasks need of a step: `frame` of every step, and `guarded k` of the steps
that others make while a task holds the lock `k`. -/
structure KeyedDiscipline (T : δ → τ → Prop) (holds : τ → κ → Prop) (locked : δ → κ → Prop)
    (frame : δ → δ → Prop) (guarded : κ → δ → δ → Prop) : Prop where
  locked : ∀ {d t k}, T d t → holds t k → locked d k
  stable : ∀ {d d' t}, T d t → frame d d' → (∀ k, holds t k → guarded k d d') → T d' t

/-- One step of one task under the discipline. -/
structure KeyedStep (G : δ → Prop) (T : δ → τ → Prop) (holds : τ → κ → Prop)
    (locked : δ → κ → Prop) (frame : δ → δ → Prop) (guarded : κ → δ → δ → Prop) (d d' : δ) (t : τ)
    (ts : List τ) : Prop where
  data : G d'
  frame : frame d d'
  tasks : ∀ t' ∈ ts, T d' t'
  single : ts.length ≤ 1
  guarded : ∀ k, ¬holds t k → locked d k → guarded k d d' ∧ ∀ t' ∈ ts, ¬holds t' k

/-- A step under the discipline establishes what the other tasks rely on. -/
theorem KeyedStep.establishes {holds : τ → κ → Prop} {locked : δ → κ → Prop}
    {frame : δ → δ → Prop} {guarded : κ → δ → δ → Prop}
    (hT : KeyedDiscipline T holds locked frame guarded) {d d' : δ} {t : τ} {ts : List τ}
    (h : KeyedStep G T holds locked frame guarded d d' t ts) :
    Establishes G T (Separate holds) d d' t ts where
  data := h.data
  tasks := h.tasks
  pairwise := by
    have hsingle := h.single
    rcases ts with _ | ⟨t', _ | ⟨t'', rest⟩⟩
    · exact .nil
    · exact List.pairwise_singleton _ _
    · simp at hsingle
  others u hu hseparate := by
    have hfree : ∀ k, holds u k → guarded k d d' ∧ ∀ t' ∈ ts, ¬holds t' k := by
      intro k hk
      exact h.guarded k (fun ht => hseparate k ht hk) (hT.locked hu hk)
    exact ⟨hT.stable hu h.frame fun k hk => (hfree k hk).1,
      fun t' ht' k hk => (hfree k hk).2 t' ht'⟩

end TaskSystem

end CompanionBackend.TaskSystems

/-!
## Tasks and the items they own

A task may own an item that the data shows as held. No item has two owners when a step takes
only items that are free and leaves those of others held; and every held item has an owner when
no step ends on an item without letting go of it.
-/
namespace CompanionBackend.TaskSystems

variable {δ τ ι κ : Type*}

namespace TaskSystem

/-- No item is owned by both. -/
def Distinct (owner : τ → Option κ) (t u : τ) : Prop := ∀ k, owner t = some k → owner u ≠ some k

theorem distinct_symm {owner : τ → Option κ} (t u : τ) (h : Distinct owner t u) :
    Distinct owner u t := fun k hu ht => h k ht hu

theorem distinct_of_none {owner : τ → Option κ} {t u : τ} (h : owner u = none) :
    Distinct owner t u := by
  intro k _
  simp [h]

/-- What the task owns is held. -/
def Owns (owner : τ → Option κ) (held : δ → κ → Prop) (d : δ) (t : τ) : Prop :=
  ∀ k, owner t = some k → held d k

/-- One step of one task that takes only what is free and leaves alone what others own. -/
structure OwnerStep (G : δ → Prop) (owner : τ → Option κ) (held : δ → κ → Prop) (d d' : δ) (t : τ)
    (ts : List τ) : Prop where
  data : G d'
  single : ts.length ≤ 1
  taken : ∀ t' ∈ ts, ∀ k, owner t' = some k → held d' k ∧ (owner t = some k ∨ ¬held d k)
  others : ∀ k, owner t ≠ some k → held d k → held d' k

theorem OwnerStep.establishes {G : δ → Prop} {owner : τ → Option κ} {held : δ → κ → Prop}
    {d d' : δ} {t : τ} {ts : List τ} (h : OwnerStep G owner held d d' t ts) :
    Establishes G (Owns owner held) (Distinct owner) d d' t ts where
  data := h.data
  tasks t' ht' k hk := (h.taken t' ht' k hk).1
  pairwise := by
    have hsingle := h.single
    rcases ts with _ | ⟨t', _ | ⟨t'', rest⟩⟩
    · exact .nil
    · exact List.pairwise_singleton _ _
    · simp at hsingle
  others u hu hdistinct := by
    refine ⟨fun k hk => h.others k (fun ht => hdistinct k ht hk) (hu k hk), ?_⟩
    intro t' ht' k hk hk'
    rcases (h.taken t' ht' k hk').2 with howner | hfree
    · exact hdistinct k howner hk
    · exact hfree (hu k hk)

/-- Every item that is held has an owner, in runs whose steps let go of an item before they end
on it. -/
theorem reachableUnder_attended {S : TaskSystem δ τ ι} {ok : δ → τ → ι → Prop}
    (owner : τ → Option κ) (held : δ → κ → Prop)
    (hinitial : ∀ d, S.initial d → ∀ k, ¬held d k)
    (hadvance : ∀ d t i d' ts, ok d t i → S.advance d t i = some (d', ts) →
      ∀ k, held d' k → (held d k ∧ owner t ≠ some k) ∨ ∃ t' ∈ ts, owner t' = some k)
    {w : World δ τ} (hw : S.machine.ReachableUnder (guard ok) w) :
    ∀ k, held w.data k → ∃ t ∈ w.tasks, owner t = some k := by
  refine Runs.Machine.reachableUnder_invariant
    (I := fun w => ∀ k, held w.data k → ∃ t ∈ w.tasks, owner t = some k) ?_ ?_ hw
  · rintro ⟨d, tasks⟩ ⟨hd, -⟩ k hk
    exact absurd hk (hinitial d hd k)
  · rintro w (i | ⟨n, i⟩) w' hw hok hstep k hk
    · obtain ⟨ts, -, rfl⟩ := Option.map_eq_some_iff.mp hstep
      obtain ⟨t, ht, howner⟩ := hw k hk
      exact ⟨t, List.mem_append_left _ ht, howner⟩
    · obtain ⟨t, ht, hrest⟩ := Option.bind_eq_some_iff.mp hstep
      obtain ⟨⟨d', ts⟩, hadv, rfl⟩ := Option.map_eq_some_iff.mp hrest
      rcases hadvance w.data t i d' ts (hok t ht) hadv k hk with ⟨hheld, hother⟩ | ⟨t', ht', howner⟩
      · obtain ⟨u, hu, howner⟩ := hw k hheld
        rcases List.mem_cons.mp ((perm_eraseIdx ht).mem_iff.mp hu) with rfl | hu
        · exact absurd howner hother
        · exact ⟨u, List.mem_append_left _ hu, howner⟩
      · exact ⟨t', List.mem_append_right _ ht', howner⟩

end TaskSystem

end CompanionBackend.TaskSystems

/-!
## Balances between shared data and what tasks carry

Tasks may hold a part of an amount that the data accounts for. The rule here keeps a
relation between the data and the sum of what all tasks hold: a step of one task is checked
against an arbitrary rest.
-/
namespace CompanionBackend.TaskSystems

open Runs

namespace TaskSystem

variable {δ τ ι M : Type*} [AddCommMonoid M]

theorem sum_split (f : τ → M) {tasks : List τ} {k : ℕ} {t : τ} (h : tasks[k]? = some t) :
    (tasks.map f).sum = f t + ((tasks.eraseIdx k).map f).sum := by
  rw [((perm_eraseIdx h).map f).sum_eq, List.map_cons, List.sum_cons]

/-- A balance that starts without tasks and is kept by every guarded step of one task holds
in every guarded run, together with a property of each task that no step takes away. -/
theorem reachableUnder_balance {S : TaskSystem δ τ ι} {ok : δ → τ → ι → Prop} (f : τ → M)
    {B : δ → M → Prop} {T : δ → τ → Prop}
    (hinitial : ∀ d, S.initial d → B d 0)
    (haccept : ∀ d i ts, S.accept d i = some ts → (ts.map f).sum = 0 ∧ ∀ t ∈ ts, T d t)
    (hstable : ∀ d t i d' ts, S.advance d t i = some (d', ts) → ∀ u, T d u → T d' u)
    (hadvance : ∀ d t i d' ts rest, T d t → ok d t i → S.advance d t i = some (d', ts) →
      B d (f t + rest) → B d' ((ts.map f).sum + rest) ∧ ∀ t' ∈ ts, T d' t')
    {w : World δ τ} (hw : S.machine.ReachableUnder (guard ok) w) :
    B w.data (w.tasks.map f).sum ∧ ∀ t ∈ w.tasks, T w.data t := by
  refine Machine.reachableUnder_invariant
    (I := fun w => B w.data (w.tasks.map f).sum ∧ ∀ t ∈ w.tasks, T w.data t) ?_ ?_ hw
  · rintro ⟨d, tasks⟩ ⟨hd, htasks⟩
    obtain rfl : tasks = [] := htasks
    exact ⟨hinitial d hd, by simp⟩
  · rintro w (i | ⟨k, i⟩) w' ⟨hbalance, htasks⟩ hok hstep
    · obtain ⟨ts, hts, rfl⟩ := Option.map_eq_some_iff.mp hstep
      obtain ⟨hsum, hnew⟩ := haccept w.data i ts hts
      refine ⟨?_, fun t ht => ?_⟩
      · simpa [hsum] using hbalance
      · exact (List.mem_append.mp ht).elim (htasks t) (hnew t)
    · obtain ⟨t, ht, hrest⟩ := Option.bind_eq_some_iff.mp hstep
      obtain ⟨⟨d', ts⟩, hadv, rfl⟩ := Option.map_eq_some_iff.mp hrest
      rw [sum_split f ht] at hbalance
      obtain ⟨hnext, hnew⟩ := hadvance w.data t i d' ts _ (htasks t (List.mem_of_getElem? ht))
        (hok t ht) hadv hbalance
      refine ⟨?_, fun u hu => ?_⟩
      · rw [List.map_append, List.sum_append, add_comm]
        exact hnext
      · rcases List.mem_append.mp hu with hold | hleft
        · exact hstable w.data t i d' ts hadv u (htasks u (List.mem_of_mem_eraseIdx hold))
        · exact hnew u hleft

end TaskSystem

end CompanionBackend.TaskSystems
