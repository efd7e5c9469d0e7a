import Mathlib.Logic.Function.Basic
import Mathlib.Order.Basic
import Mathlib.Order.Nat
import Mathlib.Tactic.SplitIfs
import CompanionBackend.TaskSystems

/-!
# Generation futures

The registry that wakes the request waiting for a reply. An enqueue replaces the
generation in Redis, marks the future of the old one obsolete and registers one
for its own; a run resolves the future of the generation it read; the waiter
takes the future when its response is streamed. No section of the registry awaits
while it holds the lock, so each is one step of its task.
-/
namespace CompanionBackend.GenerationFutures

open Runs TaskSystems

/-- A generation token; tokens are fresh UUIDs. -/
abbrev GenId := ℕ
abbrev FutId := ℕ
/-- The dictionary a bundle resolves with; only its identity matters here. -/
abbrev Payload := ℕ

/-- What a waiter can receive; `obsolete` is `{'obsolete': True}`. -/
inductive Reply
  | obsolete
  | payload (p : Payload)
  deriving DecidableEq, Repr

/-- An `asyncio.Future`. A wait that times out cancels it. -/
inductive FutState
  | pending
  | done (r : Reply)
  | cancelled
  deriving DecidableEq, Repr

/-- What happened first to a generation. -/
inductive First
  | superseded | resolved
  deriving DecidableEq, Repr

/-- The key in Redis, the two dictionaries and the futures. The last five fields are histories:
what happened first to a generation, the payloads it was resolved with, whether its enqueue has
registered a future and whether it was invalidated, and the generations read by enqueues that are
about to invalidate them. -/
structure Registry where
  generation : Option GenId
  nextGen : GenId
  futures : GenId → Option FutId
  results : GenId → Option Payload
  heap : FutId → FutState
  nextFut : FutId
  first : GenId → Option First
  payloads : GenId → List Payload
  created : GenId → Bool
  invalidated : GenId → Bool
  underway : List GenId

/-- `enqueue` stands for `enqueue_send`, `enqueue_resend`: after the future of `gen` is registered
they touch the registry no more. -/
inductive FutureTask
  | enqueue
  | storing (old : Option GenId)
  | invalidating (gen : GenId) (old : Option GenId)
  | creating (gen : GenId)
  | returned (gen : GenId)
  | waiting (gen : GenId) (fut : FutId)
  | cleaning (gen : GenId) (reply : Option Reply)
  | received (gen : GenId) (reply : Option Reply)
  | resolving (gen : GenId) (p : Payload)
  deriving DecidableEq, Repr

inductive FutureInput
  | enqueue
  | resolve (gen : GenId) (p : Payload)
  | next
  | timeout
  deriving DecidableEq, Repr

/-! ### Sections of the registry -/

/-- `redis_set_generation` in `new_generation_for_user`, which has read `old` before. -/
def storeGeneration (old : Option GenId) (d : Registry) : Registry :=
  { d with
    generation := some d.nextGen
    nextGen := d.nextGen + 1
    first := match d.generation with
      | some gen => Function.update d.first gen ((d.first gen).or (some .superseded))
      | none => d.first
    underway := old.toList ++ d.underway }

/-- `_invalidate_generation_future`. -/
def invalidateGenerationFuture (old : Option GenId) (d : Registry) : Registry :=
  match old with
  | none => d
  | some gen =>
    { d with
      results := Function.update d.results gen none
      futures := Function.update d.futures gen none
      heap := match d.futures gen with
        | some fut => if d.heap fut = .pending then Function.update d.heap fut (.done .obsolete)
          else d.heap
        | none => d.heap
      invalidated := Function.update d.invalidated gen true
      underway := d.underway.erase gen }

/-- `_get_or_create_bundle_future`. -/
def getOrCreateBundleFuture (gen : GenId) (d : Registry) : Registry × FutId :=
  match d.results gen with
  | some p =>
    ({ d with
      results := Function.update d.results gen none
      heap := Function.update d.heap d.nextFut (.done (.payload p))
      nextFut := d.nextFut + 1 }, d.nextFut)
  | none =>
    match d.futures gen with
    | some fut => (d, fut)
    | none =>
      ({ d with
        futures := Function.update d.futures gen (some d.nextFut)
        heap := Function.update d.heap d.nextFut .pending
        nextFut := d.nextFut + 1 }, d.nextFut)

/-- `resolve_generation_future`. -/
def resolveGenerationFuture (gen : GenId) (p : Payload) (d : Registry) : Registry :=
  let unset := (d.futures gen).filter fun fut => decide (d.heap fut = .pending)
  { d with
    heap := match unset with
      | some fut => Function.update d.heap fut (.done (.payload p))
      | none => d.heap
    results := match unset with
      | some _ => d.results
      | none => Function.update d.results gen (some p)
    first := Function.update d.first gen ((d.first gen).or (some .resolved))
    payloads := Function.update d.payloads gen (d.payloads gen ++ [p]) }

def futureAdvance (d : Registry) : FutureTask → FutureInput → Option (Registry × List FutureTask)
  | .enqueue, .next => some (d, [.storing d.generation])
  | .storing old, .next => some (storeGeneration old d, [.invalidating d.nextGen old])
  | .invalidating gen old, .next => some (invalidateGenerationFuture old d, [.creating gen])
  | .creating gen, .next =>
    some ({ (getOrCreateBundleFuture gen d).1 with
      created := Function.update d.created gen true }, [.returned gen])
  | .returned gen, .next =>
    some ((getOrCreateBundleFuture gen d).1, [.waiting gen (getOrCreateBundleFuture gen d).2])
  | .waiting gen fut, .next =>
    match d.heap fut with
    | .done r => some (d, [.cleaning gen (some r)])
    | _ => none
  | .waiting gen fut, .timeout =>
    if d.heap fut = .pending then
      some ({ d with heap := Function.update d.heap fut .cancelled }, [.cleaning gen none])
    else none
  | .cleaning gen reply, .next =>
    some ({ d with
      futures := Function.update d.futures gen none
      results := Function.update d.results gen none }, [.received gen reply])
  | .resolving gen p, .next => some (resolveGenerationFuture gen p d, [])
  | _, _ => none

def futureAccept : FutureInput → Option (List FutureTask)
  | .enqueue => some [.enqueue]
  | .resolve gen p => some [.resolving gen p]
  | _ => none

/-- A process without futures. -/
def Registry.Empty (d : Registry) : Prop :=
  d.generation = none ∧ d.underway = [] ∧ ∀ gen, d.futures gen = none ∧ d.results gen = none ∧
    d.first gen = none ∧ d.created gen = false ∧ d.invalidated gen = false

def futureSystem : TaskSystem Registry FutureTask FutureInput where
  initial := Registry.Empty
  accept _ := futureAccept
  advance := futureAdvance

/-! ### No lost wake-up -/

/-- The reply that what happened first to the generation calls for. -/
def Right (d : Registry) (gen : GenId) : Reply → Prop
  | .obsolete => d.first gen = some .superseded
  | .payload p => d.first gen = some .resolved ∧ p ∈ d.payloads gen

/-- The future of a waiter is completed with the right reply; or it is registered and open, and its
generation was neither resolved nor superseded, or superseded by an enqueue about to invalidate it. -/
def Served (w : World Registry FutureTask) : FutureTask → Prop
  | .waiting gen fut => (∃ r, w.data.heap fut = .done r ∧ Right w.data gen r) ∨
      w.data.heap fut = .pending ∧ w.data.futures gen = some fut ∧
        (w.data.first gen = none ∨ w.data.first gen = some .superseded ∧
          ∃ gen', .invalidating gen' (some gen) ∈ w.tasks)
  | .received gen (some r) => Right w.data gen r
  | _ => True

/-- The conditions, on the state before the step: a generation is stored over the one that was read;
a wait starts before its generation is invalidated, and does not time out once something happened
to it; a generation is resolved after its enqueue has registered the future, and not between its
replacement and its invalidation. -/
def InOrder (d : Registry) : FutureTask → FutureInput → Prop
  | .storing old, .next => d.generation = old
  | .returned gen, .next => d.invalidated gen = false
  | .waiting gen _, .timeout => d.first gen = none
  | .resolving gen _, .next =>
    d.created gen = true ∧ (gen ∈ d.underway → d.first gen = some .resolved)
  | _, _ => True

instance (d : Registry) (t : FutureTask) (i : FutureInput) : Decidable (InOrder d t i) := by
  unfold InOrder
  split <;> infer_instance

/-! ### The invariant -/

/-- What the future registered for a generation that is not invalidated may hold. -/
def StateOk (d : Registry) (gen : GenId) : FutState → Prop
  | .pending => d.first gen ≠ some .resolved
  | .done r => ∃ p, r = .payload p ∧ Right d gen r
  | .cancelled => True

structure RegistryOk (d : Registry) : Prop where
  underway_nodup : d.underway.Nodup
  underway_first : ∀ gen ∈ d.underway, d.first gen ≠ none ∧ d.invalidated gen = false ∧
    gen < d.nextGen
  current : ∀ gen, d.generation = some gen → gen < d.nextGen ∧ gen ∉ d.underway ∧
    d.invalidated gen = false
  superseded : ∀ gen, d.first gen = some .superseded → gen ∈ d.underway ∨ d.invalidated gen = true
  future_lt : ∀ gen fut, d.futures gen = some fut → fut < d.nextFut
  future_inj : ∀ gen gen' fut, d.futures gen = some fut → d.futures gen' = some fut → gen = gen'
  future_state : ∀ gen fut, d.invalidated gen = false → d.futures gen = some fut →
    StateOk d gen (d.heap fut)
  uncreated : ∀ gen, d.created gen = false → d.futures gen = none ∧ d.results gen = none ∧
    d.first gen ≠ some .resolved
  unborn : ∀ gen, d.nextGen ≤ gen → d.created gen = false ∧ d.invalidated gen = false

/-- A future that the enqueue registered waits for its waiter. -/
structure Registered (d : Registry) (gen : GenId) : Prop where
  future : ∃ fut, d.futures gen = some fut ∧ d.heap fut ≠ .cancelled
  cached : ∀ p, d.results gen = some p → Right d gen (.payload p)

/-- The state of the future a waiter holds. -/
def Held (d : Registry) (gen : GenId) (fut : FutId) : Prop :=
  (∃ r, d.heap fut = .done r ∧ Right d gen r) ∨
    d.heap fut = .pending ∧ d.futures gen = some fut ∧ d.invalidated gen = false

def TaskOk (d : Registry) : FutureTask → Prop
  | .invalidating gen old =>
    gen < d.nextGen ∧ d.created gen = false ∧ ∀ o, old = some o → o ∈ d.underway
  | .creating gen => gen < d.nextGen ∧ d.created gen = false
  | .returned gen => d.created gen = true ∧ (d.invalidated gen = false → Registered d gen)
  | .waiting gen fut => d.created gen = true ∧ fut < d.nextFut ∧ Held d gen fut
  | .cleaning gen reply => d.created gen = true ∧ ∀ r, reply = some r → Right d gen r
  | .received gen reply => ∀ r, reply = some r → Right d gen r
  | _ => True

/-- The generation an enqueue and then its waiter own. -/
def FutureTask.owner : FutureTask → Option GenId
  | .invalidating gen _ | .creating gen | .returned gen | .waiting gen _ | .cleaning gen _ =>
    some gen
  | _ => none

/-- The generation the task is about to invalidate. -/
def FutureTask.obsoletes : FutureTask → Option GenId
  | .invalidating _ old => old
  | _ => none

/-- No two tasks own one generation, and no two are about to invalidate one. -/
structure Apart (t u : FutureTask) : Prop where
  owner : ∀ gen, t.owner = some gen → u.owner ≠ some gen
  obsoletes : ∀ gen, t.obsoletes = some gen → u.obsoletes ≠ some gen

theorem Apart.symm {t u : FutureTask} (h : Apart t u) : Apart u t :=
  ⟨fun gen hu ht => h.owner gen ht hu, fun gen hu ht => h.obsoletes gen ht hu⟩

theorem TaskOk.owner_lt {d : Registry} {t : FutureTask} {gen : GenId} (hd : RegistryOk d)
    (h : TaskOk d t) (howner : t.owner = some gen) : gen < d.nextGen := by
  have hborn : d.created gen = true → gen < d.nextGen := by
    intro hcreated
    by_contra hle
    rw [(hd.unborn gen (not_lt.mp hle)).1] at hcreated
    exact absurd hcreated Bool.false_ne_true
  cases t with
  | invalidating gen' old =>
    obtain rfl := Option.some.inj howner
    exact h.1
  | creating gen' =>
    obtain rfl := Option.some.inj howner
    exact h.1
  | returned gen' =>
    obtain rfl := Option.some.inj howner
    exact hborn h.1
  | waiting gen' fut =>
    obtain rfl := Option.some.inj howner
    exact hborn h.1
  | cleaning gen' reply =>
    obtain rfl := Option.some.inj howner
    exact hborn h.1
  | _ => exact absurd howner (by simp [FutureTask.owner])

theorem TaskOk.obsoletes_mem {d : Registry} {t : FutureTask} {gen : GenId} (h : TaskOk d t)
    (hold : t.obsoletes = some gen) : gen ∈ d.underway := by
  cases t with
  | invalidating gen' old => exact h.2.2 gen hold
  | _ => exact absurd hold (by simp [FutureTask.obsoletes])

/-! ### Stability -/

/-- Histories grow, and a completed future stays as it is. -/
structure Grows (d d' : Registry) : Prop where
  nextGen : d.nextGen ≤ d'.nextGen
  nextFut : d.nextFut ≤ d'.nextFut
  first : ∀ gen x, d.first gen = some x → d'.first gen = some x
  payloads : ∀ gen, d.payloads gen ⊆ d'.payloads gen
  done : ∀ fut < d.nextFut, ∀ r, d.heap fut = .done r → d'.heap fut = .done r

/-- The registry says the same about the generation. -/
structure SameAt (gen : GenId) (d d' : Registry) : Prop where
  futures : d'.futures gen = d.futures gen
  results : d'.results gen = d.results gen
  created : d'.created gen = d.created gen
  invalidated : d'.invalidated gen = d.invalidated gen
  heap : ∀ fut, d.futures gen = some fut → d'.heap fut = d.heap fut

theorem Right.grows {d d' : Registry} {gen : GenId} {r : Reply} (h : Right d gen r)
    (hg : Grows d d') : Right d' gen r := by
  cases r with
  | obsolete => exact hg.first gen _ h
  | payload p => exact ⟨hg.first gen _ h.1, hg.payloads gen h.2⟩

theorem Held.grows {d d' : Registry} {gen : GenId} {fut : FutId} (h : Held d gen fut)
    (hlt : fut < d.nextFut) (hg : Grows d d') (hs : SameAt gen d d') : Held d' gen fut := by
  rcases h with ⟨r, hdone, hright⟩ | ⟨hpending, hfut, hvalid⟩
  · exact .inl ⟨r, hg.done fut hlt r hdone, hright.grows hg⟩
  · exact .inr ⟨(hs.heap fut hfut).trans hpending, hs.futures.trans hfut,
      hs.invalidated.trans hvalid⟩

theorem Registered.grows {d d' : Registry} {gen : GenId} (h : Registered d gen)
    (hg : Grows d d') (hs : SameAt gen d d') : Registered d' gen := by
  obtain ⟨fut, hfut, hstate⟩ := h.future
  refine ⟨⟨fut, hs.futures.trans hfut, ?_⟩, fun p hp => ?_⟩
  · rwa [hs.heap fut hfut]
  · exact (h.cached p (hs.results.symm.trans hp)).grows hg

/-- A task relies on the generation it owns and on the ones under way. -/
theorem TaskOk.grows {d d' : Registry} {t : FutureTask} (h : TaskOk d t) (hg : Grows d d')
    (hs : ∀ gen, t.owner = some gen → SameAt gen d d')
    (hold : ∀ gen, t.obsoletes = some gen → gen ∈ d'.underway) : TaskOk d' t := by
  cases t with
  | invalidating gen old =>
    exact ⟨h.1.trans_le hg.nextGen, (hs gen rfl).created.trans h.2.1, hold⟩
  | creating gen => exact ⟨h.1.trans_le hg.nextGen, (hs gen rfl).created.trans h.2⟩
  | returned gen =>
    have hsame := hs gen rfl
    refine ⟨hsame.created.trans h.1, fun hvalid => (h.2 ?_).grows hg hsame⟩
    exact hsame.invalidated.symm.trans hvalid
  | waiting gen fut =>
    have hsame := hs gen rfl
    exact ⟨hsame.created.trans h.1, h.2.1.trans_le hg.nextFut, h.2.2.grows h.2.1 hg hsame⟩
  | cleaning gen reply =>
    exact ⟨(hs gen rfl).created.trans h.1, fun r hr => (h.2 r hr).grows hg⟩
  | received gen reply => exact fun r hr => (h r hr).grows hg
  | _ => exact trivial

/-! ### Steps -/

/-- A step that leaves one task, which owns and invalidates no more than the old one. -/
theorem establishes_single {d d' : Registry} {t t' : FutureTask} (hd : RegistryOk d')
    (ht' : TaskOk d' t') (howner : t'.owner = t.owner ∨ t'.owner = none)
    (hobsoletes : t'.obsoletes = none)
    (hothers : ∀ u, TaskOk d u → Apart t u → TaskOk d' u) :
    TaskSystem.Establishes RegistryOk TaskOk Apart d d' t [t'] := by
  refine ⟨hd, ?_, List.pairwise_singleton _ _, fun u hu htu => ⟨hothers u hu htu, ?_⟩⟩
  · intro u hu
    obtain rfl := List.mem_singleton.mp hu
    exact ht'
  · intro u' hu'
    obtain rfl := List.mem_singleton.mp hu'
    refine ⟨fun gen hgen hgen' => ?_, fun gen _ hgen' => ?_⟩
    · rcases howner with heq | hnone
      · exact htu.owner gen (heq.symm.trans hgen') hgen
      · rw [hnone] at hgen'
        exact absurd hgen' (by simp)
    · rw [hobsoletes] at hgen'
      exact absurd hgen' (by simp)

/-- When nothing changes, all tasks stay as they are. -/
theorem others_of_same {d : Registry} {t : FutureTask} :
    ∀ u, TaskOk d u → Apart t u → TaskOk d u := fun _ hu _ => hu

/-- A step on the generation that the task owns leaves the tasks of other generations alone. -/
theorem others_of_owner {d d' : Registry} {t : FutureTask} {gen : GenId}
    (howner : t.owner = some gen) (hg : Grows d d') (hs : ∀ g, g ≠ gen → SameAt g d d')
    (hunderway : d'.underway = d.underway) : ∀ u, TaskOk d u → Apart t u → TaskOk d' u := by
  intro u hu htu
  refine hu.grows hg (fun g hg' => hs g ?_) fun g hg' => ?_
  · rintro rfl
    exact htu.owner g howner hg'
  · rw [hunderway]
    exact hu.obsoletes_mem hg'

/-! #### Storing a generation -/

theorem storeGeneration_first {d : Registry} {old : Option GenId} {gen : GenId} {x : First}
    (h : d.first gen = some x) : (storeGeneration old d).first gen = some x := by
  simp only [storeGeneration]
  cases hcur : d.generation with
  | none => exact h
  | some g =>
    by_cases hg : gen = g
    · subst hg
      simp [h]
    · simp [Function.update_of_ne hg, h]

theorem storeGeneration_grows (old : Option GenId) (d : Registry) :
    Grows d (storeGeneration old d) :=
  ⟨Nat.le_succ _, le_rfl, fun _ _ => storeGeneration_first, fun _ => List.Subset.refl _,
    fun _ _ _ h => h⟩

theorem storeGeneration_sameAt (old : Option GenId) (d : Registry) (gen : GenId) :
    SameAt gen d (storeGeneration old d) := ⟨rfl, rfl, rfl, rfl, fun _ _ => rfl⟩

/-- The replaced generation is superseded, unless something else happened to it before. -/
theorem storeGeneration_first_cases {d : Registry} {gen : GenId} {x : First}
    (h : (storeGeneration d.generation d).first gen = some x) :
    d.first gen = some x ∨ x = .superseded ∧ d.generation = some gen := by
  simp only [storeGeneration] at h
  cases hcur : d.generation with
  | none =>
    rw [hcur] at h
    exact .inl h
  | some g =>
    rw [hcur] at h
    by_cases hg : gen = g
    · subst hg
      simp only [Function.update_self] at h
      cases hfirst : d.first gen with
      | none =>
        rw [hfirst] at h
        exact .inr ⟨(Option.some.inj h).symm, rfl⟩
      | some y =>
        rw [hfirst] at h
        exact .inl h
    · simp only [Function.update_of_ne hg] at h
      exact .inl h

theorem storeGeneration_first_ne {d : Registry} {gen : GenId} (h : d.generation = some gen) :
    (storeGeneration d.generation d).first gen ≠ none := by
  simp only [storeGeneration, h, Function.update_self]
  cases d.first gen <;> simp

theorem registryOk_store {d : Registry} (hd : RegistryOk d) :
    RegistryOk (storeGeneration d.generation d) := by
  have hgrows := storeGeneration_grows d.generation d
  have hmem : ∀ gen ∈ d.generation.toList ++ d.underway,
      d.generation = some gen ∨ gen ∈ d.underway := by
    intro gen hgen
    simpa [Option.mem_toList, Option.mem_def] using hgen
  refine ⟨?_, ?_, ?_, ?_, hd.future_lt, hd.future_inj, ?_, ?_, ?_⟩
  · refine List.nodup_append.mpr ⟨?_, hd.underway_nodup, ?_⟩
    · cases d.generation <;> simp
    · rintro a ha b hb rfl
      exact (hd.current a (by simpa using ha)).2.1 hb
  · intro gen hgen
    rcases hmem gen hgen with hcur | hold
    · obtain ⟨hlt, -, hvalid⟩ := hd.current gen hcur
      exact ⟨storeGeneration_first_ne hcur, hvalid, hlt.trans (Nat.lt_succ_self _)⟩
    · obtain ⟨hfirst, hvalid, hlt⟩ := hd.underway_first gen hold
      obtain ⟨x, hx⟩ := Option.ne_none_iff_exists'.mp hfirst
      refine ⟨?_, hvalid, hlt.trans (Nat.lt_succ_self _)⟩
      rw [hgrows.first gen x hx]
      simp
  · intro gen hgen
    obtain rfl := Option.some.inj hgen
    refine ⟨Nat.lt_succ_self _, fun hin => ?_, (hd.unborn _ le_rfl).2⟩
    rcases hmem _ hin with hcur | hold
    · exact absurd (hd.current _ hcur).1 (lt_irrefl _)
    · exact absurd (hd.underway_first _ hold).2.2 (lt_irrefl _)
  · intro gen hgen
    rcases storeGeneration_first_cases hgen with hold | ⟨-, hcur⟩
    · refine (hd.superseded gen hold).imp_left fun h => ?_
      exact List.mem_append_right _ h
    · left
      refine List.mem_append_left _ ?_
      simpa using hcur
  · intro gen fut hvalid hfut
    have hstate := hd.future_state gen fut hvalid hfut
    change StateOk _ gen (d.heap fut)
    cases hheap : d.heap fut with
    | pending =>
      rw [hheap] at hstate
      intro hresolved
      rcases storeGeneration_first_cases hresolved with hold | ⟨hne, -⟩
      · exact hstate hold
      · exact absurd hne (by simp)
    | done r =>
      rw [hheap] at hstate
      obtain ⟨p, rfl, hright⟩ := hstate
      exact ⟨p, rfl, hright.grows hgrows⟩
    | cancelled => exact trivial
  · intro gen hgen
    obtain ⟨hfut, hres, hfirst⟩ := hd.uncreated gen hgen
    refine ⟨hfut, hres, fun hresolved => ?_⟩
    rcases storeGeneration_first_cases hresolved with hold | ⟨hne, -⟩
    · exact hfirst hold
    · exact absurd hne (by simp)
  · intro gen hgen
    exact hd.unborn gen ((Nat.le_succ _).trans hgen)

theorem establishes_store {d : Registry} (hd : RegistryOk d) :
    TaskSystem.Establishes RegistryOk TaskOk Apart d (storeGeneration d.generation d)
      (.storing d.generation) [.invalidating d.nextGen d.generation] := by
  have hgrows := storeGeneration_grows d.generation d
  refine ⟨registryOk_store hd, ?_, List.pairwise_singleton _ _, fun u hu _ => ⟨?_, ?_⟩⟩
  · intro t ht
    obtain rfl := List.mem_singleton.mp ht
    refine ⟨Nat.lt_succ_self _, (hd.unborn _ le_rfl).1, fun o ho => ?_⟩
    refine List.mem_append_left _ ?_
    simpa using ho
  · refine hu.grows hgrows (fun gen _ => storeGeneration_sameAt _ d gen) fun gen hgen => ?_
    exact List.mem_append_right _ (hu.obsoletes_mem hgen)
  · intro t ht
    obtain rfl := List.mem_singleton.mp ht
    refine ⟨fun gen howner hgen => ?_, fun gen hold hgen => ?_⟩
    · obtain rfl := Option.some.inj hgen
      exact absurd (hu.owner_lt hd howner) (lt_irrefl _)
    · exact (hd.current gen hgen).2.1 (hu.obsoletes_mem hold)

/-! #### Invalidating a generation -/

/-- The futures the invalidation of `gen` completes. -/
theorem invalidate_heap {d : Registry} {gen : GenId} {fut : FutId} :
    (invalidateGenerationFuture (some gen) d).heap fut =
      if d.futures gen = some fut ∧ d.heap fut = .pending then .done .obsolete else d.heap fut := by
  simp only [invalidateGenerationFuture]
  cases hfut : d.futures gen with
  | none => simp
  | some f =>
    by_cases hf : fut = f
    · subst hf
      by_cases hpending : d.heap fut = .pending <;> simp [hpending]
    · have hne : f ≠ fut := Ne.symm hf
      by_cases hpending : d.heap f = .pending <;>
        simp [hpending, Function.update_of_ne hf, hne]

theorem invalidate_grows (d : Registry) (gen : GenId) :
    Grows d (invalidateGenerationFuture (some gen) d) := by
  refine ⟨le_rfl, le_rfl, fun _ _ h => h, fun _ => List.Subset.refl _, fun fut _ r hdone => ?_⟩
  rw [invalidate_heap, if_neg]
  · exact hdone
  · rintro ⟨-, hpending⟩
    simp [hdone] at hpending

theorem invalidate_sameAt {d : Registry} (hd : RegistryOk d) {gen g : GenId} (hg : g ≠ gen) :
    SameAt g d (invalidateGenerationFuture (some gen) d) := by
  refine ⟨Function.update_of_ne hg _ _, Function.update_of_ne hg _ _, rfl,
    Function.update_of_ne hg _ _, fun fut hfut => ?_⟩
  rw [invalidate_heap, if_neg]
  rintro ⟨hfut', -⟩
  exact hg (hd.future_inj g gen fut hfut hfut')

/-- An open future under way to its invalidation belongs to a superseded generation. -/
theorem superseded_of_underway {d : Registry} (hd : RegistryOk d) {gen : GenId} {fut : FutId}
    (hgen : gen ∈ d.underway) (hfut : d.futures gen = some fut) (hpending : d.heap fut = .pending) :
    d.first gen = some .superseded := by
  obtain ⟨hfirst, hvalid, -⟩ := hd.underway_first gen hgen
  have hstate := hd.future_state gen fut hvalid hfut
  rw [hpending] at hstate
  cases hcase : d.first gen with
  | none => exact absurd hcase hfirst
  | some x =>
    cases x with
    | superseded => rfl
    | resolved => exact absurd hcase hstate

theorem registryOk_invalidate {d : Registry} (hd : RegistryOk d) {gen : GenId}
    (hgen : gen ∈ d.underway) : RegistryOk (invalidateGenerationFuture (some gen) d) := by
  have hgrows := invalidate_grows d gen
  have hfutures : ∀ g fut, (invalidateGenerationFuture (some gen) d).futures g = some fut →
      g ≠ gen ∧ d.futures g = some fut := by
    intro g fut hfut
    change Function.update d.futures gen none g = some fut at hfut
    by_cases hg : g = gen
    · subst hg
      simp at hfut
    · rw [Function.update_of_ne hg] at hfut
      exact ⟨hg, hfut⟩
  refine ⟨hd.underway_nodup.erase gen, ?_, ?_, ?_, ?_, ?_, ?_, ?_, ?_⟩
  · intro g hg
    obtain ⟨hfirst, hvalid, hlt⟩ := hd.underway_first g (List.mem_of_mem_erase hg)
    have hne : g ≠ gen := by
      rintro rfl
      exact hd.underway_nodup.not_mem_erase hg
    exact ⟨hfirst, (Function.update_of_ne hne _ _).trans hvalid, hlt⟩
  · intro g hcur
    obtain ⟨hlt, hnot, hvalid⟩ := hd.current g hcur
    have hne : g ≠ gen := by
      rintro rfl
      exact hnot hgen
    exact ⟨hlt, fun h => hnot (List.mem_of_mem_erase h), (Function.update_of_ne hne _ _).trans hvalid⟩
  · intro g hg
    by_cases hne : g = gen
    · subst hne
      exact .inr (Function.update_self _ _ _)
    · rcases hd.superseded g hg with hin | hvalid
      · exact .inl ((List.mem_erase_of_ne hne).mpr hin)
      · exact .inr ((Function.update_of_ne hne _ _).trans hvalid)
  · intro g fut hfut
    exact hd.future_lt g fut (hfutures g fut hfut).2
  · intro g g' fut hfut hfut'
    exact hd.future_inj g g' fut (hfutures g fut hfut).2 (hfutures g' fut hfut').2
  · intro g fut hvalid hfut
    obtain ⟨hne, hfut⟩ := hfutures g fut hfut
    have hsame := invalidate_sameAt hd hne
    rw [hsame.heap fut hfut]
    exact hd.future_state g fut (hsame.invalidated.symm.trans hvalid) hfut
  · intro g hcreated
    obtain ⟨hfut, hres, hfirst⟩ := hd.uncreated g hcreated
    by_cases hne : g = gen
    · subst hne
      exact ⟨Function.update_self _ _ _, Function.update_self _ _ _, hfirst⟩
    · exact ⟨(Function.update_of_ne hne _ _).trans hfut, (Function.update_of_ne hne _ _).trans hres,
        hfirst⟩
  · intro g hg
    have hne : g ≠ gen := by
      rintro rfl
      exact absurd (hd.underway_first g hgen).2.2 (not_lt.mpr hg)
    exact ⟨(hd.unborn g hg).1, (Function.update_of_ne hne _ _).trans (hd.unborn g hg).2⟩

/-- The waiter of an invalidated generation holds a completed future; a future nobody has taken yet
is dropped. -/
theorem others_invalidate {d : Registry} (hd : RegistryOk d) {gen : GenId}
    (hgen : gen ∈ d.underway) {t : FutureTask} (hold : t.obsoletes = some gen) :
    ∀ u, TaskOk d u → Apart t u → TaskOk (invalidateGenerationFuture (some gen) d) u := by
  have hgrows := invalidate_grows d gen
  intro u hu htu
  have hunder : ∀ g, u.obsoletes = some g →
      g ∈ (invalidateGenerationFuture (some gen) d).underway := by
    intro g hg
    refine (List.mem_erase_of_ne ?_).mpr (hu.obsoletes_mem hg)
    rintro rfl
    exact htu.obsoletes g hold hg
  by_cases howner : u.owner = some gen
  · cases u with
    | invalidating g old =>
      obtain rfl := Option.some.inj howner
      exact ⟨hu.1, hu.2.1, hunder⟩
    | creating g => exact hu
    | returned g =>
      obtain rfl := Option.some.inj howner
      refine ⟨hu.1, fun hvalid => ?_⟩
      have htrue : Function.update d.invalidated g true g = true := Function.update_self _ _ _
      exact absurd (htrue.symm.trans hvalid) (by simp)
    | waiting g fut =>
      obtain rfl := Option.some.inj howner
      obtain ⟨hcreated, hlt, hheld⟩ := hu
      refine ⟨hcreated, hlt, .inl ?_⟩
      rcases hheld with ⟨r, hdone, hright⟩ | ⟨hpending, hfut, -⟩
      · exact ⟨r, hgrows.done fut hlt r hdone, hright.grows hgrows⟩
      · refine ⟨.obsolete, ?_, superseded_of_underway hd hgen hfut hpending⟩
        rw [invalidate_heap, if_pos ⟨hfut, hpending⟩]
    | cleaning g reply => exact ⟨hu.1, fun r hr => (hu.2 r hr).grows hgrows⟩
    | _ => exact absurd howner (by simp [FutureTask.owner])
  · refine hu.grows hgrows (fun g hg => invalidate_sameAt hd ?_) hunder
    rintro rfl
    exact howner hg

theorem establishes_invalidate {d : Registry} (hd : RegistryOk d) {gen : GenId} {old : Option GenId}
    (ht : TaskOk d (.invalidating gen old)) :
    TaskSystem.Establishes RegistryOk TaskOk Apart d (invalidateGenerationFuture old d)
      (.invalidating gen old) [.creating gen] := by
  cases old with
  | none => exact establishes_single hd ⟨ht.1, ht.2.1⟩ (.inl rfl) rfl others_of_same
  | some o =>
    have hmem := ht.2.2 o rfl
    exact establishes_single (registryOk_invalidate hd hmem) ⟨ht.1, ht.2.1⟩ (.inl rfl) rfl
      (others_invalidate hd hmem rfl)

/-! #### Steps on one generation -/

/-- The step touches the future, the result and the history of one generation only. -/
structure TouchesOnly (gen : GenId) (d d' : Registry) : Prop where
  grows : Grows d d'
  same : ∀ g, g ≠ gen → SameAt g d d' ∧ d'.first g = d.first g
  generation : d'.generation = d.generation
  nextGen : d'.nextGen = d.nextGen
  underway : d'.underway = d.underway
  invalidated : d'.invalidated = d.invalidated
  superseded : d'.first gen = some .superseded → d.first gen = some .superseded
  future_lt : ∀ fut, d'.futures gen = some fut → fut < d'.nextFut
  future_ne : ∀ fut g, g ≠ gen → d'.futures gen = some fut → d.futures g ≠ some fut
  future_state : ∀ fut, d.invalidated gen = false → d'.futures gen = some fut →
    StateOk d' gen (d'.heap fut)
  created : d'.created gen = true

theorem StateOk.touches {d d' : Registry} {g : GenId} {state : FutState} (h : StateOk d g state)
    (hg : Grows d d') (hfirst : d'.first g = d.first g) : StateOk d' g state := by
  cases state with
  | pending =>
    intro hresolved
    exact h (hfirst.symm.trans hresolved)
  | done r =>
    obtain ⟨p, rfl, hright⟩ := h
    exact ⟨p, rfl, hright.grows hg⟩
  | cancelled => exact trivial

theorem RegistryOk.touches {d d' : Registry} {gen : GenId} (hd : RegistryOk d)
    (h : TouchesOnly gen d d') (hborn : gen < d.nextGen) : RegistryOk d' := by
  refine ⟨?_, ?_, ?_, ?_, ?_, ?_, ?_, ?_, ?_⟩
  · rw [h.underway]
    exact hd.underway_nodup
  · intro g hg
    rw [h.underway] at hg
    obtain ⟨hfirst, hvalid, hlt⟩ := hd.underway_first g hg
    obtain ⟨x, hx⟩ := Option.ne_none_iff_exists'.mp hfirst
    rw [h.invalidated, h.nextGen, h.grows.first g x hx]
    exact ⟨by simp, hvalid, hlt⟩
  · intro g hg
    rw [h.underway, h.nextGen, h.invalidated]
    exact hd.current g (h.generation.symm.trans hg)
  · intro g hg
    rw [h.underway, h.invalidated]
    apply hd.superseded g
    by_cases hne : g = gen
    · subst hne
      exact h.superseded hg
    · exact (h.same g hne).2.symm.trans hg
  · intro g fut hfut
    by_cases hne : g = gen
    · subst hne
      exact h.future_lt fut hfut
    · rw [(h.same g hne).1.futures] at hfut
      exact (hd.future_lt g fut hfut).trans_le h.grows.nextFut
  · intro g g' fut hfut hfut'
    by_cases hne : g = gen
    · by_contra hg'
      subst hne
      rw [(h.same g' (Ne.symm hg')).1.futures] at hfut'
      exact h.future_ne fut g' (Ne.symm hg') hfut hfut'
    · rw [(h.same g hne).1.futures] at hfut
      by_cases hne' : g' = gen
      · subst hne'
        exact absurd hfut (h.future_ne fut g hne hfut')
      · rw [(h.same g' hne').1.futures] at hfut'
        exact hd.future_inj g g' fut hfut hfut'
  · intro g fut hvalid hfut
    rw [h.invalidated] at hvalid
    by_cases hne : g = gen
    · subst hne
      exact h.future_state fut hvalid hfut
    · obtain ⟨hsame, hfirst⟩ := h.same g hne
      rw [hsame.futures] at hfut
      rw [hsame.heap fut hfut]
      exact (hd.future_state g fut hvalid hfut).touches h.grows hfirst
  · intro g hg
    have hne : g ≠ gen := by
      rintro rfl
      exact absurd (h.created.symm.trans hg) (by simp)
    obtain ⟨hsame, hfirst⟩ := h.same g hne
    rw [hsame.futures, hsame.results, hfirst]
    exact hd.uncreated g (hsame.created.symm.trans hg)
  · intro g hg
    rw [h.nextGen] at hg
    have hne : g ≠ gen := by
      rintro rfl
      exact absurd hborn (not_lt.mpr hg)
    rw [(h.same g hne).1.created, h.invalidated]
    exact hd.unborn g hg

/-- A step of the owner of a generation that touches only that generation. -/
theorem establishes_touches {d d' : Registry} {t t' : FutureTask} {gen : GenId} (hd : RegistryOk d)
    (ht : TaskOk d t) (howner : t.owner = some gen) (h : TouchesOnly gen d d') (ht' : TaskOk d' t')
    (howner' : t'.owner = some gen ∨ t'.owner = none) (hobsoletes : t'.obsoletes = none) :
    TaskSystem.Establishes RegistryOk TaskOk Apart d d' t [t'] := by
  refine establishes_single (hd.touches h (ht.owner_lt hd howner)) ht' ?_ hobsoletes ?_
  · exact howner'.imp_left fun h' => h'.trans howner.symm
  · exact others_of_owner howner h.grows (fun g hg => (h.same g hg).1) h.underway

/-- No future refers to the next address. -/
theorem RegistryOk.futures_ne_next {d : Registry} (hd : RegistryOk d) (gen : GenId) :
    d.futures gen ≠ some d.nextFut := fun h => absurd (hd.future_lt gen _ h) (lt_irrefl _)

theorem getOrCreate_uncreated {d : Registry} {gen : GenId} (hfut : d.futures gen = none)
    (hres : d.results gen = none) :
    getOrCreateBundleFuture gen d =
      ({ d with
        futures := Function.update d.futures gen (some d.nextFut)
        heap := Function.update d.heap d.nextFut .pending
        nextFut := d.nextFut + 1 }, d.nextFut) := by
  simp only [getOrCreateBundleFuture, hres, hfut]

theorem establishes_create {d : Registry} (hd : RegistryOk d) {gen : GenId}
    (ht : TaskOk d (.creating gen)) :
    TaskSystem.Establishes RegistryOk TaskOk Apart d
      { (getOrCreateBundleFuture gen d).1 with created := Function.update d.created gen true }
      (.creating gen) [.returned gen] := by
  obtain ⟨hfut, hres, hfirst⟩ := hd.uncreated gen ht.2
  rw [getOrCreate_uncreated hfut hres]
  have hheap : ∀ fut, fut ≠ d.nextFut → Function.update d.heap d.nextFut .pending fut = d.heap fut :=
    fun fut hne => Function.update_of_ne hne _ _
  have hregistered : ∀ fut, Function.update d.futures gen (some d.nextFut) gen = some fut →
      d.nextFut = fut := by
    intro fut hfut'
    simpa using hfut'
  refine establishes_touches hd ht rfl ?_ ⟨Function.update_self _ _ _, fun _ => ?_⟩ (.inl rfl) rfl
  · refine ⟨⟨le_rfl, Nat.le_succ _, fun _ _ h => h, fun _ => List.Subset.refl _, ?_⟩, ?_, rfl, rfl, rfl,
      rfl, id, ?_, ?_, ?_, Function.update_self _ _ _⟩
    · intro fut hlt r hdone
      exact (hheap fut hlt.ne).trans hdone
    · intro g hg
      refine ⟨⟨Function.update_of_ne hg _ _, rfl, Function.update_of_ne hg _ _, rfl, ?_⟩, rfl⟩
      intro fut hfut'
      exact hheap fut (hd.future_lt g fut hfut').ne
    · intro fut hfut'
      obtain rfl := hregistered fut hfut'
      exact Nat.lt_succ_self _
    · intro fut g _ hfut'
      obtain rfl := hregistered fut hfut'
      exact hd.futures_ne_next g
    · intro fut _ hfut'
      obtain rfl := hregistered fut hfut'
      simpa [StateOk] using hfirst
  · refine ⟨⟨d.nextFut, Function.update_self _ _ _, ?_⟩, fun p hp => ?_⟩
    · simp
    · exact absurd (hres.symm.trans hp) (by simp)

/-- The waiter of a generation that is not invalidated takes the registered future, or the cached
result. -/
theorem establishes_take {d : Registry} (hd : RegistryOk d) {gen : GenId}
    (ht : TaskOk d (.returned gen)) (hvalid : d.invalidated gen = false) :
    TaskSystem.Establishes RegistryOk TaskOk Apart d (getOrCreateBundleFuture gen d).1
      (.returned gen) [.waiting gen (getOrCreateBundleFuture gen d).2] := by
  obtain ⟨hcreated, hreg⟩ := ht
  obtain ⟨⟨fut, hfut, hcancelled⟩, hcached⟩ := hreg hvalid
  have hlt := hd.future_lt gen fut hfut
  have hstate := hd.future_state gen fut hvalid hfut
  cases hres : d.results gen with
  | none =>
    have heq : getOrCreateBundleFuture gen d = (d, fut) := by
      simp only [getOrCreateBundleFuture, hres, hfut]
    rw [heq]
    refine establishes_single hd ⟨hcreated, hlt, ?_⟩ (.inl rfl) rfl others_of_same
    cases hheap : d.heap fut with
    | pending => exact .inr ⟨hheap, hfut, hvalid⟩
    | done r =>
      rw [hheap] at hstate
      obtain ⟨p, rfl, hright⟩ := hstate
      exact .inl ⟨.payload p, hheap, hright⟩
    | cancelled => exact absurd hheap hcancelled
  | some p =>
    have heq : getOrCreateBundleFuture gen d =
        ({ d with
          results := Function.update d.results gen none
          heap := Function.update d.heap d.nextFut (.done (.payload p))
          nextFut := d.nextFut + 1 }, d.nextFut) := by
      simp only [getOrCreateBundleFuture, hres]
    rw [heq]
    have hheap : ∀ f, f < d.nextFut →
        Function.update d.heap d.nextFut (.done (.payload p)) f = d.heap f :=
      fun f hf => Function.update_of_ne hf.ne _ _
    have hgrows : Grows d
        { d with
          results := Function.update d.results gen none
          heap := Function.update d.heap d.nextFut (.done (.payload p))
          nextFut := d.nextFut + 1 } :=
      ⟨le_rfl, Nat.le_succ _, fun _ _ h => h, fun _ => List.Subset.refl _,
        fun f hf r hdone => (hheap f hf).trans hdone⟩
    refine establishes_touches hd ⟨hcreated, hreg⟩ rfl ?_ ⟨hcreated, Nat.lt_succ_self _, .inl ?_⟩
      (.inl rfl) rfl
    · refine ⟨hgrows, ?_, rfl, rfl, rfl, rfl, id, ?_, ?_, ?_, hcreated⟩
      · intro g hg
        refine ⟨⟨rfl, Function.update_of_ne hg _ _, rfl, rfl, fun f hf => ?_⟩, rfl⟩
        exact hheap f (hd.future_lt g f hf)
      · intro f hf
        exact (hd.future_lt gen f hf).trans (Nat.lt_succ_self _)
      · intro f g hg hf hf'
        exact hg (hd.future_inj g gen f hf' hf)
      · intro f _ hf
        have hkeep := (hd.future_state gen f hvalid hf).touches hgrows rfl
        rw [← hheap f (hd.future_lt gen f hf)] at hkeep
        exact hkeep
    · exact ⟨.payload p, Function.update_self _ _ _, (hcached p hres).grows hgrows⟩

/-- A wait that times out before anything happened to the generation. -/
theorem establishes_timeout {d : Registry} (hd : RegistryOk d) {gen : GenId} {fut : FutId}
    (ht : TaskOk d (.waiting gen fut)) (hpending : d.heap fut = .pending) :
    TaskSystem.Establishes RegistryOk TaskOk Apart d
      { d with heap := Function.update d.heap fut .cancelled } (.waiting gen fut)
      [.cleaning gen none] := by
  obtain ⟨hcreated, hlt, hheld⟩ := ht
  have hfut : d.futures gen = some fut := by
    rcases hheld with ⟨r, hdone, -⟩ | ⟨-, hfut, -⟩
    · exact absurd (hpending.symm.trans hdone) (by simp)
    · exact hfut
  have hgrows : Grows d { d with heap := Function.update d.heap fut .cancelled } := by
    refine ⟨le_rfl, le_rfl, fun _ _ h => h, fun _ => List.Subset.refl _, fun f _ r hdone => ?_⟩
    refine (Function.update_of_ne ?_ _ _).trans hdone
    rintro rfl
    exact absurd (hpending.symm.trans hdone) (by simp)
  refine establishes_touches hd ⟨hcreated, hlt, hheld⟩ rfl ?_ ⟨hcreated, by simp⟩ (.inl rfl) rfl
  refine ⟨hgrows, ?_, rfl, rfl, rfl, rfl, id, hd.future_lt gen, ?_, ?_, hcreated⟩
  · intro g hg
    refine ⟨⟨rfl, rfl, rfl, rfl, fun f hf => Function.update_of_ne ?_ _ _⟩, rfl⟩
    rintro rfl
    exact hg (hd.future_inj g gen f hf hfut)
  · intro f g hg hf hf'
    exact hg (hd.future_inj g gen f hf' hf)
  · intro f hvalid hf
    obtain rfl := Option.some.inj (hfut.symm.trans hf)
    simp [StateOk]

theorem establishes_clean {d : Registry} (hd : RegistryOk d) {gen : GenId} {reply : Option Reply}
    (ht : TaskOk d (.cleaning gen reply)) :
    TaskSystem.Establishes RegistryOk TaskOk Apart d
      { d with
        futures := Function.update d.futures gen none
        results := Function.update d.results gen none } (.cleaning gen reply)
      [.received gen reply] := by
  have hnone : ∀ fut, Function.update d.futures gen none gen ≠ some fut := by simp
  refine establishes_touches hd ht rfl ?_ (fun r hr => ht.2 r hr) (.inr rfl) rfl
  refine ⟨⟨le_rfl, le_rfl, fun _ _ h => h, fun _ => List.Subset.refl _, fun _ _ _ h => h⟩, ?_,
    rfl, rfl, rfl, rfl, id, ?_, ?_, ?_, ht.1⟩
  · intro g hg
    exact ⟨⟨Function.update_of_ne hg _ _, Function.update_of_ne hg _ _, rfl, rfl, fun _ _ => rfl⟩, rfl⟩
  · intro fut hfut
    exact absurd hfut (hnone fut)
  · intro fut g _ hfut
    exact absurd hfut (hnone fut)
  · intro fut _ hfut
    exact absurd hfut (hnone fut)

/-! #### Resolving a generation -/

theorem resolve_first {d : Registry} {gen g : GenId} {p : Payload} {x : First}
    (h : d.first g = some x) : (resolveGenerationFuture gen p d).first g = some x := by
  by_cases hg : g = gen
  · subst hg
    simp [resolveGenerationFuture, h]
  · exact (Function.update_of_ne hg _ _).trans h

theorem resolve_payloads (d : Registry) (gen g : GenId) (p : Payload) :
    d.payloads g ⊆ (resolveGenerationFuture gen p d).payloads g := by
  intro q hq
  by_cases hg : g = gen
  · subst hg
    simp [resolveGenerationFuture, hq]
  · rw [show (resolveGenerationFuture gen p d).payloads g = d.payloads g from
      Function.update_of_ne hg _ _]
    exact hq

/-- The future that the resolution completes. -/
theorem resolve_heap {d : Registry} {gen : GenId} {p : Payload} {fut : FutId} :
    (resolveGenerationFuture gen p d).heap fut =
      if d.futures gen = some fut ∧ d.heap fut = .pending then .done (.payload p)
      else d.heap fut := by
  simp only [resolveGenerationFuture]
  cases hfut : d.futures gen with
  | none => simp
  | some f =>
    by_cases hf : fut = f
    · subst hf
      by_cases hpending : d.heap fut = .pending <;> simp [Option.filter, hpending]
    · have hne : f ≠ fut := Ne.symm hf
      by_cases hpending : d.heap f = .pending <;>
        simp [Option.filter, hpending, Function.update_of_ne hf, hne]

/-- The payload is cached when it completes no future. -/
theorem resolve_results (d : Registry) (gen : GenId) (p : Payload) :
    (resolveGenerationFuture gen p d).results = d.results ∨
      (resolveGenerationFuture gen p d).results = Function.update d.results gen (some p) := by
  simp only [resolveGenerationFuture]
  cases (d.futures gen).filter fun fut => decide (d.heap fut = .pending) with
  | some fut => exact .inl rfl
  | none => exact .inr rfl

theorem resolve_grows (gen : GenId) (p : Payload) (d : Registry) :
    Grows d (resolveGenerationFuture gen p d) := by
  refine ⟨le_rfl, le_rfl, fun _ _ => resolve_first, fun g => resolve_payloads d gen g p, ?_⟩
  intro fut _ r hdone
  rw [resolve_heap, if_neg]
  · exact hdone
  · rintro ⟨-, hpending⟩
    simp [hdone] at hpending

theorem resolve_sameAt {d : Registry} (hd : RegistryOk d) {gen g : GenId} (p : Payload)
    (hg : g ≠ gen) : SameAt g d (resolveGenerationFuture gen p d) := by
  refine ⟨rfl, ?_, rfl, rfl, fun fut hfut => ?_⟩
  · rcases resolve_results d gen p with hres | hres
    · rw [hres]
    · rw [hres, Function.update_of_ne hg]
  · rw [resolve_heap, if_neg]
    rintro ⟨hfut', -⟩
    exact hg (hd.future_inj g gen fut hfut hfut')

/-- A resolution in order, of a generation that was not superseded before. -/
theorem resolve_right {d : Registry} {gen : GenId} (p : Payload)
    (h : d.first gen ≠ some .superseded) :
    Right (resolveGenerationFuture gen p d) gen (.payload p) := by
  constructor
  · simp only [resolveGenerationFuture, Function.update_self]
    cases hfirst : d.first gen with
    | none => rfl
    | some x =>
      cases x with
      | superseded => exact absurd hfirst h
      | resolved => rfl
  · simp [resolveGenerationFuture]

/-- In order, a generation that is not invalidated was not superseded either. -/
theorem not_superseded {d : Registry} (hd : RegistryOk d) {gen : GenId}
    (hok : gen ∈ d.underway → d.first gen = some .resolved) (hvalid : d.invalidated gen = false) :
    d.first gen ≠ some .superseded := by
  intro hsuperseded
  rcases hd.superseded gen hsuperseded with hin | hinvalid
  · exact absurd (hsuperseded.symm.trans (hok hin)) (by simp)
  · exact absurd (hinvalid.symm.trans hvalid) (by simp)

theorem touches_resolve {d : Registry} (hd : RegistryOk d) {gen : GenId} (p : Payload)
    (hcreated : d.created gen = true) (hok : gen ∈ d.underway → d.first gen = some .resolved) :
    TouchesOnly gen d (resolveGenerationFuture gen p d) := by
  have hgrows := resolve_grows gen p d
  refine ⟨hgrows, ?_, rfl, rfl, rfl, rfl, ?_, hd.future_lt gen, ?_, ?_, hcreated⟩
  · intro g hg
    exact ⟨resolve_sameAt hd p hg, Function.update_of_ne hg _ _⟩
  · intro hfirst
    simp only [resolveGenerationFuture, Function.update_self] at hfirst
    cases hcase : d.first gen with
    | none => simp [hcase] at hfirst
    | some x => simpa [hcase] using hfirst
  · intro fut g hg hfut hfut'
    exact hg (hd.future_inj g gen fut hfut' hfut)
  · intro fut hvalid hfut
    have hright := resolve_right p (not_superseded hd hok hvalid)
    have hstate := hd.future_state gen fut hvalid hfut
    rw [resolve_heap]
    split_ifs with hpending
    · exact ⟨p, rfl, hright⟩
    · cases hheap : d.heap fut with
      | pending => exact absurd ⟨hfut, hheap⟩ hpending
      | done r =>
        rw [hheap] at hstate
        obtain ⟨q, rfl, hq⟩ := hstate
        exact ⟨q, rfl, hq.grows hgrows⟩
      | cancelled => exact trivial

/-- A waiter that holds the registered future is woken. -/
theorem Held.resolve {d : Registry} (hd : RegistryOk d) {gen : GenId} {fut : FutId} (p : Payload)
    (hlt : fut < d.nextFut) (hok : gen ∈ d.underway → d.first gen = some .resolved)
    (h : Held d gen fut) : Held (resolveGenerationFuture gen p d) gen fut := by
  have hgrows := resolve_grows gen p d
  left
  rcases h with ⟨r, hdone, hright⟩ | ⟨hpending, hfut, hvalid⟩
  · exact ⟨r, hgrows.done fut hlt r hdone, hright.grows hgrows⟩
  · refine ⟨.payload p, ?_, resolve_right p (not_superseded hd hok hvalid)⟩
    rw [resolve_heap, if_pos ⟨hfut, hpending⟩]

/-- A waiter that has not come yet finds the completed future, or the cached payload. -/
theorem Registered.resolve {d : Registry} (hd : RegistryOk d) {gen : GenId} (p : Payload)
    (hvalid : d.invalidated gen = false) (hok : gen ∈ d.underway → d.first gen = some .resolved)
    (h : Registered d gen) : Registered (resolveGenerationFuture gen p d) gen := by
  have hgrows := resolve_grows gen p d
  obtain ⟨⟨fut, hfut, hcancelled⟩, hcached⟩ := h
  refine ⟨⟨fut, hfut, ?_⟩, fun q hq => ?_⟩
  · rw [resolve_heap]
    split_ifs
    · simp
    · exact hcancelled
  · rcases resolve_results d gen p with hres | hres
    · exact (hcached q ((congrFun hres gen).symm.trans hq)).grows hgrows
    · obtain rfl : p = q := by simpa [hres] using hq
      exact resolve_right p (not_superseded hd hok hvalid)

theorem establishes_resolve {d : Registry} (hd : RegistryOk d) {gen : GenId} (p : Payload)
    (hcreated : d.created gen = true) (hok : gen ∈ d.underway → d.first gen = some .resolved) :
    TaskSystem.Establishes RegistryOk TaskOk Apart d (resolveGenerationFuture gen p d)
      (.resolving gen p) [] := by
  have hgrows := resolve_grows gen p d
  have hborn : gen < d.nextGen := by
    by_contra hle
    exact absurd (hcreated.symm.trans (hd.unborn gen (not_lt.mp hle)).1) (by simp)
  refine ⟨hd.touches (touches_resolve hd p hcreated hok) hborn, by simp, List.Pairwise.nil,
    fun u hu _ => ⟨?_, by simp⟩⟩
  by_cases howner : u.owner = some gen
  · cases u with
    | invalidating g old =>
      obtain rfl := Option.some.inj howner
      exact absurd (hcreated.symm.trans hu.2.1) (by simp)
    | creating g =>
      obtain rfl := Option.some.inj howner
      exact absurd (hcreated.symm.trans hu.2) (by simp)
    | returned g =>
      obtain rfl := Option.some.inj howner
      exact ⟨hu.1, fun hvalid => (hu.2 hvalid).resolve hd p hvalid hok⟩
    | waiting g fut =>
      obtain rfl := Option.some.inj howner
      exact ⟨hu.1, hu.2.1, hu.2.2.resolve hd p hu.2.1 hok⟩
    | cleaning g reply => exact ⟨hu.1, fun r hr => (hu.2 r hr).grows hgrows⟩
    | _ => exact absurd howner (by simp [FutureTask.owner])
  · refine hu.grows hgrows (fun g hg => resolve_sameAt hd p ?_) fun g hg => hu.obsoletes_mem hg
    rintro rfl
    exact howner hg

/-! ### The run -/

/-- Every step in order keeps the invariant and what the other tasks rely on. -/
theorem advance_establishes {d d' : Registry} {t : FutureTask} {i : FutureInput}
    {ts : List FutureTask} (hd : RegistryOk d) (ht : TaskOk d t) (hok : InOrder d t i)
    (h : futureAdvance d t i = some (d', ts)) :
    TaskSystem.Establishes RegistryOk TaskOk Apart d d' t ts := by
  cases t with
  | enqueue =>
    cases i <;> simp only [futureAdvance, Option.some.injEq, Prod.mk.injEq, reduceCtorEq] at h
    obtain ⟨rfl, rfl⟩ := h
    exact establishes_single hd trivial (.inr rfl) rfl others_of_same
  | storing old =>
    cases i <;> simp only [futureAdvance, Option.some.injEq, Prod.mk.injEq, reduceCtorEq] at h
    obtain ⟨rfl, rfl⟩ := h
    obtain rfl : d.generation = old := hok
    exact establishes_store hd
  | invalidating gen old =>
    cases i <;> simp only [futureAdvance, Option.some.injEq, Prod.mk.injEq, reduceCtorEq] at h
    obtain ⟨rfl, rfl⟩ := h
    exact establishes_invalidate hd ht
  | creating gen =>
    cases i <;> simp only [futureAdvance, Option.some.injEq, Prod.mk.injEq, reduceCtorEq] at h
    obtain ⟨rfl, rfl⟩ := h
    exact establishes_create hd ht
  | returned gen =>
    cases i <;> simp only [futureAdvance, Option.some.injEq, Prod.mk.injEq, reduceCtorEq] at h
    obtain ⟨rfl, rfl⟩ := h
    exact establishes_take hd ht hok
  | waiting gen fut =>
    cases i with
    | next =>
      simp only [futureAdvance] at h
      split at h
      · next r hdone =>
        simp only [Option.some.injEq, Prod.mk.injEq] at h
        obtain ⟨rfl, rfl⟩ := h
        refine establishes_single hd ⟨ht.1, fun r' hr' => ?_⟩ (.inl rfl) rfl others_of_same
        obtain rfl := Option.some.inj hr'
        rcases ht.2.2 with ⟨r'', hdone', hright⟩ | ⟨hpending, -⟩
        · obtain rfl : r'' = r := by simpa using hdone'.symm.trans hdone
          exact hright
        · exact absurd (hpending.symm.trans hdone) (by simp)
      · simp at h
    | timeout =>
      simp only [futureAdvance] at h
      split_ifs at h with hpending
      simp only [Option.some.injEq, Prod.mk.injEq] at h
      obtain ⟨rfl, rfl⟩ := h
      exact establishes_timeout hd ht hpending
    | _ => simp [futureAdvance] at h
  | cleaning gen reply =>
    cases i <;> simp only [futureAdvance, Option.some.injEq, Prod.mk.injEq, reduceCtorEq] at h
    obtain ⟨rfl, rfl⟩ := h
    exact establishes_clean hd ht
  | received gen reply => cases i <;> simp [futureAdvance] at h
  | resolving gen p =>
    cases i <;> simp only [futureAdvance, Option.some.injEq, Prod.mk.injEq, reduceCtorEq] at h
    obtain ⟨rfl, rfl⟩ := h
    exact establishes_resolve hd p hok.1 hok.2

theorem registryOk_initial {d : Registry} (h : d.Empty) : RegistryOk d := by
  obtain ⟨hgeneration, hunderway, hempty⟩ := h
  refine ⟨?_, ?_, ?_, ?_, ?_, ?_, ?_, ?_, ?_⟩ <;> simp [hgeneration, hunderway, hempty]

theorem futureAccept_cases {i : FutureInput} {ts : List FutureTask} (h : futureAccept i = some ts) :
    ts = [.enqueue] ∨ ∃ gen p, ts = [.resolving gen p] := by
  cases i with
  | enqueue => exact .inl (Option.some.inj h).symm
  | resolve gen p => exact .inr ⟨gen, p, (Option.some.inj h).symm⟩
  | _ => simp [futureAccept] at h

theorem getOrCreate_underway (gen : GenId) (d : Registry) :
    (getOrCreateBundleFuture gen d).1.underway = d.underway := by
  unfold getOrCreateBundleFuture
  cases d.results gen with
  | some p => rfl
  | none => cases d.futures gen <;> rfl

theorem advance_underway {d d' : Registry} {t : FutureTask} {i : FutureInput}
    {ts : List FutureTask} {rest : List GenId} (h : futureAdvance d t i = some (d', ts))
    (hperm : d.underway.Perm (t.obsoletes.toList ++ rest)) :
    d'.underway.Perm (ts.filterMap FutureTask.obsoletes ++ rest) := by
  cases t with
  | storing old =>
    cases i <;> simp only [futureAdvance, Option.some.injEq, Prod.mk.injEq, reduceCtorEq] at h
    obtain ⟨rfl, rfl⟩ := h
    cases old with
    | none => exact hperm
    | some gen => exact hperm.cons gen
  | invalidating gen old =>
    cases i <;> simp only [futureAdvance, Option.some.injEq, Prod.mk.injEq, reduceCtorEq] at h
    obtain ⟨rfl, rfl⟩ := h
    cases old with
    | none => exact hperm
    | some g =>
      have hcons : d.underway.Perm (g :: rest) := hperm
      have herased := hcons.erase g
      rw [List.erase_cons_head] at herased
      exact herased
  | creating gen =>
    cases i <;> simp only [futureAdvance, Option.some.injEq, Prod.mk.injEq, reduceCtorEq] at h
    obtain ⟨rfl, rfl⟩ := h
    rw [← getOrCreate_underway gen d] at hperm
    exact hperm
  | returned gen =>
    cases i <;> simp only [futureAdvance, Option.some.injEq, Prod.mk.injEq, reduceCtorEq] at h
    obtain ⟨rfl, rfl⟩ := h
    rw [← getOrCreate_underway gen d] at hperm
    exact hperm
  | waiting gen fut =>
    cases i with
    | next =>
      simp only [futureAdvance] at h
      split at h
      · simp only [Option.some.injEq, Prod.mk.injEq] at h
        obtain ⟨rfl, rfl⟩ := h
        exact hperm
      · simp at h
    | timeout =>
      simp only [futureAdvance] at h
      split_ifs at h
      simp only [Option.some.injEq, Prod.mk.injEq] at h
      obtain ⟨rfl, rfl⟩ := h
      exact hperm
    | _ => simp [futureAdvance] at h
  | received gen reply => cases i <;> simp [futureAdvance] at h
  | _ =>
    cases i <;> simp only [futureAdvance, Option.some.injEq, Prod.mk.injEq, reduceCtorEq] at h
    obtain ⟨rfl, rfl⟩ := h
    exact hperm

/-- The generations under way are those that some task is about to invalidate. -/
theorem underway_perm {w : World Registry FutureTask} (hw : futureSystem.machine.Reachable w) :
    w.data.underway.Perm (w.tasks.filterMap FutureTask.obsoletes) := by
  refine TaskSystem.reachable_log (S := futureSystem) FutureTask.obsoletes
    Registry.underway (fun d h => h.2.1) ?_ ?_ hw
  · intro d i ts hts
    rcases futureAccept_cases hts with rfl | ⟨gen, p, rfl⟩ <;> rfl
  · intro d t i d' ts rest h hperm
    exact advance_underway h hperm

/-- A waiter that meets its assertion is served. -/
theorem served_of_taskOk {w : World Registry FutureTask} (hd : RegistryOk w.data)
    (hunderway : w.data.underway.Perm (w.tasks.filterMap FutureTask.obsoletes)) {t : FutureTask}
    (ht : TaskOk w.data t) : Served w t := by
  cases t with
  | waiting gen fut =>
    rcases ht.2.2 with ⟨r, hdone, hright⟩ | ⟨hpending, hfut, hvalid⟩
    · exact .inl ⟨r, hdone, hright⟩
    · refine .inr ⟨hpending, hfut, ?_⟩
      have hstate := hd.future_state gen fut hvalid hfut
      rw [hpending] at hstate
      cases hfirst : w.data.first gen with
      | none => exact .inl rfl
      | some x =>
        cases x with
        | resolved => exact absurd hfirst hstate
        | superseded =>
          have hin : gen ∈ w.data.underway := by
            refine (hd.superseded gen hfirst).resolve_right ?_
            simp [hvalid]
          obtain ⟨u, hu, hold⟩ := List.mem_filterMap.mp (hunderway.mem_iff.mp hin)
          cases u with
          | invalidating gen' old =>
            obtain rfl : old = some gen := hold
            exact .inr ⟨rfl, gen', hu⟩
          | _ => simp [FutureTask.obsoletes] at hold
  | received gen reply =>
    cases reply with
    | none => exact trivial
    | some r => exact ht r rfl
  | _ => exact trivial

/-- In order, no wake-up is lost: every waiter has received the right reply, or holds a future that
is completed with it or that what happens next to its generation completes. -/
theorem no_lost_wakeup (w : World Registry FutureTask)
    (h : futureSystem.machine.ReachableUnder (TaskSystem.guard InOrder) w) :
    ∀ t ∈ w.tasks, Served w t := by
  have hholds := TaskSystem.reachableUnder_holds (S := futureSystem) (G := RegistryOk) (T := TaskOk)
    (R := Apart) (fun _ _ => Apart.symm) (fun d => registryOk_initial)
    (fun d i ts _ hts => ?_) (fun d t i d' ts hd ht hok => advance_establishes hd ht hok) h
  · intro t ht
    exact served_of_taskOk hholds.data (underway_perm h.reachable) (hholds.tasks t ht)
  · rcases futureAccept_cases hts with rfl | ⟨gen, p, rfl⟩
    · refine ⟨by simp [TaskOk], List.pairwise_singleton _ _, ?_⟩
      intro u t ht
      obtain rfl := List.mem_singleton.mp ht
      exact ⟨by simp [FutureTask.owner], by simp [FutureTask.obsoletes]⟩
    · refine ⟨by simp [TaskOk], List.pairwise_singleton _ _, ?_⟩
      intro u t ht
      obtain rfl := List.mem_singleton.mp ht
      exact ⟨by simp [FutureTask.owner], by simp [FutureTask.obsoletes]⟩

/-- A process that has just started. -/
def emptyRegistry : World Registry FutureTask :=
  ⟨⟨none, 0, fun _ => none, fun _ => none, fun _ => .pending, 0, fun _ => none, fun _ => [],
    fun _ => false, fun _ => false, []⟩, []⟩

theorem emptyRegistry_start : futureSystem.machine.start emptyRegistry :=
  ⟨⟨rfl, rfl, fun _ => ⟨rfl, rfl, rfl, rfl, rfl⟩⟩, rfl⟩

/-- An enqueue, its waiter, the resolution of its generation, and the waiter's return. -/
def answeredWaiter : World Registry FutureTask :=
  futureSystem.machine.after emptyRegistry
    [.request .enqueue, .task 0 .next, .task 0 .next, .task 0 .next, .task 0 .next, .task 0 .next,
      .request (.resolve 0 7), .task 1 .next, .task 0 .next, .task 0 .next]

theorem no_lost_wakeup_answered :
    answeredWaiter.tasks = [.received 0 (some (.payload 7))] ∧
      ∀ t ∈ answeredWaiter.tasks, Served answeredWaiter t :=
  ⟨by decide,
    no_lost_wakeup answeredWaiter
      (Machine.reachableUnder_after emptyRegistry_start (by decide) (by decide))⟩

/-- A second enqueue replaces and invalidates the generation of the first before the response of the
first is streamed; its waiter then makes a new future. -/
def lateWaiter : World Registry FutureTask :=
  futureSystem.machine.after emptyRegistry
    [.request .enqueue, .task 0 .next, .task 0 .next, .task 0 .next, .task 0 .next,
      .request .enqueue, .task 1 .next, .task 1 .next, .task 1 .next, .task 1 .next, .task 0 .next]

/-- The late waiter waits for a future nobody is going to complete. -/
theorem late_waiter_lost :
    futureSystem.machine.Reachable lateWaiter ∧
      lateWaiter.tasks = [.returned 1, .waiting 0 2] ∧
      lateWaiter.data.first 0 = some .superseded ∧ lateWaiter.data.heap 2 = .pending ∧
      ¬ ∀ t ∈ lateWaiter.tasks, Served lateWaiter t := by
  have htasks : lateWaiter.tasks = [.returned 1, .waiting 0 2] := by decide
  have hfirst : lateWaiter.data.first 0 = some .superseded := by decide
  have hpending : lateWaiter.data.heap 2 = .pending := by decide
  refine ⟨Machine.reachable_after emptyRegistry_start (by decide), htasks, hfirst, hpending,
    fun hserved => ?_⟩
  have hwaiting := hserved (.waiting 0 2) (by simp [htasks])
  rcases hwaiting with ⟨r, hdone, -⟩ | ⟨-, -, hnone | ⟨-, gen', hin⟩⟩
  · exact absurd (hpending.symm.trans hdone) (by simp)
  · exact absurd (hfirst.symm.trans hnone) (by simp)
  · rw [htasks] at hin
    simp at hin

end CompanionBackend.GenerationFutures
