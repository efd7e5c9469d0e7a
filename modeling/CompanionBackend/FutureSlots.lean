import CompanionBackend.TaskSystems
import CompanionBackend.CapabilityRules

/-!
# The future slot of a relationship

A relationship has one slot for a planned action. The memory step overwrites it, a scan reads
a plan that is due and has a message generated from it, and the slot is cleared
afterwards, whatever it holds by then. The slot of one user is modelled; the texts of
messages, the history of changes and the other columns are left out.
-/
namespace CompanionBackend.FutureSlots

open ProviderEvents TaskSystems
open CapabilityRules (nonBlank)

/-- A value of the slot. The number of its write tells equal values apart. -/
structure Plan where
  id : ℕ
  timestamp : ℤ
  action : Option Text
  deriving DecidableEq, Repr

/-- `FUTURE_EXPIRE_WINDOW_SECONDS`. -/
def expireWindow : ℤ := 1800

/-- Due, and not longer ago than the window. -/
def Plan.due (p : Plan) (now : ℤ) : Prop := p.timestamp ≤ now ∧ now - expireWindow < p.timestamp

instance (p : Plan) (now : ℤ) : Decidable (p.due now) :=
  inferInstanceAs (Decidable (p.timestamp ≤ now ∧ now - expireWindow < p.timestamp))

/-- A value that was taken out of the slot, and the one it was meant to be. -/
structure Erasure where
  meant : Plan
  found : Option Plan
  deriving DecidableEq, Repr

structure FutureData where
  slot : Option Plan
  proactiveTimes : ℤ
  agentCount : ℕ
  nextId : ℕ
  /-- The plans from which a message was delivered, once for each message. -/
  delivered : List ℕ
  erased : List Erasure
  /-- The plans some consumption is at work on. The code keeps no such record. -/
  inProgress : List ℕ

/-- What Step6 makes of the slot: a timestamp and an action, or nothing. -/
abbrev SlotWrite := Option (ℤ × Option Text)

/-- An operation between two of its awaits. -/
inductive FutureTask
  | step6 (write : SlotWrite)
  | scanning
  | found (p : Plan)
  /-- Not on the blacklist; the score is next. -/
  | listed (p : Plan)
  | generating (p : Plan)
  | delivered (p : Plan)
  | finishing (p : Plan)
  | finished (p : Plan) (loaded : Option Plan) (times : ℤ)
  | counting
  | clearing (p : Plan)
  | cleared (p : Plan) (loaded : Option Plan)
  | cleaning
  | cleaned (p : Plan)
  deriving DecidableEq, Repr

namespace FutureTask

/-- The plan a consumption is at work on. -/
def plan : FutureTask → Option Plan
  | .found p | .listed p | .generating p | .delivered p | .finishing p | .finished p _ _
  | .clearing p | .cleared p _ => some p
  | _ => none

end FutureTask

/-- What happens outside: a check passes or not, and the reply may bring the next plan. -/
inductive Outcome
  | passed
  | refused
  | planned (timestamp : ℤ) (action : Text)
  deriving DecidableEq, Repr

inductive FutureInput
  | step6 (write : SlotWrite)
  | scan
  | cleanup
  | proceed (now : ℤ) (outcome : Outcome)
  /-- The operation ends here. -/
  | abort

namespace FutureData

def write (d : FutureData) (w : SlotWrite) : FutureData :=
  match w with
  | some (timestamp, action) =>
    { d with slot := some ⟨d.nextId, timestamp, action⟩, nextId := d.nextId + 1 }
  | none => { d with slot := none }

/-- `rel.future_timestamp = None`: the columns are written where they were loaded with a value. -/
def erase (d : FutureData) (meant : Plan) (loaded : Option Plan) : FutureData :=
  if loaded.isSome then { d with slot := none, erased := d.erased ++ [⟨meant, d.slot⟩] } else d

/-- The consumption of the plan is over. -/
def concluded (d : FutureData) (t : FutureTask) : FutureData :=
  match t.plan with
  | some p => { d with inProgress := d.inProgress.erase p.id }
  | none => d

/-- `proactive_times += 1`, up to three. -/
def raised (times : ℤ) : ℤ := if times < 3 then times + 1 else times

/-- The next plan that the decay gate lets through. -/
def decayGate (d : FutureData) (outcome : Outcome) : FutureData :=
  let d := { d with proactiveTimes := raised d.proactiveTimes }
  match outcome with
  | .planned timestamp action => d.write (some (timestamp, some action))
  | _ => d

/-- What the operation does up to its next await. -/
def proceed (d : FutureData) (t : FutureTask) (now : ℤ) (outcome : Outcome) :
    FutureData × List FutureTask :=
  match t with
  | .step6 w => (d.write w, [])
  | .scanning =>
    match d.slot with
    | some p =>
      if p.due now ∧ outcome ≠ .refused then
        ({ d with inProgress := p.id :: d.inProgress }, [.found p])
      else (d, [])
    | none => (d, [])
  | .found p => (d, [if outcome = .refused then .clearing p else .listed p])
  | .listed p => (d, [if outcome = .refused then .clearing p else .generating p])
  | .generating p =>
    if outcome = .refused ∨ (p.action.any nonBlank) = false then (d, [.clearing p])
    else ({ d with delivered := d.delivered ++ [p.id] }, [.delivered p])
  | .delivered p => (d.decayGate outcome, [.finishing p])
  | .finishing p =>
    if outcome = .refused then (d.concluded t, [.counting])
    else (d, [.finished p d.slot d.proactiveTimes])
  | .finished p loaded times =>
    if outcome = .refused then (d.concluded t, [.counting])
    else
      let d := d.erase p loaded
      (({ d with proactiveTimes := raised times }).concluded t, [.counting])
  | .counting => ({ d with agentCount := d.agentCount + 1 }, [])
  | .clearing p =>
    if outcome = .refused then (d.concluded t, []) else (d, [.cleared p d.slot])
  | .cleared p loaded =>
    if outcome = .refused then (d.concluded t, []) else ((d.erase p loaded).concluded t, [])
  | .cleaning =>
    match d.slot with
    | some p => if p.timestamp ≤ now - expireWindow then (d, [.cleaned p]) else (d, [])
    | none => (d, [])
  | .cleaned p => if outcome = .refused then (d, []) else (d.erase p (some p), [])

end FutureData

/-- Everything that reads or writes the slot of one user. -/
def futureSystem : TaskSystem FutureData FutureTask FutureInput where
  initial d := d.slot = none ∧ d.delivered = [] ∧ d.erased = [] ∧ d.inProgress = []
  accept _ i :=
    match i with
    | .step6 w => some [.step6 w]
    | .scan => some [.scanning]
    | .cleanup => some [.cleaning]
    | _ => none
  advance d t i :=
    match i with
    | .proceed now outcome => some (d.proceed t now outcome)
    | .abort => some (d.concluded t, [])
    | _ => none

end CompanionBackend.FutureSlots

/-!
## When a plan fires once and is not lost

The slot is cleared without a look at what it holds, and nothing marks a plan that is being
consumed. In runs where a scan takes no plan that is being consumed, a consumption that has
delivered its message goes on to clear the slot, and a clear finds the plan it is
meant for or nothing, every plan fires at most once and no other plan is erased.
-/
namespace CompanionBackend.FutureSlots

open Runs TaskSystems ProviderEvents

/-- Every plan brings at most one message, and only the plan that was meant is erased. -/
structure FutureSound (d : FutureData) : Prop where
  once : d.delivered.Nodup
  kept : ∀ e ∈ d.erased, ∀ q ∈ e.found, q = e.meant

/-- The slot holds this plan or nothing. -/
def HoldsOnly (d : FutureData) (p : Plan) : Prop := ∀ q ∈ d.slot, q = p

instance (d : FutureData) (p : Plan) : Decidable (HoldsOnly d p) :=
  match h : d.slot with
  | none => isTrue (by simp [HoldsOnly, h])
  | some q => decidable_of_iff (q = p) (by simp [HoldsOnly, h])

/-- No scan takes a plan twice. -/
def Untaken (d : FutureData) : Prop := ∀ p ∈ d.slot, p.id ∉ d.inProgress

instance (d : FutureData) : Decidable (Untaken d) :=
  match h : d.slot with
  | none => isTrue (by simp [Untaken, h])
  | some p => decidable_of_iff (p.id ∉ d.inProgress) (by simp [Untaken, h])

def Careful (d : FutureData) (t : FutureTask) : FutureInput → Prop
  | .proceed _ outcome =>
    match t with
    | .scanning => Untaken d
    | .finishing _ => outcome ≠ .refused
    | .finished p loaded _ => outcome ≠ .refused ∧ (loaded.isSome = true → HoldsOnly d p)
    | .cleared p loaded => loaded.isSome = true → HoldsOnly d p
    | .cleaned p => HoldsOnly d p
    | _ => True
  | .abort =>
    match t with
    | .delivered _ | .finishing _ | .finished _ _ _ => False
    | _ => True
  | _ => True

instance decidableCareful (d : FutureData) (t : FutureTask) (i : FutureInput) :
    Decidable (Careful d t i) :=
  match i with
  | .step6 _ | .scan | .cleanup => isTrue trivial
  | .proceed _ outcome =>
    match t with
    | .scanning => inferInstanceAs (Decidable (Untaken d))
    | .finishing _ => inferInstanceAs (Decidable (outcome ≠ .refused))
    | .finished p loaded _ => inferInstanceAs (Decidable (outcome ≠ .refused ∧
        (loaded.isSome = true → HoldsOnly d p)))
    | .cleared p loaded => inferInstanceAs (Decidable (loaded.isSome = true → HoldsOnly d p))
    | .cleaned p => inferInstanceAs (Decidable (HoldsOnly d p))
    | .step6 _ | .found _ | .listed _ | .generating _ | .delivered _ | .counting | .clearing _
    | .cleaning => isTrue trivial
  | .abort =>
    match t with
    | .delivered _ | .finishing _ | .finished _ _ _ => isFalse id
    | .step6 _ | .scanning | .found _ | .listed _ | .generating _ | .counting | .clearing _
    | .cleared _ _ | .cleaning | .cleaned _ => isTrue trivial

/-! ### What operations rely on -/

/-- The message of the plan has been delivered. -/
def FutureTask.fired : FutureTask → Bool
  | .delivered _ | .finishing _ | .finished _ _ _ => true
  | _ => false

/-- The plan the slot no longer held when it was loaded for clearing. -/
def FutureTask.gone : FutureTask → Option Plan
  | .finished p none _ => some p
  | _ => none

theorem plan_of_gone {t : FutureTask} {p : Plan} (h : t.gone = some p) : t.plan = some p := by
  cases t with
  | finished q loaded times =>
    cases loaded with
    | none => exact h
    | some r => simp [FutureTask.gone] at h
  | _ => simp [FutureTask.gone] at h

/-- The slot holds the plan with this id. -/
def Present (d : FutureData) (id : ℕ) : Prop := ∃ p, d.slot = some p ∧ p.id = id

/-- Between two steps: what has fired is no longer in the slot, or is being consumed. -/
structure Ordered (d : FutureData) : Prop where
  sound : FutureSound d
  fired : ∀ id ∈ d.delivered, Present d id → id ∈ d.inProgress
  freshSlot : ∀ p ∈ d.slot, p.id < d.nextId
  freshFired : ∀ id ∈ d.delivered, id < d.nextId

/-- What a consumption knows of its plan. -/
structure Consuming (d : FutureData) (t : FutureTask) (p : Plan) : Prop where
  taken : p.id ∈ d.inProgress
  fresh : p.id < d.nextId
  unfired : t.fired = false → p.id ∉ d.delivered

structure Relies (d : FutureData) (t : FutureTask) : Prop where
  plan : ∀ p, t.plan = some p → Consuming d t p
  gone : ∀ p, t.gone = some p → ¬Present d p.id

/-- Two consumptions are at work on different plans. -/
def Apart (t u : FutureTask) : Prop :=
  ∀ p q, t.plan = some p → u.plan = some q → p.id ≠ q.id

theorem apart_symm (t u : FutureTask) (h : Apart t u) : Apart u t :=
  fun p q hp hq => (h q p hq hp).symm

/-- A step that neither delivers, takes, ends nor writes a plan. -/
structure Leaves (d d' : FutureData) : Prop where
  delivered : d'.delivered = d.delivered
  inProgress : d'.inProgress = d.inProgress
  nextId : d.nextId ≤ d'.nextId
  /-- A plan found afterwards was there before or is new. -/
  slot : ∀ p, d'.slot = some p → d.slot = some p ∨ d.nextId ≤ p.id ∧ p.id < d'.nextId

theorem Leaves.present {d d' : FutureData} (h : Leaves d d') {id : ℕ} (hid : id < d.nextId)
    (hpresent : Present d' id) : Present d id := by
  obtain ⟨p, hp, rfl⟩ := hpresent
  rcases h.slot p hp with hold | ⟨hnew, -⟩
  · exact ⟨p, hold, rfl⟩
  · omega

theorem Leaves.relies {d d' : FutureData} (h : Leaves d d') {u : FutureTask} (hu : Relies d u) :
    Relies d' u := by
  refine ⟨fun p hp => ?_, fun p hp hpresent => ?_⟩
  · have hc := hu.plan p hp
    exact ⟨h.inProgress ▸ hc.taken, hc.fresh.trans_le h.nextId,
      fun hunfired => h.delivered ▸ hc.unfired hunfired⟩
  · exact hu.gone p hp (h.present (hu.plan p (plan_of_gone hp)).fresh hpresent)

theorem Leaves.ordered {d d' : FutureData} (h : Leaves d d') (hd : Ordered d)
    (hkept : ∀ e ∈ d'.erased, ∀ q ∈ e.found, q = e.meant) : Ordered d' := by
  refine ⟨⟨h.delivered ▸ hd.sound.once, hkept⟩, fun id hid hpresent => ?_, fun p hp => ?_,
    fun id hid => ?_⟩
  · rw [h.delivered] at hid
    rw [h.inProgress]
    exact hd.fired id hid (h.present (hd.freshFired id hid) hpresent)
  · rcases h.slot p hp with hold | ⟨-, hnew⟩
    · exact (hd.freshSlot p hold).trans_le h.nextId
    · exact hnew
  · rw [h.delivered] at hid
    exact (hd.freshFired id hid).trans_le h.nextId

theorem leaves_refl (d : FutureData) : Leaves d d := ⟨rfl, rfl, le_rfl, fun _ hp => .inl hp⟩

theorem leaves_write (d : FutureData) (w : SlotWrite) : Leaves d (d.write w) := by
  cases w with
  | none => exact ⟨rfl, rfl, le_rfl, fun p hp => by simp [FutureData.write] at hp⟩
  | some value =>
    refine ⟨rfl, rfl, Nat.le_succ _, fun p hp => .inr ?_⟩
    obtain rfl := Option.some.inj hp
    exact ⟨le_rfl, Nat.lt_succ_self _⟩

theorem leaves_erase (d : FutureData) (p : Plan) (loaded : Option Plan) :
    Leaves d (d.erase p loaded) := by
  unfold FutureData.erase
  split_ifs
  · exact ⟨rfl, rfl, le_rfl, fun q hq => by simp at hq⟩
  · exact leaves_refl d

theorem leaves_decayGate (d : FutureData) (outcome : Outcome) : Leaves d (d.decayGate outcome) := by
  cases outcome with
  | planned timestamp action =>
    have h := leaves_write { d with proactiveTimes := FutureData.raised d.proactiveTimes }
      (some (timestamp, some action))
    exact ⟨h.delivered, h.inProgress, h.nextId, h.slot⟩
  | _ => exact ⟨rfl, rfl, le_rfl, fun p hp => .inl hp⟩

theorem erased_write (d : FutureData) (w : SlotWrite) : (d.write w).erased = d.erased := by
  cases w <;> rfl

theorem erased_decayGate (d : FutureData) (outcome : Outcome) :
    (d.decayGate outcome).erased = d.erased := by
  cases outcome <;> rfl

/-- A clear that finds its plan or nothing erases nothing else. -/
theorem kept_erase {d : FutureData} {p : Plan} {loaded : Option Plan} (hd : Ordered d)
    (hholds : loaded.isSome = true → HoldsOnly d p) :
    ∀ e ∈ (d.erase p loaded).erased, ∀ q ∈ e.found, q = e.meant := by
  unfold FutureData.erase
  split_ifs with hloaded
  · intro e he q hq
    rcases List.mem_append.mp he with hold | hnew
    · exact hd.sound.kept e hold q hq
    · obtain rfl := List.mem_singleton.mp hnew
      exact hholds hloaded q hq
  · exact hd.sound.kept

/-! ### Steps -/

theorem relies_of_no_plan {d : FutureData} {t : FutureTask} (h : t.plan = none) : Relies d t := by
  refine ⟨fun p hp => ?_, fun p hp => ?_⟩
  · simp [h] at hp
  · simp [plan_of_gone hp] at h

abbrev Keeps (d d' : FutureData) (t : FutureTask) (ts : List FutureTask) : Prop :=
  TaskSystem.Establishes Ordered Relies Apart d d' t ts

theorem apart_of_plan {u t t' : FutureTask} (h : Apart t u)
    (hplan : ∀ p, t'.plan = some p → t.plan = some p) : Apart u t' :=
  fun p q hp hq => (h q p (hplan q hq) hp).symm

/-- The operation goes on with its plan, or without one. -/
theorem keeps_going {d d' : FutureData} {t t' : FutureTask} (h : Leaves d d') (hd : Ordered d)
    (hkept : ∀ e ∈ d'.erased, ∀ q ∈ e.found, q = e.meant)
    (hplan : ∀ p, t'.plan = some p → t.plan = some p) (ht' : Relies d' t') :
    Keeps d d' t [t'] where
  data := h.ordered hd hkept
  tasks := by simpa using ht'
  pairwise := by simp
  others u hu happart := ⟨h.relies hu, by simpa using apart_of_plan happart hplan⟩

theorem keeps_nothing {d d' : FutureData} {t : FutureTask} (h : Leaves d d') (hd : Ordered d)
    (hkept : ∀ e ∈ d'.erased, ∀ q ∈ e.found, q = e.meant) : Keeps d d' t [] where
  data := h.ordered hd hkept
  tasks := by simp
  pairwise := by simp
  others u hu _ := ⟨h.relies hu, by simp⟩

theorem over_of_plan {d : FutureData} {t : FutureTask} {p : Plan} (h : t.plan = some p) :
    d.concluded t = { d with inProgress := d.inProgress.erase p.id } := by
  simp [FutureData.concluded, h]

theorem over_of_no_plan {d : FutureData} {t : FutureTask} (h : t.plan = none) : d.concluded t = d := by
  simp [FutureData.concluded, h]

/-- A consumption ends once its plan has not fired, or is no longer in the slot. -/
theorem keeps_over {d d' : FutureData} {t : FutureTask} {ts : List FutureTask} (h : Leaves d d')
    (hd : Ordered d) (ht : Relies d t)
    (hkept : ∀ e ∈ d'.erased, ∀ q ∈ e.found, q = e.meant)
    (hgone : ∀ p, t.plan = some p → t.fired = true → ¬Present d' p.id)
    (hts : ts = [] ∨ ts = [.counting]) : Keeps d (d'.concluded t) t ts := by
  have hnone : ∀ t' ∈ ts, t'.plan = none := by
    rcases hts with rfl | rfl <;> simp [FutureTask.plan]
  have hpairwise : ts.Pairwise Apart := by
    rcases hts with rfl | rfl <;> simp
  have hd' := h.ordered hd hkept
  cases hplan : t.plan with
  | none =>
    rw [over_of_no_plan hplan]
    exact ⟨hd', fun t' ht' => relies_of_no_plan (hnone t' ht'), hpairwise, fun u hu _ =>
      ⟨h.relies hu, fun t' ht' p q _ hq => by simp [hnone t' ht'] at hq⟩⟩
  | some p =>
    rw [over_of_plan hplan]
    have hc := (h.relies ht).plan p hplan
    refine ⟨⟨⟨hd'.sound.once, hkept⟩, fun id hid hpresent => ?_, hd'.freshSlot, hd'.freshFired⟩,
      fun t' ht' => relies_of_no_plan (hnone t' ht'), hpairwise, fun u hu happart =>
        ⟨⟨fun q hq => ?_, fun q hq => (h.relies hu).gone q hq⟩,
          fun t' ht' p' q _ hq => by simp [hnone t' ht'] at hq⟩⟩
    · have hne : id ≠ p.id := by
        rintro rfl
        cases hfired : t.fired with
        | true => exact hgone p hplan hfired hpresent
        | false => exact hc.unfired hfired hid
      exact (List.mem_erase_of_ne hne).mpr (hd'.fired id hid hpresent)
    · have hcq := (h.relies hu).plan q hq
      exact ⟨(List.mem_erase_of_ne (happart p q hplan hq).symm).mpr hcq.taken, hcq.fresh,
        hcq.unfired⟩

/-- A scan takes a plan that is due. -/
theorem keeps_taking {d : FutureData} {p : Plan} (hd : Ordered d) (hslot : d.slot = some p)
    (hfree : Untaken d) :
    Keeps d { d with inProgress := p.id :: d.inProgress } .scanning [.found p] := by
  have huntaken := hfree p hslot
  have hunfired : p.id ∉ d.delivered := fun hid => huntaken (hd.fired p.id hid ⟨p, hslot, rfl⟩)
  refine ⟨⟨⟨hd.sound.once, hd.sound.kept⟩, fun id hid hpresent =>
    List.mem_cons_of_mem _ (hd.fired id hid hpresent), hd.freshSlot, hd.freshFired⟩, fun t' ht' => ?_, by simp, fun u hu _ => ⟨⟨fun q hq => ?_,
      hu.gone⟩, fun t' ht' q r hq hr => ?_⟩⟩
  · obtain rfl := List.mem_singleton.mp ht'
    refine ⟨fun q hq => ?_, fun q hq => by simp [FutureTask.gone] at hq⟩
    obtain rfl := Option.some.inj hq
    exact ⟨List.mem_cons_self, hd.freshSlot p hslot, fun _ => hunfired⟩
  · have hc := hu.plan q hq
    exact ⟨List.mem_cons_of_mem _ hc.taken, hc.fresh, hc.unfired⟩
  · obtain rfl := List.mem_singleton.mp ht'
    obtain rfl := Option.some.inj hr
    intro heq
    exact huntaken (heq ▸ (hu.plan q hq).taken)

/-- A consumption delivers its message. -/
theorem keeps_delivering {d : FutureData} {p : Plan} (hd : Ordered d)
    (ht : Relies d (.generating p)) :
    Keeps d { d with delivered := d.delivered ++ [p.id] } (.generating p) [.delivered p] := by
  have hc := ht.plan p rfl
  have hunfired := hc.unfired rfl
  refine ⟨⟨⟨?_, hd.sound.kept⟩, fun id hid hpresent => ?_, hd.freshSlot, fun id hid => ?_⟩,
    fun t' ht' => ?_, by simp, fun u hu happart => ⟨⟨fun q hq => ?_, hu.gone⟩,
      fun t' ht' q r hq hr => ?_⟩⟩
  · refine hd.sound.once.append (by simp) ?_
    simpa using hunfired
  · rcases List.mem_append.mp hid with hold | hnew
    · exact hd.fired id hold hpresent
    · rw [List.mem_singleton.mp hnew]
      exact hc.taken
  · rcases List.mem_append.mp hid with hold | hnew
    · exact hd.freshFired id hold
    · rw [List.mem_singleton.mp hnew]
      exact hc.fresh
  · obtain rfl := List.mem_singleton.mp ht'
    refine ⟨fun q hq => ?_, fun q hq => by simp [FutureTask.gone] at hq⟩
    obtain rfl := Option.some.inj hq
    exact ⟨hc.taken, hc.fresh, by simp [FutureTask.fired]⟩
  · have hcq := hu.plan q hq
    refine ⟨hcq.taken, hcq.fresh, fun hfired hmem => ?_⟩
    rcases List.mem_append.mp hmem with hold | hnew
    · exact hcq.unfired hfired hold
    · exact happart p q rfl hq (List.mem_singleton.mp hnew).symm
  · obtain rfl := List.mem_singleton.mp ht'
    obtain rfl := Option.some.inj hr
    exact (happart _ q rfl hq).symm

/-- The next stage of the same consumption, which has not fired a plan it had not fired. -/
theorem relies_next {d d' : FutureData} {t t' : FutureTask} (h : Leaves d d') (ht : Relies d t)
    (hplan : ∀ p, t'.plan = some p → t.plan = some p)
    (hfired : t'.fired = false → t.fired = false)
    (hgone : ∀ p, t'.gone = some p → ¬Present d' p.id) : Relies d' t' := by
  refine ⟨fun p hp => ?_, hgone⟩
  have hc := (h.relies ht).plan p (hplan p hp)
  exact ⟨hc.taken, hc.fresh, fun hunfired => hc.unfired (hfired hunfired)⟩

theorem slot_erase {d : FutureData} {p : Plan} {loaded : Option Plan}
    (h : loaded.isSome = true) : (d.erase p loaded).slot = none := by
  simp [FutureData.erase, h]

theorem proceed_keeps {d : FutureData} {t : FutureTask} {now : ℤ} {outcome : Outcome}
    (hd : Ordered d) (ht : Relies d t) (hok : Careful d t (.proceed now outcome)) :
    Keeps d (d.proceed t now outcome).1 t (d.proceed t now outcome).2 := by
  have hsame := leaves_refl d
  have hkept := hd.sound.kept
  cases t with
  | step6 w =>
    rw [← erased_write d w] at hkept
    exact keeps_nothing (leaves_write d w) hd hkept
  | scanning =>
    simp only [FutureData.proceed]
    split
    · rename_i p hslot
      split_ifs with hdue
      · exact keeps_taking hd hslot hok
      · exact keeps_nothing hsame hd hkept
    · exact keeps_nothing hsame hd hkept
  | found p =>
    simp only [FutureData.proceed]
    split_ifs with hrefused <;>
      exact keeps_going hsame hd hkept (fun _ h => h)
        (relies_next hsame ht (fun _ h => h) (fun _ => rfl) (by simp [FutureTask.gone]))
  | listed p =>
    simp only [FutureData.proceed]
    split_ifs with hrefused <;>
      exact keeps_going hsame hd hkept (fun _ h => h)
        (relies_next hsame ht (fun _ h => h) (fun _ => rfl) (by simp [FutureTask.gone]))
  | generating p =>
    simp only [FutureData.proceed]
    split_ifs with hrefused
    · exact keeps_going hsame hd hkept (fun _ h => h)
        (relies_next hsame ht (fun _ h => h) (fun _ => rfl) (by simp [FutureTask.gone]))
    · exact keeps_delivering hd ht
  | delivered p =>
    have hleaves := leaves_decayGate d outcome
    rw [← erased_decayGate d outcome] at hkept
    exact keeps_going hleaves hd hkept (fun _ h => h)
      (relies_next hleaves ht (fun _ h => h) (fun h => h) (by simp [FutureTask.gone]))
  | finishing p =>
    simp only [FutureData.proceed, if_neg hok]
    refine keeps_going hsame hd hkept (fun _ h => h)
      (relies_next hsame ht (fun _ h => h) (fun h => h) fun q hq => ?_)
    cases hslot : d.slot with
    | none =>
      rintro ⟨r, hr, -⟩
      simp [hslot] at hr
    | some r => simp [FutureTask.gone, hslot] at hq
  | finished p loaded times =>
    obtain ⟨haccepted, hholds⟩ := hok
    simp only [FutureData.proceed, if_neg haccepted]
    have herase := leaves_erase d p loaded
    refine keeps_over (t := .finished p loaded times) ⟨herase.delivered, herase.inProgress, herase.nextId,
      herase.slot⟩ hd ht (kept_erase hd hholds) (fun q hq _ => ?_) (.inr rfl)
    obtain rfl := Option.some.inj hq
    cases loaded with
    | none =>
      have hgone := ht.gone p rfl
      simpa [FutureData.erase, Present] using hgone
    | some r =>
      rintro ⟨r', hr', -⟩
      change (d.erase p (some r)).slot = some r' at hr'
      simp [slot_erase] at hr'
  | counting => exact keeps_nothing ⟨rfl, rfl, le_rfl, fun _ hp => .inl hp⟩ hd hkept
  | clearing p =>
    simp only [FutureData.proceed]
    split_ifs with hrefused
    · exact keeps_over hsame hd ht hkept (by simp [FutureTask.fired]) (.inl rfl)
    · exact keeps_going hsame hd hkept (fun _ h => h)
        (relies_next hsame ht (fun _ h => h) (fun _ => rfl) (by simp [FutureTask.gone]))
  | cleared p loaded =>
    simp only [FutureData.proceed]
    split_ifs with hrefused
    · exact keeps_over hsame hd ht hkept (by simp [FutureTask.fired]) (.inl rfl)
    · exact keeps_over (leaves_erase d p loaded) hd ht (kept_erase hd hok)
        (by simp [FutureTask.fired]) (.inl rfl)
  | cleaning =>
    simp only [FutureData.proceed]
    split
    · split_ifs with hexpired
      · exact keeps_going hsame hd hkept (by simp [FutureTask.plan])
          (relies_of_no_plan rfl)
      · exact keeps_nothing hsame hd hkept
    · exact keeps_nothing hsame hd hkept
  | cleaned p =>
    simp only [FutureData.proceed]
    split_ifs with hrefused
    · exact keeps_nothing hsame hd hkept
    · exact keeps_nothing (leaves_erase d p (some p)) hd (kept_erase hd fun _ => hok)

theorem abort_keeps {d : FutureData} {t : FutureTask} (hd : Ordered d) (ht : Relies d t)
    (hok : Careful d t .abort) : Keeps d (d.concluded t) t [] := by
  refine keeps_over (leaves_refl d) hd ht hd.sound.kept (fun p hp hfired => ?_) (.inl rfl)
  cases t <;> first | exact absurd hok id | simp [FutureTask.fired] at hfired

theorem advance_keeps {d d' : FutureData} {t : FutureTask} {i : FutureInput}
    {ts : List FutureTask} (hd : Ordered d) (ht : Relies d t) (hok : Careful d t i)
    (h : futureSystem.advance d t i = some (d', ts)) : Keeps d d' t ts := by
  cases i with
  | proceed now outcome =>
    obtain ⟨rfl, rfl⟩ := Prod.mk.inj (Option.some.inj h)
    exact proceed_keeps hd ht hok
  | abort =>
    obtain ⟨rfl, rfl⟩ := Prod.mk.inj (Option.some.inj h)
    exact abort_keeps hd ht hok
  | step6 _ | scan | cleanup => simp [futureSystem] at h

theorem accept_relies {d : FutureData} {i : FutureInput} {ts : List FutureTask}
    (h : futureSystem.accept d i = some ts) :
    (∀ t ∈ ts, Relies d t) ∧ ts.Pairwise Apart ∧ ∀ u, ∀ t ∈ ts, Apart u t := by
  have hplan : ∀ t ∈ ts, t.plan = none := by
    cases i with
    | proceed now outcome => simp [futureSystem] at h
    | abort => simp [futureSystem] at h
    | _ =>
      obtain rfl := Option.some.inj h
      simp [FutureTask.plan]
  refine ⟨fun t ht => relies_of_no_plan (hplan t ht), ?_, fun u t ht p q _ hq => ?_⟩
  · exact List.pairwise_of_forall_mem_list fun t ht u _ p q hp _ => by simp [hplan t ht] at hp
  · simp [hplan t ht] at hq

theorem ordered_initial {d : FutureData} (h : futureSystem.initial d) : Ordered d := by
  obtain ⟨hslot, hdelivered, herased, -⟩ := h
  exact ⟨⟨by simp [hdelivered], by simp [herased]⟩, by simp [hdelivered], by simp [hslot],
    by simp [hdelivered]⟩

/-- In a careful run every plan fires at most once and no other plan is erased. -/
theorem future_sound {w : World FutureData FutureTask}
    (hw : futureSystem.machine.ReachableUnder (TaskSystem.guard Careful) w) :
    FutureSound w.data :=
  (TaskSystem.reachableUnder_holds apart_symm (fun _ => ordered_initial)
    (fun _ _ _ _ => accept_relies) (fun _ _ _ _ _ => advance_keeps) hw).data.sound

/-! ### A plan that is overwritten while the old one fires -/

def emptySlot : FutureData := ⟨none, 0, 0, 1, [], [], []⟩

def teaPlan : SlotWrite := some (1000, some "tea".toList)

/-- The operation with this number goes on without an objection. -/
def goOn (k : ℕ) : Input FutureInput := .task k (.proceed 1000 .passed)

/-- A plan fires; before it is cleared, the next message plans another. -/
def overwrittenPlan : List (Input FutureInput) :=
  [.request (.step6 teaPlan), goOn 0, .request .scan, goOn 0, goOn 0, goOn 0, goOn 0,
    .request (.step6 (some (5000, some "walk".toList))), goOn 1, goOn 0, goOn 0, goOn 0, goOn 0]

theorem future_unsound :
    ¬ ∀ w, futureSystem.machine.Reachable w → FutureSound w.data := by
  intro h
  have hsound := h (futureSystem.machine.after ⟨emptySlot, []⟩ overwrittenPlan)
    (Machine.reachable_after ⟨⟨rfl, rfl, rfl, rfl⟩, rfl⟩ (by decide))
  have herased : (futureSystem.machine.after ⟨emptySlot, []⟩ overwrittenPlan).data.erased =
      [⟨⟨1, 1000, some "tea".toList⟩, some ⟨2, 5000, some "walk".toList⟩⟩] := by decide
  have hsame := hsound.kept _ (by rw [herased]; exact List.mem_cons_self) _ rfl
  simp at hsame

/-- A plan fires, is cleared, and another is written. -/
def carefulPlan : List (Input FutureInput) :=
  [.request (.step6 teaPlan), goOn 0, .request .scan] ++ List.replicate 8 (goOn 0) ++
    [.request (.step6 (some (5000, some "walk".toList))), goOn 0]

theorem future_sound_careful :
    (futureSystem.machine.after ⟨emptySlot, []⟩ carefulPlan).data.delivered = [1] ∧
      FutureSound (futureSystem.machine.after ⟨emptySlot, []⟩ carefulPlan).data :=
  ⟨by decide, future_sound (Machine.reachableUnder_after
    ⟨⟨rfl, rfl, rfl, rfl⟩, rfl⟩ (by decide) (by decide))⟩

end CompanionBackend.FutureSlots
