import CompanionBackend.TaskSystems
import CompanionBackend.AgentMessages

/-!
# When the caps of proactive messages hold

Counter, newest message and blacklist are looked at before the model is asked, and nothing is
looked at again when the message is saved. In runs where the counter shows every counted message of
its day when it is read, no message is committed between that reading and the call's own
message, both fall on one day and the user does not leave the blacklist during the checks, the caps
hold.
-/
namespace CompanionBackend.AgentCaps

open Runs TaskSystems AgentMessages
open GrowthCounters (Instant Counter)

/-- Counted messages that were created on this day. -/
def countedOn (messages : List AgentMessage) (k : ℤ) : ℕ :=
  messages.countP fun m => m.triggerType.counted && decide (dayOf m.createdAt = k)

/-- A message of `check_and_trigger` keeps its distance to all messages before it. -/
def Spaced (before : List AgentMessage) (m : AgentMessage) : Prop :=
  ∀ m' ∈ before, m'.createdAt + minInterval ≤ m.createdAt

/-- Together with the messages before it, a message stays within the maximum of its day. -/
def WithinDay (before : List AgentMessage) (m : AgentMessage) : Prop :=
  (countedOn (before ++ [m]) (dayOf m.createdAt) : ℤ) ≤ dailyMaximum

/-- The caps of every message of `check_and_trigger`, and whom none is written for. -/
structure AgentCapsKept (d : AgentData) : Prop where
  capped : ∀ before m after, d.messages = before ++ m :: after → m.triggerType.scanned = true →
    Spaced before m ∧ WithinDay before m
  ordered : d.messages.Pairwise fun m m' => m.createdAt ≤ m'.createdAt
  decided : ∀ c ∈ d.decisions, c.trigger ≠ .p0 → c.blacklisted = false

/-- The counter shows every counted message of its day when it is read, the blacklist does not run
out during the checks, and no message was committed between the reading of the
counter and the message of the call, which is written on the day of the counter. -/
def Exclusive (d : AgentData) (t : AgentTask) : AgentInput → Prop
  | .proceed now _ =>
    match t with
    | .clocked _ _ read =>
      (countedOn d.messages (dayOf read) : ℤ) ≤ { d with now := now }.dailyCount (dayOf read)
    | .spaced c => c.blacklisted = true → { d with now := now }.blacklisted = true
    | .inserted (.check c _) m => d.messages.length = c.seen ∧ dayOf m.createdAt = dayOf c.now
    | _ => True
  | _ => True

instance decidableExclusive (d : AgentData) (t : AgentTask) (i : AgentInput) :
    Decidable (Exclusive d t i) :=
  match i with
  | .check | .write _ _ | .read _ | .abort => isTrue trivial
  | .proceed now _ =>
    match t with
    | .clocked _ _ read => inferInstanceAs (Decidable
        ((countedOn d.messages (dayOf read) : ℤ) ≤ { d with now := now }.dailyCount (dayOf read)))
    | .spaced c => inferInstanceAs (Decidable
        (c.blacklisted = true → { d with now := now }.blacklisted = true))
    | .inserted (.check c _) m => inferInstanceAs (Decidable
        (d.messages.length = c.seen ∧ dayOf m.createdAt = dayOf c.now))
    | .inserted (.other _ _) _ | .called | .matched _ _ | .counted _ | .listed _ | .generating _
    | .saving _ | .allocated _ _ | .stored _ | .tallying _ _ | .tallied _ _ | .expiring _ _ _
    | .reviewing | .blacklisting => isTrue trivial

/-! ### What calls rely on -/

/-- What the counter left open. -/
structure CountFits (d : AgentData) (c : Decision) : Prop where
  past : c.now ≤ d.now
  seen : c.seen ≤ d.messages.length
  open_ : (countedOn (d.messages.take c.seen) (dayOf c.now) : ℤ) < dailyMaximum
  scanned : c.trigger.scanned = true

/-- The messages that were there are long enough ago. -/
def SpaceFits (d : AgentData) (c : Decision) : Prop :=
  ∀ m ∈ d.messages.take c.seen, m.createdAt + minInterval ≤ c.now

/-- All checks have passed. -/
structure Passed (d : AgentData) (c : Decision) : Prop where
  count : CountFits d c
  space : SpaceFits d c
  listed : c.trigger ≠ .p0 → c.blacklisted = false

def WriterFits (d : AgentData) : Writer → Prop
  | .check c _ => Passed d c
  | .other kind _ => kind.scanned = false

/-- The row that is about to be committed is the newest. -/
structure RowFits (d : AgentData) (w : Writer) (m : AgentMessage) : Prop where
  writer : WriterFits d w
  kind : m.triggerType = w.trigger
  newest : ∀ m' ∈ d.messages, m'.createdAt ≤ m.createdAt
  past : m.createdAt ≤ d.now
  later : ∀ c ∈ w.decision, c.now ≤ m.createdAt

def Relies (d : AgentData) : AgentTask → Prop
  | .called => True
  | .matched t _ => t.scanned = true
  | .clocked t _ now => t.scanned = true ∧ now ≤ d.now
  | .counted c => CountFits d c
  | .spaced c => CountFits d c ∧ SpaceFits d c
  | .listed c | .generating c => Passed d c
  | .saving w => WriterFits d w
  | .allocated w _ => WriterFits d w ∧ d.seqLocked = true
  | .inserted w m => RowFits d w m ∧ d.seqLocked = true
  | _ => True

structure Kept (d : AgentData) : Prop where
  caps : AgentCapsKept d
  past : ∀ m ∈ d.messages, m.createdAt ≤ d.now

/-! ### Steps -/

/-- Time goes on and messages are only added. -/
structure Steps (d d' : AgentData) : Prop where
  now : d.now ≤ d'.now
  messages : d.messages <+: d'.messages

theorem Steps.trans {d d' d'' : AgentData} (h : Steps d d') (h' : Steps d' d'') : Steps d d'' :=
  ⟨h.now.trans h'.now, h.messages.trans h'.messages⟩

theorem take_eq_of_isPrefix {α : Type*} {xs ys : List α} {n : ℕ} (h : xs <+: ys) (hn : n ≤ xs.length) :
    ys.take n = xs.take n := by
  obtain ⟨rest, rfl⟩ := h
  exact List.take_append_of_le_length hn

theorem CountFits.mono {d d' : AgentData} {c : Decision} (h : CountFits d c) (hs : Steps d d') :
    CountFits d' c where
  past := h.past.trans hs.now
  seen := h.seen.trans hs.messages.length_le
  open_ := by
    rw [take_eq_of_isPrefix hs.messages h.seen]
    exact h.open_
  scanned := h.scanned

theorem SpaceFits.mono {d d' : AgentData} {c : Decision} (h : SpaceFits d c)
    (hcount : CountFits d c) (hs : Steps d d') : SpaceFits d' c := by
  intro m hm
  rw [take_eq_of_isPrefix hs.messages hcount.seen] at hm
  exact h m hm

theorem Passed.mono {d d' : AgentData} {c : Decision} (h : Passed d c) (hs : Steps d d') :
    Passed d' c :=
  ⟨h.count.mono hs, h.space.mono h.count hs, h.listed⟩

theorem WriterFits.mono {d d' : AgentData} {w : Writer} (h : WriterFits d w) (hs : Steps d d') :
    WriterFits d' w := by
  cases w with
  | check c score => exact Passed.mono h hs
  | other kind score => exact h

/-- What a task relies on survives the steps of others, if these leave the table to the holder of
the sequence numbers. -/
theorem Relies.mono {d d' : AgentData} {u : AgentTask} (h : Relies d u) (hs : Steps d d')
    (hlock : u.holdsSeq = true → d'.messages = d.messages ∧ d'.seqLocked = true) : Relies d' u := by
  cases u with
  | clocked t listed now => exact ⟨h.1, h.2.trans hs.now⟩
  | counted c => exact CountFits.mono h hs
  | spaced c => exact ⟨h.1.mono hs, h.2.mono h.1 hs⟩
  | listed c => exact Passed.mono h hs
  | generating c => exact Passed.mono h hs
  | saving w => exact WriterFits.mono h hs
  | allocated w seq => exact ⟨h.1.mono hs, (hlock rfl).2⟩
  | inserted w m =>
    obtain ⟨hmessages, hlocked⟩ := hlock rfl
    have hrow : RowFits d w m := h.1
    have hnewest : ∀ m' ∈ d'.messages, m'.createdAt ≤ m.createdAt := hmessages ▸ hrow.newest
    exact ⟨⟨hrow.writer.mono hs, hrow.kind, hnewest, hrow.past.trans hs.now, hrow.later⟩, hlocked⟩
  | _ => exact h

theorem seqLocked_of_holds {d : AgentData} {u : AgentTask} (h : Relies d u)
    (hu : u.holdsSeq = true) : d.seqLocked = true := by
  cases u with
  | allocated w seq => exact h.2
  | inserted w m => exact h.2
  | _ => simp [AgentTask.holdsSeq] at hu

/-- The table is left to the holder of the sequence numbers. -/
def Leaves (d d' : AgentData) : Prop := d'.messages = d.messages ∧ d'.seqLocked = true

theorem lockDiscipline : TaskSystem.LockDiscipline Relies AgentTask.holdsSeq
    (fun d => d.seqLocked = true) Steps Leaves where
  locked := seqLocked_of_holds
  stable h hs hleaves := h.mono hs hleaves

/-- What a step of one task does. -/
abbrev StepSpec := TaskSystem.LockStep Kept Relies AgentTask.holdsSeq
  (fun d => d.seqLocked = true) Steps Leaves

/-- The table and its lock are as before. -/
structure Same (d d' : AgentData) : Prop where
  now : d'.now = d.now
  messages : d'.messages = d.messages
  decisions : d'.decisions = d.decisions
  seqLocked : d'.seqLocked = d.seqLocked

theorem same_refl (d : AgentData) : Same d d := ⟨rfl, rfl, rfl, rfl⟩

theorem Same.trans {d d' d'' : AgentData} (h : Same d d') (h' : Same d' d'') : Same d d'' :=
  ⟨h'.now.trans h.now, h'.messages.trans h.messages, h'.decisions.trans h.decisions,
    h'.seqLocked.trans h.seqLocked⟩

theorem same_incr (d : AgentData) (k : ℤ) : Same d (d.incr k) := by
  unfold AgentData.incr
  split <;> exact ⟨rfl, rfl, rfl, rfl⟩

theorem same_expire (d : AgentData) (k seconds : ℤ) : Same d (d.expire k seconds) := by
  unfold AgentData.expire
  split <;> exact ⟨rfl, rfl, rfl, rfl⟩

theorem kept_of_eq {d d' : AgentData} (hd : Kept d) (hnow : d.now ≤ d'.now)
    (hmessages : d'.messages = d.messages) (hdecisions : d'.decisions = d.decisions) : Kept d' where
  caps := ⟨by rw [hmessages]; exact hd.caps.capped, by rw [hmessages]; exact hd.caps.ordered,
    by rw [hdecisions]; exact hd.caps.decided⟩
  past m hm := (hd.past m (hmessages ▸ hm)).trans hnow

theorem Same.steps {d d' : AgentData} (h : Same d d') : Steps d d' :=
  ⟨h.now.ge, h.messages ▸ List.prefix_refl _⟩

theorem Same.kept {d d' : AgentData} (h : Same d d') (hd : Kept d) : Kept d' :=
  kept_of_eq hd h.now.ge h.messages h.decisions

/-- A step that leaves the table and its lock alone. -/
theorem spec_quiet {d d' : AgentData} {t : AgentTask} {ts : List AgentTask} (hd : Kept d)
    (hsame : Same d d') (ht : ∀ t' ∈ ts, Relies d' t') (hone : ts.length ≤ 1)
    (hfree : ∀ t' ∈ ts, t'.holdsSeq = false) : StepSpec d d' t ts where
  data := hsame.kept hd
  frame := hsame.steps
  tasks := ht
  single := hone
  guarded _ hlocked := ⟨⟨hsame.messages, hsame.seqLocked.trans hlocked⟩, hfree⟩

/-- The task ends. -/
theorem spec_end {d d' : AgentData} {t : AgentTask} (hd : Kept d) (hsame : Same d d') :
    StepSpec d d' t [] :=
  spec_quiet hd hsame (by simp) (by simp) (by simp)

/-- The task goes on, without the lock. -/
theorem spec_next {d d' : AgentData} {t t' : AgentTask} (hd : Kept d) (hsame : Same d d')
    (ht : Relies d' t') (hfree : t'.holdsSeq = false) : StepSpec d d' t [t'] :=
  spec_quiet hd hsame (by simpa using ht) (by simp) (by simpa using hfree)

/-- A check that ends the task or lets it go on. -/
theorem spec_check {d : AgentData} {t t' : AgentTask} {p : Prop} [Decidable p] (hd : Kept d)
    (ht : ¬p → Relies d t') (hfree : t'.holdsSeq = false) :
    StepSpec d d t (if p then [] else [t']) := by
  by_cases hp : p
  · rw [if_pos hp]
    exact spec_end hd (same_refl d)
  · rw [if_neg hp]
    exact spec_next hd (same_refl d) (ht hp) hfree

/-! ### The checks -/

theorem countedOn_append (messages : List AgentMessage) (m : AgentMessage) (k : ℤ) :
    countedOn (messages ++ [m]) k ≤ countedOn messages k + 1 := by
  unfold countedOn
  rw [List.countP_append]
  exact Nat.add_le_add_left (List.countP_le_length.trans (by simp)) _

/-- No message is newer than the first of the sorted ones. -/
theorem head_newest {d : AgentData} {m : AgentMessage} (h : d.newest.head? = some m) :
    ∀ m' ∈ d.messages, m'.createdAt ≤ m.createdAt := by
  intro m' hm'
  have hsorted : d.newest.Pairwise fun a b => b.createdAt ≤ a.createdAt :=
    List.pairwise_insertionSort _ _
  have hmem : m' ∈ d.newest := (List.mem_insertionSort _).mpr hm'
  cases hnewest : d.newest with
  | nil => simp [hnewest] at hmem
  | cons first rest =>
    rw [hnewest] at h hsorted hmem
    obtain rfl := Option.some.inj h
    rcases List.mem_cons.mp hmem with rfl | hrest
    · exact le_rfl
    · exact (List.pairwise_cons.mp hsorted).1 m' hrest

/-- Without a newest message there is none. -/
theorem messages_of_head_none {d : AgentData} (h : d.newest.head? = none) : d.messages = [] := by
  have hlength := List.length_insertionSort (fun a b : AgentMessage => b.createdAt ≤ a.createdAt)
    d.messages
  rw [show d.messages.insertionSort _ = [] from List.head?_eq_none_iff.mp h] at hlength
  exact List.eq_nil_of_length_eq_zero hlength.symm

theorem CountFits.decide {d : AgentData} {t : TriggerType} {listed : Bool} {now : Instant}
    (ht : t.scanned = true) (hnow : now ≤ d.now)
    (hshown : (countedOn d.messages (dayOf now) : ℤ) ≤ d.dailyCount (dayOf now))
    (hbelow : ¬dailyMaximum ≤ d.dailyCount (dayOf now)) :
    CountFits d ⟨t, listed, now, d.messages.length⟩ where
  past := hnow
  seen := le_rfl
  open_ := by
    rw [List.take_length]
    exact hshown.trans_lt (not_le.mp hbelow)
  scanned := ht

theorem SpaceFits.of_newest {d : AgentData} {c : Decision} {latest : AgentMessage}
    (h : d.newest.head? = some latest) (hfar : ¬c.now - latest.createdAt < minInterval) :
    SpaceFits d c := by
  intro m hm
  have hle := head_newest h m (List.mem_of_mem_take hm)
  linarith [not_lt.mp hfar]

theorem SpaceFits.of_none {d : AgentData} {c : Decision} (h : d.newest.head? = none) :
    SpaceFits d c := by
  simp [SpaceFits, messages_of_head_none h]

theorem Passed.of_listed {d : AgentData} {c : Decision} (hcount : CountFits d c)
    (hspace : SpaceFits d c) (hok : c.blacklisted = true → d.blacklisted = true)
    (hpassed : ¬(c.trigger ≠ .p0 ∧ d.blacklisted = true)) :
    Passed d { c with blacklisted := c.blacklisted || d.blacklisted } where
  count := ⟨hcount.past, hcount.seen, hcount.open_, hcount.scanned⟩
  space := hspace
  listed hne := by
    have hfree : d.blacklisted = false := by simpa [hne] using hpassed
    have hbefore : c.blacklisted = false := by
      cases hc : c.blacklisted
      · rfl
      · exact absurd (hok hc) (by simp [hfree])
    simp [hfree, hbefore]

/-! ### The commit -/

/-- Where a message stands in a list with one more at its end. -/
theorem split_concat {α : Type*} {xs before after : List α} {x y : α}
    (h : xs ++ [x] = before ++ y :: after) :
    (xs = before ∧ x = y ∧ after = []) ∨ ∃ rest, xs = before ++ y :: rest := by
  rcases List.eq_nil_or_concat after with rfl | ⟨rest, z, rfl⟩
  · obtain ⟨rfl, hxy⟩ := List.append_inj' h rfl
    exact .inl ⟨rfl, by simpa using hxy, rfl⟩
  · have h' : xs ++ [x] = (before ++ y :: rest) ++ [z] := by simpa using h
    exact .inr ⟨rest, (List.append_inj' h' rfl).1⟩

/-- A row is committed within the caps. -/
theorem kept_store {d : AgentData} {w : Writer} {m : AgentMessage} (hd : Kept d)
    (hrow : RowFits d w m) (hok : Exclusive d (.inserted w m) (.proceed d.now .done)) :
    Kept (d.store w m) where
  caps := by
    refine ⟨fun before m₀ after hsplit hscanned => ?_, ?_, fun c hc => ?_⟩
    · rcases split_concat hsplit with ⟨rfl, rfl, -⟩ | ⟨rest, hrest⟩
      · rw [hrow.kind] at hscanned
        cases w with
        | other kind score => exact absurd hscanned (by simp [Writer.trigger, show kind.scanned = false from hrow.writer])
        | check c score =>
          obtain ⟨hseen, hday⟩ := hok
          have hpassed : Passed d c := hrow.writer
          have hlater := hrow.later c rfl
          have hspace := hpassed.space
          have hopen := hpassed.count.open_
          rw [SpaceFits, ← hseen, List.take_length] at hspace
          rw [← hseen, List.take_length] at hopen
          refine ⟨fun m' hm' => (hspace m' hm').trans hlater, ?_⟩
          have hcount := countedOn_append d.messages m (dayOf m.createdAt)
          rw [WithinDay]
          rw [hday] at hcount ⊢
          omega
      · exact hd.caps.capped before m₀ rest hrest hscanned
    · exact List.pairwise_append.mpr ⟨hd.caps.ordered, List.pairwise_singleton _ _,
        fun m' hm' m₁ hm₁ => by simpa [List.mem_singleton.mp hm₁] using hrow.newest m' hm'⟩
    · rcases List.mem_append.mp hc with hc | hc
      · exact hd.caps.decided c hc
      · cases w with
        | other kind score => simp [Writer.decision] at hc
        | check c' score =>
          obtain rfl : c = c' := by simpa [Writer.decision] using hc
          exact Passed.listed hrow.writer
  past m' hm' := by
    rcases List.mem_append.mp hm' with hm' | hm'
    · exact hd.past m' hm'
    · exact List.mem_singleton.mp hm' ▸ hrow.past

/-- A row that is made now is the newest. -/
theorem rowFits_now {d : AgentData} {w : Writer} {seq : ℕ} (hd : Kept d) (hw : WriterFits d w) :
    RowFits d w ⟨w.trigger, w.score, seq, d.now⟩ where
  writer := hw
  kind := rfl
  newest := hd.past
  past := le_rfl
  later c hc := by
    cases w with
    | other kind score => simp [Writer.decision] at hc
    | check c' score =>
      obtain rfl : c' = c := by simpa [Writer.decision] using hc
      exact (Passed.count hw).past

/-- One step of one task. -/
theorem proceed_spec {d d' : AgentData} {t : AgentTask} {a : Answer} {ts : List AgentTask}
    (hd : Kept d) (ht : Relies d t) (hok : Exclusive d t (.proceed d.now a))
    (h : d.proceed t a = some (d', ts)) : StepSpec d d' t ts := by
  have hsame := same_refl d
  cases t <;> cases a <;> simp only [AgentData.proceed, reduceCtorEq] at h
  case called.facts f =>
    cases hmatch : matchTrigger f d.now with
    | none =>
      obtain ⟨rfl, rfl⟩ : d = d' ∧ [] = ts := by simpa [hmatch] using h
      exact spec_end hd hsame
    | some t =>
      obtain ⟨rfl, rfl⟩ : d = d' ∧ [.matched t d.blacklisted] = ts := by simpa [hmatch] using h
      exact spec_next hd hsame (matchTrigger_scanned hmatch) rfl
  case matched.pending t listed slot =>
    cases h
    exact spec_check hd (fun _ => ⟨ht, le_rfl⟩) rfl
  case clocked.done t listed now =>
    split_ifs at h with hfull
    · cases h
      exact spec_end hd hsame
    · cases h
      exact spec_next hd hsame (CountFits.decide ht.1 ht.2 hok hfull) rfl
  case counted.done c =>
    split at h
    next latest hlatest =>
      cases h
      exact spec_check hd (fun hfar => ⟨ht, .of_newest hlatest hfar⟩) rfl
    next hnone =>
      cases h
      exact spec_next hd hsame ⟨ht, .of_none hnone⟩ rfl
  case spaced.done c =>
    cases h
    exact spec_check hd (fun hpassed => .of_listed ht.1 ht.2 hok hpassed) rfl
  case listed.profile c level days =>
    cases h
    exact spec_check hd (fun _ => ht) rfl
  case generating.profile c level days =>
    cases h
    exact spec_next hd hsame ht rfl
  case saving.done w =>
    split_ifs at h with hlocked
    cases h
    have hsteps : Steps d { d with seqLocked := true } := ⟨le_rfl, List.prefix_refl _⟩
    exact ⟨kept_of_eq hd le_rfl rfl rfl, hsteps, by simpa [Relies] using WriterFits.mono ht hsteps,
      by simp, fun _ h => absurd h hlocked⟩
  case allocated.done w seq =>
    cases h
    have hrow : Relies d (.inserted w ⟨w.trigger, w.score, seq, d.now⟩) :=
      ⟨rowFits_now hd ht.1, ht.2⟩
    exact ⟨hd, hsame.steps, by simpa using hrow, by simp,
      fun h => by simp [AgentTask.holdsSeq] at h⟩
  case inserted.done w m =>
    cases h
    exact ⟨kept_store hd ht.1 hok, ⟨le_rfl, List.prefix_append _ _⟩, by simp [Relies], by simp,
      fun h => by simp [AgentTask.holdsSeq] at h⟩
  case stored.done m =>
    split at h
    · cases h
      exact spec_end hd hsame
    · cases h
      exact spec_end hd hsame
    · cases h
      exact spec_end hd ((same_incr _ _).trans (same_expire _ _ _))
    · cases h
      exact spec_next hd hsame trivial rfl
  case tallying.done t k =>
    cases h
    exact spec_next hd (same_incr d k) trivial rfl
  case tallied.done t k =>
    cases h
    exact spec_next hd hsame trivial rfl
  case expiring.done t k ttl =>
    cases h
    split_ifs
    · exact spec_next hd (same_expire d k ttl) trivial rfl
    · exact spec_end hd (same_expire d k ttl)
  case reviewing.done =>
    split at h
    · cases h
      exact spec_check hd (fun _ => trivial) rfl
    · cases h
      exact spec_end hd hsame
  case blacklisting.done =>
    cases h
    exact spec_end hd ⟨rfl, rfl, rfl, rfl⟩

theorem advance_spec {d d' : AgentData} {t : AgentTask} {i : AgentInput} {ts : List AgentTask}
    (hd : Kept d) (ht : Relies d t) (hok : Exclusive d t i)
    (h : agentSystem.advance d t i = some (d', ts)) : StepSpec d d' t ts := by
  cases i with
  | check => simp [agentSystem] at h
  | write kind score => simp [agentSystem] at h
  | proceed now a =>
    simp only [agentSystem] at h
    split_ifs at h with hback
    have hnow : d.now ≤ now := not_lt.mp hback
    have hsteps : Steps d { d with now := now } := ⟨hnow, List.prefix_refl _⟩
    have hrelies : Relies { d with now := now } t :=
      ht.mono hsteps fun hholds => ⟨rfl, seqLocked_of_holds (d := d) ht hholds⟩
    have hkept : Kept { d with now := now } := kept_of_eq hd hnow rfl rfl
    have hspec := proceed_spec hkept hrelies hok h
    exact ⟨hspec.data, hsteps.trans hspec.frame, hspec.tasks, hspec.single, hspec.guarded⟩
  | read seq =>
    simp only [agentSystem] at h
    split_ifs at h
    cases h
    have hsame : Same d { d with readSeqs := seq :: d.readSeqs } := ⟨rfl, rfl, rfl, rfl⟩
    refine ⟨hsame.kept hd, hsame.steps, ?_, by simp, fun hfree hlocked => ⟨⟨rfl, hlocked⟩, by simpa⟩⟩
    simp only [List.mem_singleton, forall_eq]
    exact ht.mono hsame.steps fun hholds => ⟨rfl, seqLocked_of_holds (d := d) ht hholds⟩
  | abort =>
    cases h
    have hmessages : (d.release t).messages = d.messages := by
      unfold AgentData.release
      split_ifs <;> rfl
    have hkept : Kept (d.release t) := by
      unfold AgentData.release
      split_ifs
      · exact kept_of_eq hd le_rfl rfl rfl
      · exact hd
    have hnow : (d.release t).now = d.now := by
      unfold AgentData.release
      split_ifs <;> rfl
    refine ⟨hkept, ⟨hnow.ge, hmessages ▸ List.prefix_refl _⟩, by simp, by simp,
      fun hfree hlocked => ⟨⟨hmessages, ?_⟩, by simp⟩⟩
    simpa [AgentData.release, hfree] using hlocked

theorem accept_relies {d : AgentData} {i : AgentInput} {ts : List AgentTask}
    (h : agentSystem.accept d i = some ts) :
    (∀ t ∈ ts, Relies d t) ∧ ts.Pairwise (TaskSystem.Apart AgentTask.holdsSeq) ∧
      ∀ u, ∀ t ∈ ts, TaskSystem.Apart AgentTask.holdsSeq u t := by
  cases i with
  | check =>
    obtain rfl := Option.some.inj h
    simp [Relies, TaskSystem.Apart, AgentTask.holdsSeq]
  | write kind score =>
    simp only [agentSystem] at h
    split_ifs at h with hscanned
    obtain rfl := Option.some.inj h
    simp [Relies, WriterFits, TaskSystem.Apart, AgentTask.holdsSeq, hscanned]
  | _ => simp [agentSystem] at h

theorem kept_initial {d : AgentData} (h : agentSystem.initial d) : Kept d := by
  obtain ⟨hmessages, -, hdecisions⟩ := h
  exact ⟨⟨by simp [hmessages], by simp [hmessages], by simp [hdecisions]⟩, by simp [hmessages]⟩

/-- Where calls look and write without a message in between, the caps hold. -/
theorem agent_caps_kept {w : World AgentData AgentTask}
    (hw : agentSystem.machine.ReachableUnder (TaskSystem.guard Exclusive) w) :
    AgentCapsKept w.data :=
  (TaskSystem.reachableUnder_holds TaskSystem.apart_symm (fun _ => kept_initial)
    (fun _ _ _ _ => accept_relies)
    (fun _ _ _ _ _ hd ht hok h => (advance_spec hd ht hok h).establishes lockDiscipline) hw).data.caps

/-! ### Two calls that overlap -/

/-- Noon of the first day. -/
def noon : Instant := 12 * hour

def noMessages : AgentData := ⟨noon, [], [], 1, false, fun _ => none, none, []⟩

/-- A quiet user of the second level. -/
def quietUser : TriggerFacts := ⟨none, 0, false, some (2, some (-day)), 0, none, 0, 0, none⟩

/-- What the checks of a call answer, up to the saving of its message. -/
def checkAnswers : List Answer :=
  [.facts quietUser, .pending false, .done, .done, .done, .profile 2 4, .profile 2 4]

/-- The task with this number goes on. -/
def goOn (k : ℕ) (now : Instant) (a : Answer) : Input AgentInput := .task k (.proceed now a)

/-- A call begins and passes all its checks. -/
def checking (k : ℕ) (now : Instant) : List (Input AgentInput) :=
  .request .check :: checkAnswers.map (goOn k now)

/-- The scan and a login check one after the other, and both write. -/
def overlappingChecks : List (Input AgentInput) :=
  checking 0 noon ++ [.request .check] ++ checkAnswers.map (goOn 1 noon) ++
    [0, 1, 1, 0, 1, 1].map (goOn · noon .done)

theorem agent_caps_broken :
    ¬ ∀ w, agentSystem.machine.Reachable w → AgentCapsKept w.data := by
  intro h
  have hkept := h (agentSystem.machine.after ⟨noMessages, []⟩ overlappingChecks)
    (Machine.reachable_after ⟨⟨rfl, rfl, rfl⟩, rfl⟩ (by decide))
  have hmessages : (agentSystem.machine.after ⟨noMessages, []⟩ overlappingChecks).data.messages =
      [⟨.p4, 8, 1, noon⟩, ⟨.p4, 8, 2, noon⟩] := by decide
  have hspaced := (hkept.capped [⟨.p4, 8, 1, noon⟩] ⟨.p4, 8, 2, noon⟩ [] hmessages rfl).1
  exact absurd (hspaced ⟨.p4, 8, 1, noon⟩ List.mem_cons_self) (by decide)

/-- Two calls, the second half an hour after the first. -/
def successiveChecks : List (Input AgentInput) :=
  checking 0 noon ++ List.replicate 8 (goOn 0 noon .done) ++
    checking 0 (noon + minInterval) ++ List.replicate 8 (goOn 0 (noon + minInterval) .done)

theorem agent_caps_kept_successive :
    (agentSystem.machine.after ⟨noMessages, []⟩ successiveChecks).data.messages =
        [⟨.p4, 8, 1, noon⟩, ⟨.p4, 7, 2, noon + minInterval⟩] ∧
      AgentCapsKept (agentSystem.machine.after ⟨noMessages, []⟩ successiveChecks).data :=
  ⟨by decide, agent_caps_kept (Machine.reachableUnder_after
    ⟨⟨rfl, rfl, rfl⟩, rfl⟩ (by decide) (by decide))⟩

end CompanionBackend.AgentCaps
