import CompanionBackend.MemoryInterleavings

/-!
# Memory jobs under deletion

The safety of the memory jobs in runs in which no claim reaches the locks of a fenced
call with a settled candidate. A claim selects its candidate in the snapshot of its
first read, which is older than the lock of the call: the job may have ended and the
call been fenced in between, and the claim then cancels a job that has settled.
-/
namespace CompanionBackend.MemoryWorkers

open Runs ProviderEvents Dictionaries TaskSystems MemoryJobs
open TurnRecords (MemoryStatus VoiceCallTurn)

/-- A claim that has its locks on a fenced call: its candidate has not settled. -/
def claimsOpenJob (d : Data) (t : Task) (_ : Outcome) : Bool :=
  match t with
  | .opened _ id =>
    match d.db.jobs id with
    | none => true
    | some job =>
      match d.db.calls job.callId with
      | none => true
      | some call => call.deletionFenceAt.isNone || !settled job.status
  | _ => true

theorem allowed_of_claimsOpenJob {d : Data} {t : Task} {o : Outcome}
    (h : claimsOpenJob d t o = true) : Allowed False True d t where
  calm := False.elim
  strict _ callId id ht job call hjob hcall hfence := by
    subst ht
    simp only [claimsOpenJob, hjob, hcall, Bool.or_eq_true] at h
    rcases h with hnone | hopen
    · rw [Option.isNone_iff_eq_none] at hnone
      simp [hnone] at hfence
    · simpa using hopen

/-- What one step leaves alone. -/
structure StepQuiet (d d' : Data) : Prop where
  settled : ∀ id job, d.db.jobs id = some job → settled job.status = true →
    ∃ job', d'.db.jobs id = some job' ∧ job'.status = job.status
  fencedStatuses : ∀ c call, d.db.calls c = some call → call.deletionFenceAt.isSome = true →
    ∀ id job, d.db.jobs id = some job → job.callId = c →
      ∃ job', d'.db.jobs id = some job' ∧ job'.status = job.status
  fencedTraces : ∀ c call, d.db.calls c = some call → call.deletionFenceAt.isSome = true →
    ∀ t ∈ d'.db.traces, t.callId = c → t ∈ d.db.traces

/-- The jobs of a state, and every step from it that claims no settled job of a fenced call. -/
structure JobsSafe (hash : Text → Text) (w : World Data Task) : Prop where
  fenced : ∀ c call, w.data.db.calls c = some call → call.deletionFenceAt.isSome = true →
    ∀ id job, w.data.db.jobs id = some job → job.callId = c → settled job.status = true
  attempts : ∀ id job, w.data.db.jobs id = some job →
    job.attemptCount ≤ 1 + w.data.db.retryLimit job.callId + w.data.db.adminRetries id
  claims : ∀ id token now, w.data.db.claim id token now ≠ .error .indexError
  finishes : ∀ id token status reason now,
    w.data.db.finish id token status reason now ≠ .error .indexError
  traces : w.data.db.traces.Pairwise fun t t' => ¬SameKey t t'
  steps : ∀ i w', TaskSystem.guard (fun d t o => claimsOpenJob d t o = true) w i →
    (system hash).machine.step w i = some w' → StepQuiet w.data w'.data

theorem stepQuiet_refl (d : Data) : StepQuiet d d where
  settled _ job hjob _ := ⟨job, hjob, rfl⟩
  fencedStatuses _ _ _ _ _ job hjob _ := ⟨job, hjob, rfl⟩
  fencedTraces _ _ _ _ _ ht _ := ht

theorem stepQuiet_of_spec {hash : Text → Text} {d d' : Data} {t : Task} {ts : List Task}
    (hd : Sound hash False True d) (h : StepSpec hash False True d d' t ts) : StepQuiet d d' := by
  have hsettled : ∀ id job, d.db.jobs id = some job → settled job.status = true →
      ∃ job', d'.db.jobs id = some job' ∧ job'.status = job.status := by
    intro id job hjob hs
    obtain ⟨job', hjob', -, hkept⟩ := h.effect.jobs id job hjob
    exact ⟨job', hjob', hkept trivial hs⟩
  refine ⟨hsettled, fun c call hcall hfence id job hjob hc => ?_, fun c call hcall hfence t ht hc => ?_⟩
  · exact hsettled id job hjob (hd.fenced trivial c call hcall hfence id job hjob hc)
  · rcases h.effect.quiet t ht with hold | ⟨call', hcall', hnone⟩
    · exact hold
    · rw [hc, hcall] at hcall'
      obtain rfl := Option.some.inj hcall'
      simp [hnone] at hfence

/-- Every state of a run whose claims of fenced calls take only open jobs is safe: settled jobs
stay, a fenced call has no open job and gains no trace or status, the attempts are bounded, the
back-off table is read within its length, and a turn has one trace for a document. -/
theorem memory_jobs_safe (hash : Text → Text) {w : World Data Task}
    (hw : (system hash).machine.ReachableUnder
      (TaskSystem.guard fun d t o => claimsOpenJob d t o = true) w) : JobsSafe hash w := by
  have hholds : TaskSystem.Holds (Sound hash False True) (Asserts hash False) Apart w :=
    reachable_sound (fun _ _ _ h => allowed_of_claimsOpenJob h) hw
  have hd := hholds.data
  refine ⟨hd.fenced trivial, fun id job hjob => (hd.budget id job hjob).attempts,
    claim_ne_indexError w.data.db, fun id token status reason now => ?_, hd.keys, ?_⟩
  · exact finish_ne_indexError fun job hjob => (hd.budget id job hjob).processing
  · rintro (o | ⟨k, o⟩) w' hguard hstep
    · obtain ⟨ts, -, rfl⟩ := Option.map_eq_some_iff.mp hstep
      exact stepQuiet_refl w.data
    · obtain ⟨t, ht, hrest⟩ := Option.bind_eq_some_iff.mp hstep
      obtain ⟨⟨d', ts⟩, hadv, rfl⟩ := Option.map_eq_some_iff.mp hrest
      exact stepQuiet_of_spec hd (advance_spec hd (hholds.tasks t (List.mem_of_getElem? ht))
        (allowed_of_claimsOpenJob (hguard t ht)) hadv)

/-! ### A claim that comes too late -/

/-- A turn worth remembering. -/
def sampleTurn (callId : Ident) (index : ℕ) : MemoryTurn where
  callId := callId
  row :=
    { turnIndex := index, questionId := "q".toList, replyId := none
      userTextFinal := some "tea".toList, userAsrConfidence := none
      assistantTextGenerated := none, assistantTextEffective := some "noted".toList
      effectiveTextEvidence := .full, assistantInterrupted := false, playedAudioMs := none
      turnStatus := .finalized, memoryStatus := .pending
      contentSafetyStatus := fun _ => .passed, crisisStatus := fun _ => .passed }
  effectiveTextExpiresAt := some 1000000000

/-- A policy without retries. -/
def noRetries : Dict Text Json :=
  [("max_retries".toList, .int 0), ("retry_backoff_ms".toList, .arr [])]

def sampleCall (id : ℕ) : MemoryCall := ⟨id, 7, .ended, none, none, noRetries⟩

/-- Two calls of one user, of one turn each. -/
def sampleData : Data where
  db :=
    { calls := fun c => if c = "A".toList then some (sampleCall 1)
        else if c = "B".toList then some (sampleCall 2) else none
      turns := fun t => if t = 0 then some (sampleTurn "A".toList 1)
        else if t = 1 then some (sampleTurn "B".toList 1) else none
      jobs := fun _ => none, nextJobId := 0, traces := [], operations := [] }
  jobLock := fun _ => none
  docLock := fun _ => none
  nextToken := 0
  store := fun _ => none
  sent := []
  traced := []

theorem sampleData_initial : sampleData.Initial where
  jobs := rfl
  traces := rfl
  operations := rfl
  jobLock := rfl
  docLock := rfl
  traced := rfl
  callRows c c' call call' hcall hcall' hid := by
    simp only [sampleData] at hcall hcall'
    split_ifs at hcall hcall' with h₁ h₂ h₃ h₄ h₅
    all_goals
      obtain rfl := Option.some.inj hcall
      obtain rfl := Option.some.inj hcall'
      simp_all [sampleCall]

theorem sampleStart (hash : Text → Text) :
    (system hash).machine.start ⟨sampleData, []⟩ := ⟨sampleData_initial, rfl⟩

def sampleItem : MemoryItem := ⟨.user, "a-b-c".toList, "likes tea".toList⟩

def firstTask (o : Outcome) : TaskSystems.Input Outcome := .task 0 o

/-- A job is made, claimed, and its item written; another worker opens its claim meanwhile. -/
def writtenRun (hash : Text → Text) : List (TaskSystems.Input Outcome) :=
  [.request (.request (.transaction (.enqueue 0))), firstTask (.commit 0),
    .request (.request (.processNext "A".toList)), firstTask (.commit 1), firstTask (.commit 2),
    firstTask (.extracted (.ready [sampleItem] 0)), firstTask (.commit 3), firstTask (.gate true),
    firstTask (.commit 4), firstTask (.commit 5), firstTask .landed,
    firstTask (.acknowledged (buildDocId hash .user "a-b-c".toList 7) 6), firstTask (.gate true),
    .request (.request (.processNext "A".toList)), .task 1 (.commit 7), firstTask (.commit 8)]

/-- A guarded run to the end of the job and past its fence. -/
theorem memory_jobs_safe_fenced : JobsSafe id ((system id).machine.after ⟨sampleData, []⟩
    (writtenRun id ++ [.request (.request (.transaction (.fence "A".toList))), .task 1 (.commit 9)])) :=
  memory_jobs_safe id (Machine.reachableUnder_after (sampleStart id) (by decide)
    (by decide))

def statusOf (w : World Data Task) (id : ℕ) : Option MemoryStatus :=
  (w.data.db.jobs id).map (·.status)

/-- The same run, up to the fence. -/
def fencedWorld : World Data Task := (system id).machine.after ⟨sampleData, []⟩
  (writtenRun id ++ [.request (.request (.transaction (.fence "A".toList))), .task 1 (.commit 9)])

/-- The claim that was opened before the end of the job cancels it after the fence. -/
theorem late_claim_cancels : ∃ w i, (system id).machine.Reachable w ∧
    statusOf w 0 = some .success ∧
      ((system id).machine.step w i).bind (statusOf · 0) = some .cancelled :=
  ⟨fencedWorld, firstTask (.commit 10),
    Machine.reachable_after (sampleStart id) (by decide), by decide, by decide⟩

end CompanionBackend.MemoryWorkers

/-!
## The newest turn in the vector memory

Under the document's lock a write reads the traces, sends its upsert and commits its
trace, so a trace is older than what is sent after it. The store follows the traces
as long as an upsert that its worker no longer waits for takes no effect; one that does
arrives after the lock, over whatever has been written since.
-/
namespace CompanionBackend.MemoryWorkers

open Runs ProviderEvents TaskSystems MemoryJobs
open TurnRecords (MemoryStatus)

/-- No upsert takes effect after its worker has given it up. -/
def waitsForUpserts (_ : Data) (t : Task) (_ : Outcome) : Bool :=
  match t with
  | .stray _ => false
  | _ => true

theorem allowed_of_waitsForUpserts {d : Data} {t : Task} {o : Outcome}
    (h : waitsForUpserts d t o = true) : Allowed True False d t where
  calm _ u ht := by
    subst ht
    simp [waitsForUpserts] at h
  strict := False.elim

/-- The turn of a trace comes before that of an upsert. -/
def TraceBefore (db : Db) (t : VoiceMemoryTrace) (s : Upsert) : Prop :=
  ∃ call, db.calls t.callId = some call ∧
    (call.id < s.callRow ∨ call.id = s.callRow ∧ t.turnIndex < s.turnIndex)

/-- The traces and the store, and every step in which no upsert arrives late. -/
structure NewestWins (hash : Text → Text) (w : World Data Task) : Prop where
  linked : ∀ t ∈ w.data.db.traces, ∃ u ∈ w.data.traced, Linked hash w.data.db t u
  traced : ∀ u ∈ w.data.traced, ∃ t ∈ w.data.db.traces, Linked hash w.data.db t u
  /-- The store holds no older item than any that is traced. -/
  notOlder : ∀ u ∈ w.data.traced, ∃ s, w.data.store u.docId = some s ∧ (s = u ∨ u.before s)
  /-- The greatest item that was sent is stored once it is traced. -/
  greatest : ∀ u ∈ w.data.traced, (∀ v ∈ w.data.sent, v.docId = u.docId → ¬u.before v) →
    w.data.store u.docId = some u
  overwrites : ∀ i w', TaskSystem.guard (fun d t o => waitsForUpserts d t o = true) w i →
    (system hash).machine.step w i = some w' → ∀ doc, w'.data.store doc = w.data.store doc ∨
      ∃ s, w'.data.store doc = some s ∧
        ∀ t ∈ w.data.db.traces, t.docId = doc → TraceBefore w.data.db t s

theorem traceBefore_of_linked {hash : Text → Text} {db : Db} {t : VoiceMemoryTrace} {u s : Upsert}
    (h : Linked hash db t u) (hb : u.before s) : TraceBefore db t s := by
  obtain ⟨call, hcall, hid, -⟩ := h.call
  refine ⟨call, hcall, ?_⟩
  rw [hid, h.turn]
  exact hb

/-- Whatever the order of the workers, a document is never written over by an older turn than one
that is traced, and the greatest turn that was sent is what it holds once that turn is traced. -/
theorem newest_wins (hash : Text → Text) {w : World Data Task}
    (hw : (system hash).machine.ReachableUnder
      (TaskSystem.guard fun d t o => waitsForUpserts d t o = true) w) : NewestWins hash w := by
  have hholds : TaskSystem.Holds (Sound hash True False) (Asserts hash True) Apart w :=
    reachable_sound (fun _ _ _ h => allowed_of_waitsForUpserts h) hw
  have hd := hholds.data
  refine ⟨hd.linked, hd.traced, fun u hu => ?_, fun u hu hmax => ?_, ?_⟩
  · obtain ⟨s, hs, -, hor⟩ := hd.stored trivial u hu
    exact ⟨s, hs, hor.imp_right And.left⟩
  · obtain ⟨s, hs, hdoc, rfl | ⟨hbefore, hsent⟩⟩ := hd.stored trivial u hu
    · exact hs
    · exact absurd hbefore (hmax s hsent hdoc)
  · rintro (o | ⟨k, o⟩) w' hguard hstep doc
    · obtain ⟨ts, -, rfl⟩ := Option.map_eq_some_iff.mp hstep
      exact .inl rfl
    · obtain ⟨t, ht, hrest⟩ := Option.bind_eq_some_iff.mp hstep
      obtain ⟨⟨d', ts⟩, hadv, rfl⟩ := Option.map_eq_some_iff.mp hrest
      have hspec := advance_spec hd (hholds.tasks t (List.mem_of_getElem? ht))
        (allowed_of_waitsForUpserts (hguard t ht)) hadv
      rcases hspec.effect.overwrites trivial doc with hsame | ⟨s, hs, hnewest⟩
      · exact .inl hsame
      · refine .inr ⟨s, hs, fun t ht hdoc => ?_⟩
        obtain ⟨u, hu, hlinked⟩ := hd.linked t ht
        exact traceBefore_of_linked hlinked (hnewest u hu (hlinked.doc ▸ hdoc))

/-! ### An upsert that comes too late, and one that never comes -/

/-- No job waits, runs or is to be tried again. -/
def allFinished (w : World Data Task) : Bool :=
  (List.range w.data.db.nextJobId).all fun id =>
    match w.data.db.jobs id with
    | none => true
    | some job => settled job.status || job.status = .failed && job.nextRetryAt.isNone

/-- Both turns of the sample have their jobs. -/
def jobsMade : List (TaskSystems.Input Outcome) :=
  [.request (.request (.transaction (.enqueue 0))), firstTask (.commit 0),
    .request (.request (.transaction (.enqueue 1))), firstTask (.commit 0)]

/-- The task at `k` claims the job of the call and sends its item. -/
def sendRun (call : String) (content : String) (k : ℕ) : List (TaskSystems.Input Outcome) :=
  .request (.request (.processNext call.toList)) ::
    [.commit 1, .commit 2, .extracted (.ready [⟨.user, "a-b-c".toList, content.toList⟩] 0), .commit 3,
      .gate true, .commit 4, .commit 5].map (.task k)

/-- The upsert is acknowledged and the job ends. -/
def traceRun (k : ℕ) : List (TaskSystems.Input Outcome) :=
  [.landed, .acknowledged (buildDocId id .user "a-b-c".toList 7) 6, .gate true, .commit 7].map (.task k)

/-- The upsert is given up and the job fails. -/
def giveUpRun (k : ℕ) : List (TaskSystems.Input Outcome) := [.raised, .commit 7].map (.task k)

/-- Two turns written one after the other. -/
theorem newest_wins_in_turn : NewestWins id ((system id).machine.after ⟨sampleData, []⟩
    (jobsMade ++ sendRun "A" "tea" 0 ++ traceRun 0 ++ sendRun "B" "milk" 0 ++ traceRun 0)) :=
  newest_wins id (Machine.reachableUnder_after (sampleStart id) (by decide) (by decide))

/-- What the document of the sample holds, and the greatest item. -/
def storesOlder (w : World Data Task) (old new : Upsert) : Prop :=
  old.before new ∧ w.data.store new.docId = some old

instance (w : World Data Task) (old new : Upsert) : Decidable (storesOlder w old new) :=
  inferInstanceAs (Decidable (_ ∧ _))

def oldUpsert : Upsert := ⟨buildDocId id .user "a-b-c".toList 7, 1, 1, "tea".toList⟩
def newUpsert : Upsert := ⟨buildDocId id .user "a-b-c".toList 7, 2, 1, "milk".toList⟩

/-- All jobs have finished and the document holds the older item: the older upsert, given up,
arrived after the newer one was traced, or the newer one was never written. -/
theorem older_item_stored :
    (∃ w, (system id).machine.Reachable w ∧ allFinished w = true ∧ newUpsert ∈ w.data.traced ∧
      storesOlder w oldUpsert newUpsert) ∧
    ∃ w, (system id).machine.Reachable w ∧ allFinished w = true ∧ newUpsert ∈ w.data.sent ∧
      storesOlder w oldUpsert newUpsert :=
  ⟨⟨(system id).machine.after ⟨sampleData, []⟩
      (jobsMade ++ sendRun "A" "tea" 0 ++ giveUpRun 0 ++ sendRun "B" "milk" 1 ++ traceRun 1 ++
        [firstTask .landed]),
      Machine.reachable_after (sampleStart id) (by decide), by decide,
      by decide, by decide⟩,
    (system id).machine.after ⟨sampleData, []⟩
      (jobsMade ++ sendRun "A" "tea" 0 ++ traceRun 0 ++ sendRun "B" "milk" 0 ++ giveUpRun 0),
    Machine.reachable_after (sampleStart id) (by decide), by decide,
    by decide, by decide⟩

end CompanionBackend.MemoryWorkers
