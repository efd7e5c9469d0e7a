import CompanionBackend.MemoryJobs

/-!
# What one transaction does to the memory jobs

Every transaction moves single jobs and leaves the rows another worker has locked.
`Budget` bounds the attempts of a job by what its call allows and by what
administrators have added; every move keeps it and, a stale claim of a fenced call
apart, every move keeps a settled status.
-/
namespace CompanionBackend.MemoryJobs

open Runs ProviderEvents Dictionaries
open TurnRecords (MemoryStatus VoiceCallTurn eligibleTurn)

/-- The automatic retries of a call; none when its policy is rejected. -/
def limitOf (script : Dict Text Json) : ℕ :=
  match retryPolicy script with
  | .ok policy => policy.1
  | .error _ => 0

def Db.retryLimit (db : Db) (callId : Ident) : ℕ :=
  ((db.calls callId).map fun call => limitOf call.script).getD 0

/-- The retries of the job that administrators have committed. -/
def Db.adminRetries (db : Db) (id : ℕ) : ℕ := db.operations.count id

/-- The attempts of a job, against the retries of its call and those of administrators. -/
structure Budget (limit admin : ℕ) (job : VoiceMemoryJob) : Prop where
  attempts : job.attemptCount ≤ 1 + limit + admin
  pending : job.status = .pending → job.attemptCount ≤ limit + admin
  retrying : job.status = .failed → job.nextRetryAt.isSome = true → job.attemptCount ≤ limit
  processing : job.status = .processing → 1 ≤ job.attemptCount

theorem Budget.mono {limit admin admin' : ℕ} {job : VoiceMemoryJob} (h : Budget limit admin job)
    (hadmin : admin ≤ admin') : Budget limit admin' job where
  attempts := h.attempts.trans (by omega)
  pending hp := (h.pending hp).trans (by omega)
  retrying := h.retrying
  processing := h.processing

/-- The budget of a job that neither waits nor runs is its number of attempts. -/
theorem Budget.rest {limit admin : ℕ} {job job' : VoiceMemoryJob} (h : Budget limit admin job)
    (hsame : job'.attemptCount = job.attemptCount)
    (hstatus : job'.status ≠ .pending ∧ job'.status ≠ .processing)
    (hretry : job'.status = .failed → job'.nextRetryAt.isSome = true → job.attemptCount ≤ limit) :
    Budget limit admin job' where
  attempts := hsame ▸ h.attempts
  pending hp := absurd hp hstatus.1
  retrying hf hs := hsame ▸ hretry hf hs
  processing hp := absurd hp hstatus.2

/-- One job before and after a transaction. -/
structure Moves (strict : Prop) (limit admin admin' : ℕ) (job job' : VoiceMemoryJob) : Prop where
  callId : job'.callId = job.callId
  turnIndex : job'.turnIndex = job.turnIndex
  budget : Budget limit admin job → Budget limit admin' job'
  kept : strict → settled job.status = true → job'.status = job.status

theorem Moves.refl (strict : Prop) {limit admin admin' : ℕ} (hadmin : admin ≤ admin')
    (job : VoiceMemoryJob) : Moves strict limit admin admin' job job :=
  ⟨rfl, rfl, fun h => h.mono hadmin, fun _ _ => rfl⟩

/-- The call's row keeps its number, its owner and its script, and a fence stays. -/
structure SameCall (call call' : MemoryCall) : Prop where
  id : call'.id = call.id
  userId : call'.userId = call.userId
  script : call'.script = call.script
  fence : call.deletionFenceAt.isSome = true → call'.deletionFenceAt.isSome = true

/-- A job that was not there before. -/
structure Created (db' : Db) (job : VoiceMemoryJob) : Prop where
  attempts : job.attemptCount = 0
  waiting : job.status ≠ .failed ∧ job.status ≠ .processing
  fenced : ∀ call, db'.calls job.callId = some call → call.deletionFenceAt.isSome = true →
    settled job.status = true

/-- What a transaction does that finds the rows `free` unlocked. With `strict` it is not a claim
of a settled job of a fenced call. -/
structure DbStep (free : ℕ → Prop) (strict : Prop) (db db' : Db) : Prop where
  calls : ∀ c, Option.Rel SameCall (db.calls c) (db'.calls c)
  jobs : ∀ id job, db.jobs id = some job → ∃ job', db'.jobs id = some job' ∧
    Moves strict (db.retryLimit job.callId) (db.adminRetries id) (db'.adminRetries id) job job'
  locked : ∀ id job, db.jobs id = some job → ¬free id → db'.jobs id = some job
  created : ∀ id job', db'.jobs id = some job' → db.jobs id = none → Created db' job'
  fences : ∀ c call call', db.calls c = some call → db'.calls c = some call' →
    call.deletionFenceAt = none → call'.deletionFenceAt.isSome = true →
      ∀ id job, db.jobs id = some job → job.callId = c → free id ∧
        ∃ job', db'.jobs id = some job' ∧ settled job'.status = true
  bounded : (∀ id job, db.jobs id = some job → id < db.nextJobId) →
    ∀ id job, db'.jobs id = some job → id < db'.nextJobId
  traces : db'.traces = db.traces

theorem sameCall_refl (call : MemoryCall) : SameCall call call := ⟨rfl, rfl, rfl, id⟩

theorem rel_refl_calls (found : Option MemoryCall) : Option.Rel SameCall found found := by
  cases found with
  | none => exact .none
  | some call => exact .some (sameCall_refl call)

/-- A transaction that leaves the calls and moves no job but one. -/
theorem DbStep.one {free : ℕ → Prop} {strict : Prop} {db db' : Db} {id : ℕ} {job job' : VoiceMemoryJob}
    (hjob : db.jobs id = some job) (hfree : free id) (hcalls : db'.calls = db.calls)
    (hjobs : db'.jobs = Function.update db.jobs id (some job'))
    (hnext : db'.nextJobId = db.nextJobId) (htraces : db'.traces = db.traces)
    (hadmin : ∀ other, db.adminRetries other ≤ db'.adminRetries other)
    (hmoves : Moves strict (db.retryLimit job.callId) (db.adminRetries id) (db'.adminRetries id)
      job job') : DbStep free strict db db' where
  calls c := by
    rw [hcalls]
    exact rel_refl_calls _
  jobs other found hfound := by
    rw [hjobs]
    by_cases h : other = id
    · subst h
      obtain rfl : job = found := Option.some.inj (hjob.symm.trans hfound)
      exact ⟨job', by simp, hmoves⟩
    · exact ⟨found, by simpa [h] using hfound, Moves.refl strict (hadmin other) found⟩
  locked other found hfound hlocked := by
    have h : other ≠ id := by
      rintro rfl
      exact hlocked hfree
    rw [hjobs]
    simpa [h] using hfound
  created other found hfound hnone := by
    by_cases h : other = id
    · subst h
      simp [hjob] at hnone
    · rw [hjobs, Function.update_of_ne h] at hfound
      simp [hnone] at hfound
  fences c call call' hcall hcall' hnone hsome := by
    rw [hcalls, hcall] at hcall'
    obtain rfl := Option.some.inj hcall'
    simp [hnone] at hsome
  bounded hbound other found hfound := by
    rw [hnext]
    by_cases h : other = id
    · subst h
      exact hbound other job hjob
    · rw [hjobs, Function.update_of_ne h] at hfound
      exact hbound other found hfound
  traces := htraces

theorem DbStep.refl (free : ℕ → Prop) (strict : Prop) (db : Db) : DbStep free strict db db where
  calls _ := rel_refl_calls _
  jobs id job hjob := ⟨job, hjob, Moves.refl strict le_rfl job⟩
  locked _ _ hjob _ := hjob
  created id job' hjob hnone := by simp [hnone] at hjob
  fences c call call' hcall hcall' hnone hsome := by
    obtain rfl := Option.some.inj (hcall.symm.trans hcall')
    simp [hnone] at hsome
  bounded h := h
  traces := rfl

/-! ### Small laws of the tables -/

@[simp] theorem setMemoryStatus_calls (db : Db) (t : ℕ) (s : MemoryStatus) :
    (db.setMemoryStatus t s).calls = db.calls := by
  unfold Db.setMemoryStatus
  split <;> rfl

@[simp] theorem setMemoryStatus_jobs (db : Db) (t : ℕ) (s : MemoryStatus) :
    (db.setMemoryStatus t s).jobs = db.jobs := by
  unfold Db.setMemoryStatus
  split <;> rfl

@[simp] theorem setMemoryStatus_nextJobId (db : Db) (t : ℕ) (s : MemoryStatus) :
    (db.setMemoryStatus t s).nextJobId = db.nextJobId := by
  unfold Db.setMemoryStatus
  split <;> rfl

@[simp] theorem setMemoryStatus_traces (db : Db) (t : ℕ) (s : MemoryStatus) :
    (db.setMemoryStatus t s).traces = db.traces := by
  unfold Db.setMemoryStatus
  split <;> rfl

@[simp] theorem setMemoryStatus_operations (db : Db) (t : ℕ) (s : MemoryStatus) :
    (db.setMemoryStatus t s).operations = db.operations := by
  unfold Db.setMemoryStatus
  split <;> rfl

theorem jobRows_eq_ok {db : Db} {id : ℕ} {job : VoiceMemoryJob} {call : MemoryCall}
    {turn : MemoryTurn} (h : db.jobRows id = .ok (job, call, turn)) :
    db.jobs id = some job ∧ db.calls job.callId = some call ∧ db.turns job.turnId = some turn := by
  unfold Db.jobRows at h
  obtain ⟨job₁, hjob, h⟩ := bind_eq_ok.mp h
  obtain ⟨call₁, hcall, h⟩ := bind_eq_ok.mp h
  obtain ⟨turn₁, hturn, h⟩ := bind_eq_ok.mp h
  simp only [Except.ok.injEq, Prod.mk.injEq] at h
  obtain ⟨rfl, rfl, rfl⟩ := h
  exact ⟨orRaise_eq_ok.mp hjob, orRaise_eq_ok.mp hcall, orRaise_eq_ok.mp hturn⟩

theorem retryLimit_eq {db : Db} {callId : Ident} {call : MemoryCall} (h : db.calls callId = some call) :
    db.retryLimit callId = limitOf call.script := by
  simp [Db.retryLimit, h]

theorem limitOf_eq {script : Dict Text Json} {policy : ℕ × List ℤ} (h : retryPolicy script = .ok policy) :
    limitOf script = policy.1 := by
  simp [limitOf, h]

/-- A policy that is accepted has one delay for each retry. -/
theorem retryPolicy_length {script : Dict Text Json} {policy : ℕ × List ℤ}
    (h : retryPolicy script = .ok policy) : policy.2.length = policy.1 := by
  unfold retryPolicy at h
  dsimp only at h
  split at h
  · split at h
    · split at h
      · rename_i hvalid
        simp only [Except.ok.injEq] at h
        subst h
        have := hvalid.2.2.1
        dsimp only
        omega
      · simp at h
    · simp at h
  · simp at h

/-- The table of delays is long enough for an attempt that may be tried again. -/
theorem backoffAt_ok {delays : List ℤ} {attempt : ℕ} (hone : 1 ≤ attempt)
    (hle : attempt ≤ delays.length) : ∃ delay, backoffAt delays attempt = .ok delay := by
  obtain ⟨n, rfl⟩ := Nat.exists_eq_add_of_le' hone
  refine ⟨delays[n], ?_⟩
  simp [backoffAt, List.getElem?_eq_getElem (show n < delays.length by omega)]

/-- `putOutcome` moves one job. -/
theorem DbStep.putOutcome {free : ℕ → Prop} {strict : Prop} {db : Db} {id : ℕ}
    {job job' : VoiceMemoryJob} (hjob : db.jobs id = some job) (hfree : free id)
    (hmoves : Moves strict (db.retryLimit job.callId) (db.adminRetries id) (db.adminRetries id)
      job job') : DbStep free strict db (db.putOutcome id job') := by
  refine @DbStep.one free strict db _ id job job' hjob hfree ?_ ?_ ?_ ?_ ?_ ?_ <;>
    simp [Db.putOutcome, Db.putJob, Db.adminRetries]
  exact hmoves

/-- `putJob` as well. -/
theorem DbStep.putJob {free : ℕ → Prop} {strict : Prop} {db : Db} {id : ℕ}
    {job job' : VoiceMemoryJob} (hjob : db.jobs id = some job) (hfree : free id)
    (hmoves : Moves strict (db.retryLimit job.callId) (db.adminRetries id) (db.adminRetries id)
      job job') : DbStep free strict db (db.putJob id job') := by
  refine @DbStep.one free strict db _ id job job' hjob hfree ?_ ?_ ?_ ?_ ?_ ?_ <;>
    simp [Db.putJob, Db.adminRetries]
  exact hmoves

/-- A job that comes to rest: what its transaction has to say of it. -/
theorem Moves.rest {strict : Prop} {limit admin : ℕ} {job job' : VoiceMemoryJob}
    (hcall : job'.callId = job.callId) (hturn : job'.turnIndex = job.turnIndex)
    (hattempts : job'.attemptCount = job.attemptCount)
    (hstatus : job'.status ≠ .pending ∧ job'.status ≠ .processing)
    (hretry : job'.status = .failed → job'.nextRetryAt.isSome = true → job.attemptCount ≤ limit)
    (hsettled : strict → settled job.status = false) : Moves strict limit admin admin job job' where
  callId := hcall
  turnIndex := hturn
  budget h := h.rest hattempts hstatus hretry
  kept hstrict h := by simp [hsettled hstrict] at h

theorem not_settled_of_expired {job : VoiceMemoryJob} {now : Instant} (h : job.expired now = true) :
    settled job.status = false := by
  simp only [VoiceMemoryJob.expired, Bool.and_eq_true, decide_eq_true_eq] at h
  simp [h.1, settled]

theorem not_settled_of_ready {job : VoiceMemoryJob} {now : Instant}
    (h : ¬(job.status != .pending && !job.dueRetry now) = true) :
    job.status = .pending ∨ job.status = .failed ∧ job.nextRetryAt.isSome = true := by
  by_cases hp : job.status = .pending
  · exact .inl hp
  · have hdue : job.dueRetry now = true := by simpa [hp] using h
    simp only [VoiceMemoryJob.dueRetry, Bool.and_eq_true, decide_eq_true_eq] at hdue
    refine .inr ⟨hdue.1, ?_⟩
    cases hnext : job.nextRetryAt with
    | none => simp [hnext] at hdue
    | some due => rfl

theorem leaseRetryAt_limit {policy : ℕ × List ℤ} {attempt : ℕ} {now : Instant}
    {retryAt : Option Instant} (h : leaseRetryAt policy attempt now = .ok retryAt)
    (hsome : retryAt.isSome = true) : attempt ≤ policy.1 := by
  unfold leaseRetryAt at h
  split at h
  · rename_i hrange
    exact hrange.2
  · simp only [Except.ok.injEq] at h
    simp [← h] at hsome

/-- A claim. It is strict when it does not claim a settled job of a fenced call. -/
theorem claim_step (free : ℕ → Prop) {strict : Prop} {db db' : Db} {id : ℕ} {token : Token}
    {now : Instant} {result : Claimed} (h : db.claim id token now = .ok (db', result))
    (hfree : free id)
    (hstrict : strict → ∀ job call, db.jobs id = some job → db.calls job.callId = some call →
      call.deletionFenceAt.isSome = true → settled job.status = false) :
    DbStep free strict db db' := by
  unfold Db.claim at h
  obtain ⟨⟨job, call, turn⟩, hrows, h⟩ := bind_eq_ok.mp h
  obtain ⟨hjob, hcall, -⟩ := jobRows_eq_ok hrows
  dsimp only at h
  split at h
  · rename_i hfence
    obtain ⟨rfl, -⟩ := by simpa using h
    exact .putOutcome hjob hfree
      (.rest rfl rfl rfl (by simp) (by simp) fun hs => hstrict hs job call hjob hcall hfence)
  · obtain ⟨policy, hpolicy, h⟩ := bind_eq_ok.mp h
    have hlimit : db.retryLimit job.callId = policy.1 := by
      rw [retryLimit_eq hcall, limitOf_eq hpolicy]
    split at h
    · rename_i hlost
      obtain ⟨rfl, -⟩ := by simpa using h
      refine .putOutcome hjob hfree (.rest rfl rfl rfl (by simp) (by simp) fun _ => ?_)
      simp only [Bool.and_eq_true, Bool.or_eq_true, decide_eq_true_eq] at hlost
      rcases hlost.1 with hexpired | hfailed
      · exact not_settled_of_expired hexpired
      · simp [hfailed, settled]
    · split at h
      · rename_i hexpired
        obtain ⟨retryAt, hretry, h⟩ := bind_eq_ok.mp h
        obtain ⟨rfl, -⟩ := by simpa using h
        refine .putOutcome hjob hfree (.rest rfl rfl rfl (by simp) (fun _ hsome => ?_)
          fun _ => not_settled_of_expired hexpired)
        rw [hlimit]
        exact leaseRetryAt_limit hretry hsome
      · split at h
        · obtain ⟨rfl, -⟩ := by simpa using h
          exact .refl free strict db
        · rename_i hready
          have hready := not_settled_of_ready hready
          have hopen : settled job.status = false := by
            rcases hready with hp | ⟨hf, -⟩ <;> simp [*, settled]
          split at h
          · obtain ⟨rfl, -⟩ := by simpa using h
            exact .putOutcome hjob hfree (.rest rfl rfl rfl (by simp) (by simp) fun _ => hopen)
          · split at h
            · obtain ⟨rfl, -⟩ := by simpa using h
              exact .putOutcome hjob hfree (.rest rfl rfl rfl (by simp) (by simp) fun _ => hopen)
            · obtain ⟨rfl, -⟩ := by simpa using h
              refine .putOutcome hjob hfree ⟨rfl, rfl, fun hbudget => ?_, fun _ hs => ?_⟩
              · -- the attempt is the one the pending job or the scheduled retry was waiting for
                have hroom : job.attemptCount ≤ db.retryLimit job.callId + db.adminRetries id := by
                  rcases hready with hp | ⟨hf, hsome⟩
                  · exact hbudget.pending hp
                  · exact (hbudget.retrying hf hsome).trans (by omega)
                exact ⟨by simp only; omega, by simp, by simp, fun _ => by simp⟩
              · simp [hopen] at hs

/-! ### The other transactions of a worker -/

theorem ownedBy_iff {job : VoiceMemoryJob} {token : Token} {now : Instant} :
    job.ownedBy token now = true ↔ job.status = .processing ∧ job.leaseOwner = some token ∧
      ∃ expiry, job.leaseExpiresAt = some expiry ∧ now < expiry := by
  unfold VoiceMemoryJob.ownedBy
  cases job.leaseExpiresAt <;> simp [and_assoc]

theorem saveSnapshot_step (free : ℕ → Prop) (strict : Prop) {db db' : Db} {id : ℕ} {token : Token}
    {items : List MemoryItem} {dropped : ℕ} {now : Instant}
    (h : db.saveSnapshot id token items dropped now = .ok (some db')) (hfree : free id) :
    DbStep free strict db db' := by
  unfold Db.saveSnapshot at h
  obtain ⟨⟨job, call, turn⟩, hrows, h⟩ := bind_eq_ok.mp h
  obtain ⟨hjob, -, -⟩ := jobRows_eq_ok hrows
  dsimp only at h
  split at h
  · simp at h
  · simp only [Except.ok.injEq, Option.some.injEq] at h
    subst h
    exact .putJob hjob hfree ⟨rfl, rfl, fun b => ⟨b.attempts, b.pending, b.retrying, b.processing⟩,
      fun _ _ => rfl⟩

/-- What a write has found when it sends the upsert. -/
structure Clear (db : Db) (id : ℕ) (token : Token) (callId : Ident) (user index : ℕ) (doc : Text)
    (callRow : ℕ) : Prop where
  job : ∃ job, db.jobs id = some job ∧ job.status = .processing ∧ job.leaseOwner = some token
  call : ∃ call, db.calls callId = some call ∧ call.id = callRow ∧ call.deletionFenceAt = none ∧
    ∀ trace ∈ db.traces, trace.newer db doc call user index = false
  fresh : ∀ trace ∈ db.traces,
    ¬(trace.callId = callId ∧ trace.turnIndex = index ∧ trace.docId = doc)

theorem checkWrite_step (free : ℕ → Prop) (strict : Prop) {db db' : Db} {id : ℕ} {token : Token}
    {callId : Ident} {user index : ℕ} {doc : Text} {now : Instant} {result : WriteCheck}
    (h : db.checkWrite id token callId user index doc now = .ok (db', result)) (hfree : free id) :
    DbStep free strict db db' ∧
      ∀ callRow, result = .send callRow → db' = db ∧ Clear db id token callId user index doc callRow := by
  unfold Db.checkWrite at h
  obtain ⟨job, hjob, h⟩ := bind_eq_ok.mp h
  obtain ⟨call, hcall, h⟩ := bind_eq_ok.mp h
  obtain ⟨turn, -, h⟩ := bind_eq_ok.mp h
  rw [orRaise_eq_ok] at hjob hcall
  split at h
  · split at h
    · rename_i hopen
      obtain ⟨rfl, rfl⟩ := by simpa using h
      have hopen : settled job.status = false := by simp_all
      exact ⟨.putOutcome hjob hfree (.rest rfl rfl rfl (by simp) (by simp) fun _ => hopen), by simp⟩
    · obtain ⟨rfl, rfl⟩ := by simpa using h
      exact ⟨.refl free strict db, by simp⟩
  · rename_i howned
    have howned : call.deletionFenceAt = none ∧ job.ownedBy token now = true := by simpa using howned
    have hstatus := (ownedBy_iff.mp howned.2).1
    split at h
    · obtain ⟨rfl, rfl⟩ := by simpa using h
      exact ⟨.putOutcome hjob hfree (.rest rfl rfl rfl (by simp [VoiceMemoryJob.cancelled])
        (by simp [VoiceMemoryJob.cancelled]) fun _ => by simp [hstatus, settled]), by simp⟩
    · split at h
      · obtain ⟨rfl, rfl⟩ := by simpa using h
        exact ⟨.refl free strict db, by simp⟩
      · rename_i hnewer
        split at h
        · obtain ⟨rfl, rfl⟩ := by simpa using h
          exact ⟨.refl free strict db, by simp⟩
        · rename_i hfresh
          obtain ⟨rfl, rfl⟩ := by simpa using h
          refine ⟨.refl free strict db, ?_⟩
          rintro callRow ⟨⟩
          refine ⟨rfl, ⟨job, hjob, hstatus, (ownedBy_iff.mp howned.2).2.1⟩,
            ⟨call, hcall, rfl, howned.1, ?_⟩, ?_⟩
          · simpa using hnewer
          · simpa using hfresh

theorem finishRetryAt_limit {call : MemoryCall} {status : MemoryStatus} {reason : Option FailReason}
    {attempt : ℕ} {now : Instant} {retryAt : Option Instant}
    (h : finishRetryAt call status reason attempt now = .ok retryAt) (hsome : retryAt.isSome = true) :
    attempt ≤ limitOf call.script := by
  unfold finishRetryAt at h
  split at h
  · obtain ⟨policy, hpolicy, h⟩ := bind_eq_ok.mp h
    rw [limitOf_eq hpolicy]
    split at h
    · assumption
    · simp only [Except.ok.injEq] at h
      simp [← h] at hsome
  · simp only [Except.ok.injEq] at h
    simp [← h] at hsome

theorem finish_step (free : ℕ → Prop) (strict : Prop) {db db' : Db} {id : ℕ} {token : Token}
    {status : MemoryStatus} {reason : Option FailReason} {now : Instant}
    (h : db.finish id token status reason now = .ok db') (hfree : free id)
    (hstatus : status ≠ .pending ∧ status ≠ .processing) : DbStep free strict db db' := by
  unfold Db.finish at h
  obtain ⟨⟨job, call, turn⟩, hrows, h⟩ := bind_eq_ok.mp h
  obtain ⟨hjob, hcall, -⟩ := jobRows_eq_ok hrows
  dsimp only at h
  split at h
  · obtain rfl := by simpa using h
    exact .refl free strict db
  · rename_i howned
    have howned : job.ownedBy token now = true := by simpa using howned
    obtain ⟨retryAt, hretry, h⟩ := bind_eq_ok.mp h
    obtain rfl := by simpa using h
    refine .putOutcome hjob hfree (.rest rfl rfl rfl ?_ (fun _ hsome => ?_) fun _ => ?_)
    · dsimp only
      split
      · simp
      · exact hstatus
    · rw [retryLimit_eq hcall]
      exact finishRetryAt_limit hretry hsome
    · simp [(ownedBy_iff.mp howned).1, settled]

/-! ### The back-off table -/

theorem backoffAt_policy {script : Dict Text Json} {policy : ℕ × List ℤ} {attempt : ℕ}
    (hpolicy : retryPolicy script = .ok policy) (hone : 1 ≤ attempt) (hle : attempt ≤ policy.1) :
    ∃ delay, backoffAt policy.2 attempt = .ok delay :=
  backoffAt_ok hone (by rwa [retryPolicy_length hpolicy])

theorem retryPolicy_error {script : Dict Text Json} {e : MemoryError}
    (h : retryPolicy script = .error e) : e = .retryPolicyInvalid := by
  unfold retryPolicy at h
  dsimp only at h
  split at h
  · split at h
    · split at h
      · simp at h
      · simpa using h.symm
    · simpa using h.symm
  · simpa using h.symm

theorem jobRows_error {db : Db} {id : ℕ} {e : MemoryError} (h : db.jobRows id = .error e) :
    e = .rowMissing := by
  unfold Db.jobRows at h
  cases hjob : db.jobs id with
  | none => simpa [orRaise, hjob, bind, Except.bind] using h.symm
  | some job =>
    cases hcall : db.calls job.callId with
    | none => simpa [orRaise, hjob, hcall, bind, Except.bind] using h.symm
    | some call =>
      cases hturn : db.turns job.turnId with
      | none => simpa [orRaise, hjob, hcall, hturn, bind, Except.bind] using h.symm
      | some turn => simp [orRaise, hjob, hcall, hturn, bind, Except.bind] at h

/-- A claim reads the table only within its length. -/
theorem claim_ne_indexError (db : Db) (id : ℕ) (token : Token) (now : Instant) :
    db.claim id token now ≠ .error .indexError := by
  intro h
  unfold Db.claim at h
  cases hrows : db.jobRows id with
  | error e =>
    rw [hrows] at h
    obtain rfl := jobRows_error hrows
    simp [bind, Except.bind] at h
  | ok rows =>
    obtain ⟨job, call, turn⟩ := rows
    rw [hrows] at h
    simp only [ok_bind] at h
    split at h
    · simp at h
    · cases hpolicy : retryPolicy call.script with
      | error e =>
        rw [hpolicy] at h
        obtain rfl := retryPolicy_error hpolicy
        simp [bind, Except.bind] at h
      | ok policy =>
        rw [hpolicy] at h
        simp only [ok_bind] at h
        split at h
        · simp at h
        · split at h
          · unfold leaseRetryAt at h
            split at h
            · rename_i hrange
              obtain ⟨delay, hdelay⟩ := backoffAt_policy hpolicy hrange.1 hrange.2
              simp [hdelay] at h
            · simp at h
          · split at h
            · simp at h
            · split at h
              · simp at h
              · split at h <;> simp at h

theorem finishRetryAt_ne_indexError {call : MemoryCall} {status : MemoryStatus}
    {reason : Option FailReason} {attempt : ℕ} {now : Instant} (hone : 1 ≤ attempt) :
    finishRetryAt call status reason attempt now ≠ .error .indexError := by
  intro h
  unfold finishRetryAt at h
  split at h
  · cases hpolicy : retryPolicy call.script with
    | error e =>
      rw [hpolicy] at h
      obtain rfl := retryPolicy_error hpolicy
      simp [bind, Except.bind] at h
    | ok policy =>
      rw [hpolicy] at h
      simp only [ok_bind] at h
      split at h
      · rename_i hle
        obtain ⟨delay, hdelay⟩ := backoffAt_policy hpolicy hone hle
        simp [hdelay] at h
      · simp at h
  · simp at h

/-- A worker that ends a job within its budget reads the table only within its length. -/
theorem finish_ne_indexError {db : Db} {id : ℕ} {token : Token} {status : MemoryStatus}
    {reason : Option FailReason} {now : Instant}
    (hbudget : ∀ job, db.jobs id = some job → job.status = .processing → 1 ≤ job.attemptCount) :
    db.finish id token status reason now ≠ .error .indexError := by
  intro h
  unfold Db.finish at h
  cases hrows : db.jobRows id with
  | error e =>
    rw [hrows] at h
    obtain rfl := jobRows_error hrows
    simp [bind, Except.bind] at h
  | ok rows =>
    obtain ⟨job, call, turn⟩ := rows
    obtain ⟨hjob, -, -⟩ := jobRows_eq_ok hrows
    rw [hrows] at h
    simp only [ok_bind] at h
    by_cases howned : job.ownedBy token now = true
    · have hone := hbudget job hjob (ownedBy_iff.mp howned).1
      rw [if_neg (by simp [howned])] at h
      revert h
      generalize (if call.deletionFenceAt.isSome = true then MemoryStatus.cancelled else status) = s
      generalize (if call.deletionFenceAt.isSome = true then some FailReason.deletionFence
        else reason) = r
      intro h
      cases hretry : finishRetryAt call s r job.attemptCount now with
      | error e =>
        rw [hretry] at h
        have he : e = .indexError := by simpa [bind, Except.bind] using h
        exact finishRetryAt_ne_indexError hone (he ▸ hretry)
      | ok retryAt => simp [hretry] at h
    · rw [if_pos (by simp [howned])] at h
      simp at h

/-! ### Fences, sweeps and administrators -/

/-- A transaction that rewrites the jobs one by one. -/
theorem DbStep.each {free : ℕ → Prop} {strict : Prop} {db db' : Db}
    {f : ℕ → VoiceMemoryJob → VoiceMemoryJob}
    (hcalls : ∀ c, Option.Rel SameCall (db.calls c) (db'.calls c))
    (hjobs : ∀ id, db'.jobs id = (db.jobs id).map (f id)) (hnext : db'.nextJobId = db.nextJobId)
    (htraces : db'.traces = db.traces) (hadmin : db'.operations = db.operations)
    (hmoves : ∀ id job, db.jobs id = some job → f id job = job ∨ free id ∧
      Moves strict (db.retryLimit job.callId) (db.adminRetries id) (db.adminRetries id) job (f id job))
    (hfences : ∀ c call call', db.calls c = some call → db'.calls c = some call' →
      call.deletionFenceAt = none → call'.deletionFenceAt.isSome = true →
        ∀ id job, db.jobs id = some job → job.callId = c → free id ∧
          settled (f id job).status = true) : DbStep free strict db db' where
  calls := hcalls
  jobs id job hjob := by
    refine ⟨f id job, by simp [hjobs, hjob], ?_⟩
    have hsame : db'.adminRetries id = db.adminRetries id := by simp [Db.adminRetries, hadmin]
    rw [hsame]
    rcases hmoves id job hjob with heq | ⟨-, h⟩
    · rw [heq]
      exact .refl strict le_rfl job
    · exact h
  locked id job hjob hlocked := by
    rcases hmoves id job hjob with heq | ⟨hfree, -⟩
    · simp [hjobs, hjob, heq]
    · exact absurd hfree hlocked
  created id job' hjob' hnone := by simp [hjobs, hnone] at hjob'
  fences c call call' hcall hcall' hnone hsome id job hjob hc := by
    obtain ⟨hfree, hsettled⟩ := hfences c call call' hcall hcall' hnone hsome id job hjob hc
    exact ⟨hfree, f id job, by simp [hjobs, hjob], hsettled⟩
  bounded hbound id job' hjob' := by
    rw [hjobs, Option.map_eq_some_iff] at hjob'
    obtain ⟨job, hjob, -⟩ := hjob'
    rw [hnext]
    exact hbound id job hjob
  traces := htraces

theorem openJob_iff {db : Db} {callId : Ident} {id : ℕ} {job : VoiceMemoryJob}
    (hjob : db.jobs id = some job) :
    db.openJob callId id = true ↔ job.callId = callId ∧ settled job.status = false := by
  simp [Db.openJob, hjob]

theorem moves_cancelled {strict : Prop} {limit admin : ℕ} {job : VoiceMemoryJob}
    (reason : FailReason) (hopen : settled job.status = false) :
    Moves strict limit admin admin job (job.cancelled reason) :=
  .rest rfl rfl rfl (by simp [VoiceMemoryJob.cancelled]) (by simp [VoiceMemoryJob.cancelled])
    fun _ => hopen

theorem moves_cleared {strict : Prop} {limit admin : ℕ} (job : VoiceMemoryJob) :
    Moves strict limit admin admin job { job with extractionSnapshot := none } :=
  ⟨rfl, rfl, fun b => ⟨b.attempts, b.pending, b.retrying, b.processing⟩, fun _ _ => rfl⟩

theorem fence_step {free : ℕ → Prop} {strict : Prop} {db : Db} {callId : Ident} {now : Instant}
    (hfree : ∀ id job, db.jobs id = some job → job.callId = callId → free id) :
    DbStep free strict db (db.fence callId now) := by
  unfold Db.fence
  cases hcall : db.calls callId with
  | none => exact .refl free strict db
  | some call =>
    refine DbStep.each (f := fun id job =>
        if db.openJob callId id then job.cancelled .deletionFence else job)
      (fun c => ?_) (fun _ => rfl) rfl rfl rfl (fun id job hjob => ?_) ?_
    · by_cases h : c = callId
      · subst h
        simp only [hcall, Function.update_self]
        refine .some ⟨rfl, rfl, rfl, fun hf => ?_⟩
        obtain ⟨at', hat⟩ := Option.isSome_iff_exists.mp hf
        simp [hat]
      · simp only [Function.update_of_ne h]
        exact rel_refl_calls _
    · by_cases hopen : db.openJob callId id = true
      · obtain ⟨hc, hs⟩ := (openJob_iff hjob).mp hopen
        rw [if_pos hopen]
        exact .inr ⟨hfree id job hjob hc, moves_cancelled _ hs⟩
      · exact .inl (by simp [hopen])
    · intro c call₁ call' hcall₁ hcall' hnone hsome id job hjob hc
      by_cases h : c = callId
      · subst h
        refine ⟨hfree id job hjob hc, ?_⟩
        by_cases hopen : db.openJob c id = true
        · simp [hopen, VoiceMemoryJob.cancelled, settled]
        · have hsettled : settled job.status = true := by
            by_contra hnot
            exact hopen ((openJob_iff hjob).mpr ⟨hc, by simpa using hnot⟩)
          simpa [hopen] using hsettled
      · simp only [Function.update_of_ne h] at hcall'
        obtain rfl := Option.some.inj (hcall₁.symm.trans hcall')
        simp [hnone] at hsome

theorem sweep_step {free : ℕ → Prop} {strict : Prop} {db : Db} {callId : Ident}
    {agedBefore now : Instant}
    (hfree : ∀ id job, db.jobs id = some job → job.callId = callId → free id) :
    DbStep free strict db (db.sweep callId agedBefore now) := by
  unfold Db.sweep
  cases hcall : db.calls callId with
  | none => exact .refl free strict db
  | some call =>
    refine DbStep.each (fun c => rel_refl_calls _) (fun _ => rfl) rfl rfl rfl (fun id job hjob => ?_) ?_
    · by_cases hc : job.callId = callId
      · rw [if_pos hc]
        cases db.sweepReason call job agedBefore now with
        | none => exact .inl rfl
        | some reason =>
          refine .inr ⟨hfree id job hjob hc, ?_⟩
          dsimp only
          by_cases hs : settled job.status = true
          · rw [if_pos hs]
            exact moves_cleared job
          · rw [if_neg hs]
            exact moves_cancelled reason (by simpa using hs)
      · exact .inl (if_neg hc)
    · intro c call₁ call' hcall₁ hcall' hnone hsome
      obtain rfl := Option.some.inj (hcall₁.symm.trans hcall')
      simp [hnone] at hsome

theorem purgeSnapshot_step {free : ℕ → Prop} {strict : Prop} {db db' : Db} {id : ℕ} {now : Instant}
    (h : db.purgeSnapshot id now = .ok db') (hfree : free id) : DbStep free strict db db' := by
  unfold Db.purgeSnapshot at h
  obtain ⟨⟨job, call, turn⟩, hrows, h⟩ := bind_eq_ok.mp h
  obtain ⟨hjob, -, -⟩ := jobRows_eq_ok hrows
  dsimp only at h
  by_cases hkept : (call.deletionFenceAt.isNone && !sourceExpired call turn now) = true
  · rw [if_pos hkept] at h
    obtain rfl := by simpa using h
    exact .refl free strict db
  · rw [if_neg hkept] at h
    by_cases hs : settled job.status = true
    · rw [if_pos hs] at h
      obtain rfl := by simpa using h
      exact .putJob hjob hfree (moves_cleared job)
    · rw [if_neg hs] at h
      obtain rfl := by simpa using h
      exact .putOutcome hjob hfree (moves_cancelled _ (by simpa using hs))

theorem retry_step {free : ℕ → Prop} {strict : Prop} {db db' : Db} {id : ℕ} {now : Instant}
    (h : db.retry id now = .ok db') (hfree : free id) : DbStep free strict db db' := by
  unfold Db.retry at h
  obtain ⟨⟨job, call, turn⟩, hrows, h⟩ := bind_eq_ok.mp h
  obtain ⟨hjob, -, -⟩ := jobRows_eq_ok hrows
  obtain ⟨_, -, h⟩ := bind_eq_ok.mp h
  obtain ⟨_, hretryable, h⟩ := bind_eq_ok.mp h
  obtain ⟨_, -, h⟩ := bind_eq_ok.mp h
  have hfailed := (require_eq_ok.mp hretryable).2.2.1
  obtain rfl := by simpa using h
  refine @DbStep.one _ _ _ _ _ _ { job with
      status := .pending, nextRetryAt := none, leaseOwner := none, leaseExpiresAt := none } hjob hfree
    ?_ ?_ ?_ ?_ (fun other => ?_) ⟨rfl, rfl, fun b => ⟨?_, fun _ => ?_, by simp, by simp⟩, fun _ hs => ?_⟩
  · simp [Db.putOutcome, Db.putJob]
  · simp [Db.putOutcome, Db.putJob]
  · simp [Db.putOutcome, Db.putJob]
  · simp [Db.putOutcome, Db.putJob]
  · simp [Db.adminRetries]
  · have := b.attempts
    simp only [Db.adminRetries, List.count_append] at *
    omega
  · -- the extra attempt is paid for by the logged operation
    have := b.attempts
    simp only [Db.adminRetries, List.count_append, List.count_singleton_self] at *
    omega
  · simp [hfailed, settled] at hs

/-! ### Making jobs -/

/-- A transaction that only makes jobs. -/
structure Makes (db db' : Db) : Prop where
  calls : db'.calls = db.calls
  jobs : ∀ id job, db.jobs id = some job → db'.jobs id = some job
  created : ∀ id job', db'.jobs id = some job' → db.jobs id = none → Created db' job'
  bounded : (∀ id job, db.jobs id = some job → id < db.nextJobId) →
    ∀ id job, db'.jobs id = some job → id < db'.nextJobId
  traces : db'.traces = db.traces
  operations : db'.operations = db.operations

theorem Makes.refl (db : Db) : Makes db db :=
  ⟨rfl, fun _ _ h => h, fun _ _ h hn => by simp [hn] at h, fun h => h, rfl, rfl⟩

theorem Makes.trans {db db' db'' : Db} (h : Makes db db') (h' : Makes db' db'') : Makes db db'' where
  calls := h'.calls.trans h.calls
  jobs id job hjob := h'.jobs id job (h.jobs id job hjob)
  created id job hjob hnone := by
    cases hmid : db'.jobs id with
    | none => exact h'.created id job hjob hmid
    | some mid =>
      obtain rfl := Option.some.inj ((h'.jobs id mid hmid).symm.trans hjob)
      have hc := h.created id mid hmid hnone
      exact ⟨hc.attempts, hc.waiting, by rw [h'.calls]; exact hc.fenced⟩
  bounded hbound := h'.bounded (h.bounded hbound)
  traces := h'.traces.trans h.traces
  operations := h'.operations.trans h.operations

theorem Makes.step {free : ℕ → Prop} {strict : Prop} {db db' : Db} (h : Makes db db') :
    DbStep free strict db db' where
  calls c := by
    rw [h.calls]
    exact rel_refl_calls _
  jobs id job hjob := ⟨job, h.jobs id job hjob,
    .refl strict (by simp [Db.adminRetries, h.operations]) job⟩
  locked id job hjob _ := h.jobs id job hjob
  created := h.created
  fences c call call' hcall hcall' hnone hsome := by
    rw [h.calls, hcall] at hcall'
    obtain rfl := Option.some.inj hcall'
    simp [hnone] at hsome
  bounded := h.bounded
  traces := h.traces

theorem stageJob_makes {db : Db} {call : MemoryCall} {turnId : ℕ} {turn : MemoryTurn} {now : Instant}
    (hcall : db.calls turn.callId = some call)
    (hbound : ∀ id job, db.jobs id = some job → id < db.nextJobId) :
    Makes db (db.stageJob call turnId turn now) := by
  unfold Db.stageJob
  cases db.jobOf turnId with
  | some _ => exact .refl db
  | none =>
    refine ⟨by simp, fun id job hjob => ?_, fun id job' hjob' hnone => ?_, fun _ id job hjob => ?_,
      by simp, by simp⟩
    · have hne : id ≠ db.nextJobId := (hbound id job hjob).ne
      simpa [Function.update_of_ne hne] using hjob
    · by_cases hid : id = db.nextJobId
      · subst hid
        simp only [Function.update_self, Option.some.injEq] at hjob'
        subst hjob'
        refine ⟨rfl, ?_, ?_⟩
        · dsimp only
          split
          · simp
          · split <;> simp
        · intro call' hcall' hfence
          simp only [setMemoryStatus_calls] at hcall'
          obtain rfl := Option.some.inj (hcall.symm.trans hcall')
          simp [hfence, settled]
      · simp [Function.update_of_ne hid, hnone] at hjob'
    · by_cases hid : id = db.nextJobId
      · subst hid
        simp
      · have hlt := hbound id job (by simpa [Function.update_of_ne hid] using hjob)
        dsimp only
        omega

theorem enqueue_makes {db : Db} {turnId : ℕ} {now : Instant}
    (hbound : ∀ id job, db.jobs id = some job → id < db.nextJobId) :
    Makes db (db.enqueue turnId now) := by
  unfold Db.enqueue
  cases db.turns turnId with
  | none => exact .refl db
  | some turn =>
    cases hcall : db.calls turn.callId with
    | none => simpa [hcall] using Makes.refl db
    | some call =>
      simp only [hcall]
      split
      · exact stageJob_makes hcall hbound
      · exact .refl db

theorem compensate_makes {db : Db} {callId : Ident} {turnIds : List ℕ} {now : Instant}
    (hbound : ∀ id job, db.jobs id = some job → id < db.nextJobId) :
    Makes db (db.compensate callId turnIds now) := by
  unfold Db.compensate
  cases hcall : db.calls callId with
  | none => exact .refl db
  | some call =>
    dsimp only
    split
    · exact .refl db
    · clear * - hcall hbound
      induction turnIds generalizing db with
      | nil => exact .refl db
      | cons turnId turnIds ih =>
        rw [List.foldl_cons]
        refine (fun h : Makes db _ =>
          h.trans (ih (h.bounded hbound) (by rw [h.calls]; exact hcall))) ?_
        cases db.turns turnId with
        | none => exact .refl db
        | some turn =>
          dsimp only
          split
          · rename_i hturn
            have hturn : turn.callId = callId := by simp_all
            exact stageJob_makes (hturn ▸ hcall) hbound
          · exact .refl db

end CompanionBackend.MemoryJobs
