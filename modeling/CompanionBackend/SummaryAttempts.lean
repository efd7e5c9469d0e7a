import CompanionBackend.SummaryJobs

/-!
# A summary is written once

The job of a call moves along few edges, and its result is committed by one attempt, which still has
its lease, before the call is fenced and before the texts it was made from expire. Whatever the
call and its follow-ups say of a summary is of that commit.
-/
namespace CompanionBackend.SummaryAttempts

open Runs TaskSystems TaskSystem VoiceModels VoiceLifecycle SummaryJobs
open VoiceRetention (due)
open AdminSessions (Role)

/-- Written with a valid lease, before a fence and before the texts expired. -/
structure Timely (r : Written) : Prop where
  lease : ∃ t, r.leaseExpiresAt = some t ∧ r.writtenAt < t
  unfenced : r.fenced = false
  sources : ∀ turn ∈ r.inputs, ∃ t, turn.effectiveTextExpiresAt = some t ∧ r.writtenAt < t

/-- A follow-up on the conversation. -/
def ofSummary (kind : FollowupType) : Bool := kind ≠ .missedExplanation

/-- The job, the call and the follow-ups agree with what has been claimed and written. -/
structure Sound (d : SummaryDb) : Prop where
  single : d.jobs.length ≤ 1
  attempts : ∀ job ∈ d.jobs, job.attemptCount = d.claims.length
  owner : ∀ job ∈ d.jobs, ∀ o ∈ job.leaseOwner, o ∈ d.claims
  unclaimed : d.jobs = [] → d.claims = [] ∧ d.writes = []
  opened : d.call.row.status.active = true → d.jobs = []
  once : d.writes.length ≤ 1
  timely : ∀ r ∈ d.writes, Timely r ∧ r.owner ∈ d.claims
  settled : d.writes ≠ [] → ∀ job ∈ d.jobs, job.status = .success ∨
    (job.status = .cancelled ∧ d.call.fenced = true)
  ready : d.call.row.summaryStatus = .ready ↔ d.writes ≠ []
  summary : ∀ s, d.call.summary = some s → ∃ r ∈ d.writes, r.result.summary = s
  kept : d.call.fenced = false → ∀ r ∈ d.writes, d.call.summary = some r.result.summary
  followups : d.followups.filter ofSummary = d.writes.flatMap fun r => r.result.followup.toList

/-- What may become of a job in one transaction. -/
structure Follows (d d' : SummaryDb) (job job' : SummaryJob) : Prop where
  cancelled : job.status = .cancelled → job'.status = .cancelled
  success : job.status = .success → d'.call.fenced = false → job'.status = .success
  failed : job.status = .failed → job'.status = .failed ∨ job'.status = .cancelled ∨
    job'.status = .pending ∧ d'.retries = d.retries + 1

def Moves (d d' : SummaryDb) : Prop := ∀ job ∈ d.jobs, ∃ job' ∈ d'.jobs, Follows d d' job job'

theorem moves_refl (d : SummaryDb) : Moves d d := fun job hjob =>
  ⟨job, hjob, id, fun h _ => h, Or.inl⟩

/-- The texts of an attempt are all there until its deadline. -/
def Built : SummaryTask → Prop
  | .running _ inputs expiry | .committing _ inputs expiry _ =>
    ∀ turn ∈ inputs, ∃ t, turn.effectiveTextExpiresAt = some t ∧ expiry ≤ t
  | _ => True

/-! ### The job that a query finds -/

theorem failed_ne : SummaryStatus.failed ≠ .ready := by decide

theorem notApplicable_ne : SummaryStatus.notApplicable ≠ .ready := by decide

theorem pending_ne : SummaryStatus.pending ≠ .ready := by decide

section Found

variable {d : SummaryDb} {job : SummaryJob}

theorem jobs_eq_of_head (h : Sound d) (hjob : d.jobs.head? = some job) : d.jobs = [job] := by
  have hsingle := h.single
  cases hjobs : d.jobs with
  | nil => simp [hjobs] at hjob
  | cons first rest =>
    obtain rfl : first = job := by simpa [hjobs] using hjob
    obtain rfl : rest = [] := by simpa [hjobs] using hsingle
    rfl

/-- A job that is neither done nor cancelled has written nothing. -/
theorem unwritten (h : Sound d) (hjob : d.jobs.head? = some job) (hsuccess : job.status ≠ .success)
    (hcancelled : job.status ≠ .cancelled) : d.writes = [] := by
  by_contra hwritten
  have hmem : job ∈ d.jobs := by simp [jobs_eq_of_head h hjob]
  rcases h.settled hwritten job hmem with hs | hs
  · exact hsuccess hs
  · exact hcancelled hs.1

theorem not_active (h : Sound d) (hjob : d.jobs.head? = some job) :
    d.call.row.status.active = false := by
  by_contra hactive
  have hnone := h.opened (by simpa using hactive)
  simp [hnone] at hjob

/-- The job is written anew while nothing has been written to the call. -/
theorem sound_unwritten {d' : SummaryDb} (h : Sound d) (hjob : d.jobs.head? = some job)
    (hnone : d.writes = []) {job' : SummaryJob} {status : SummaryStatus} (hstatus : status ≠ .ready)
    (hd' : d' = { (d.putJob job').setSummaryStatus status with
      claims := d'.claims, retries := d'.retries })
    (hcount : job'.attemptCount = d'.claims.length) (howner : ∀ o ∈ job'.leaseOwner, o ∈ d'.claims) :
    Sound d' := by
  have hjobs : d'.jobs = [job'] := by
    rw [hd']
    simp [SummaryDb.setSummaryStatus, SummaryDb.putJob, jobs_eq_of_head h hjob]
  have hwrites : d'.writes = [] := by rw [hd']; exact hnone
  have hsummary : d'.call.summary = d.call.summary := by rw [hd']; rfl
  have hfollowups : d'.followups = d.followups := by rw [hd']; rfl
  refine
    { single := by simp [hjobs]
      attempts := by simpa [hjobs] using hcount
      owner := by simpa [hjobs] using howner
      unclaimed := by simp [hjobs]
      opened := fun hactive => ?_
      once := by simp [hwrites]
      timely := by simp [hwrites]
      settled := fun hw => absurd hwrites hw
      ready := ?_
      summary := fun s hs => ?_
      kept := by simp [hwrites]
      followups := ?_ }
  · have hsame : d'.call.row.status = d.call.row.status := by rw [hd']; rfl
    rw [hsame, not_active h hjob] at hactive
    cases hactive
  · have hrow : d'.call.row.summaryStatus = status := by rw [hd']; rfl
    simp [hrow, hwrites, hstatus]
  · obtain ⟨r, hr, -⟩ := h.summary s (hsummary ▸ hs)
    simp [hnone] at hr
  · rw [hfollowups, h.followups, hnone, hwrites]

theorem sound_settle (h : Sound d) (hjob : d.jobs.head? = some job) (hnone : d.writes = [])
    {status : JobStatus} {reason : Option FailReason} {summary : SummaryStatus}
    (hsummary : summary ≠ .ready) : Sound (d.settle job status reason summary) := by
  have hmem : job ∈ d.jobs := by simp [jobs_eq_of_head h hjob]
  exact sound_unwritten h hjob hnone hsummary rfl (h.attempts job hmem) (by simp [SummaryJob.release])

/-- A job moves to a status that its own allows. -/
theorem moves_of_head {d' : SummaryDb} {job' : SummaryJob} (h : Sound d)
    (hjob : d.jobs.head? = some job) (hmem : job' ∈ d'.jobs) (hfollows : Follows d d' job job') :
    Moves d d' := by
  intro first hfirst
  rw [jobs_eq_of_head h hjob, List.mem_singleton] at hfirst
  subst hfirst
  exact ⟨job', hmem, hfollows⟩

/-- A job that waits or runs may move anywhere. -/
theorem follows_of_open {d' : SummaryDb} {job' : SummaryJob}
    (hopen : job.status = .pending ∨ job.status = .processing) : Follows d d' job job' := by
  rcases hopen with h | h <;> exact ⟨by simp [h], by simp [h], by simp [h]⟩

theorem settle_jobs (h : Sound d) (hjob : d.jobs.head? = some job) (status : JobStatus)
    (reason : Option FailReason) (summary : SummaryStatus) :
    (d.settle job status reason summary).jobs =
      [{ job.release with status := status, failReason := reason }] := by
  simp [SummaryDb.settle, SummaryDb.setSummaryStatus, SummaryDb.putJob, jobs_eq_of_head h hjob]

/-- A job that waits or runs is settled. -/
theorem settle_of_open (h : Sound d) (hjob : d.jobs.head? = some job)
    (hopen : job.status = .pending ∨ job.status = .processing) (status : JobStatus)
    (reason : Option FailReason) {summary : SummaryStatus} (hsummary : summary ≠ .ready) :
    Sound (d.settle job status reason summary) ∧
      Moves d (d.settle job status reason summary) := by
  have hnone : d.writes = [] := by
    refine unwritten h hjob ?_ ?_ <;> rcases hopen with hs | hs <;> simp [hs]
  refine ⟨sound_settle h hjob hnone hsummary, ?_⟩
  exact moves_of_head h hjob (by rw [settle_jobs h hjob]; exact List.mem_singleton_self _)
    (follows_of_open hopen)

end Found

/-- Jobs are written anew, and what has been written to the call stays or is cleared behind a fence. -/
theorem sound_map {d d' : SummaryDb} {f : SummaryJob → SummaryJob} (h : Sound d)
    (hjobs : d'.jobs = d.jobs.map f) (hclaims : d'.claims = d.claims)
    (hwrites : d'.writes = d.writes) (hfollowups : d'.followups = d.followups)
    (hstatus : d'.call.row.status = d.call.row.status)
    (hready : d'.call.row.summaryStatus = d.call.row.summaryStatus)
    (hfence : d.call.fenced = true → d'.call.fenced = true)
    (hsummary : d'.call.summary = d.call.summary ∨ d'.call.summary = none ∧ d'.call.fenced = true)
    (hcount : ∀ job, (f job).attemptCount = job.attemptCount)
    (howner : ∀ job, ∀ o ∈ (f job).leaseOwner, o ∈ job.leaseOwner)
    (hdone : ∀ job ∈ d.jobs, job.status = .success ∨ job.status = .cancelled →
      (f job).status = job.status ∨ (f job).status = .cancelled ∧ d'.call.fenced = true) :
    Sound d' where
  single := by rw [hjobs, List.length_map]; exact h.single
  attempts := by
    rw [hjobs, hclaims]
    rintro _ hmapped
    obtain ⟨job, hjob, rfl⟩ := List.mem_map.mp hmapped
    rw [hcount]
    exact h.attempts job hjob
  owner := by
    rw [hjobs, hclaims]
    rintro _ hmapped o ho
    obtain ⟨job, hjob, rfl⟩ := List.mem_map.mp hmapped
    exact h.owner job hjob o (howner job o ho)
  unclaimed hnone := by
    rw [hclaims, hwrites]
    exact h.unclaimed (by simpa [hjobs] using hnone)
  opened hactive := by rw [hjobs, h.opened (hstatus ▸ hactive), List.map_nil]
  once := by rw [hwrites]; exact h.once
  timely := by rw [hwrites, hclaims]; exact h.timely
  settled hwritten := by
    rw [hjobs]
    rintro _ hmapped
    obtain ⟨job, hjob, rfl⟩ := List.mem_map.mp hmapped
    rcases h.settled (hwrites ▸ hwritten) job hjob with hs | ⟨hs, hfenced⟩
    · rcases hdone job hjob (Or.inl hs) with heq | hcancelled
      · exact Or.inl (heq.trans hs)
      · exact Or.inr hcancelled
    · rcases hdone job hjob (Or.inr hs) with heq | hcancelled
      · exact Or.inr ⟨heq.trans hs, hfence hfenced⟩
      · exact Or.inr hcancelled
  ready := by rw [hready, hwrites]; exact h.ready
  summary s hs := by
    rw [hwrites]
    rcases hsummary with hsame | ⟨hnone, -⟩
    · exact h.summary s (hsame ▸ hs)
    · rw [hnone] at hs
      cases hs
  kept hfenced := by
    have hbefore : d.call.fenced = false := by
      by_contra hne
      rw [hfence (by simpa using hne)] at hfenced
      cases hfenced
    rw [hwrites]
    intro r hr
    rcases hsummary with hsame | ⟨-, hafter⟩
    · rw [hsame]
      exact h.kept hbefore r hr
    · rw [hfenced] at hafter
      cases hafter
  followups := by rw [hfollowups, hwrites]; exact h.followups

/-! ### Transactions -/

theorem min?_getD_le {l : List Instant} {x a : Instant} (hx : x ∈ l) : l.min?.getD a ≤ x := by
  cases hmin : l.min? with
  | none =>
    rw [List.min?_eq_none_iff] at hmin
    simp [hmin] at hx
  | some m => exact (List.min?_eq_some_iff.mp hmin).2 x hx

theorem built_sources (d : SummaryDb) (now : Instant) :
    ∀ turn ∈ d.sources now, ∃ t, turn.effectiveTextExpiresAt = some t ∧
      d.sourceExpiry (d.sources now) now ≤ t := by
  intro turn hturn
  have hkept := (List.mem_filter.mp hturn).2
  simp only [Bool.and_eq_true, Option.any_eq_true] at hkept
  obtain ⟨-, t, ht, -⟩ := hkept
  refine ⟨t, ht, min?_getD_le ?_⟩
  exact List.mem_append_left _ (List.mem_filterMap.mpr ⟨turn, hturn, ht⟩)

theorem enqueue_ok {d : SummaryDb} (h : Sound d) (now : Instant) :
    Sound (d.enqueue now) ∧ Moves d (d.enqueue now) := by
  unfold SummaryDb.enqueue
  split_ifs with hdue
  · simp only [Bool.and_eq_true, List.isEmpty_iff] at hdue
    obtain ⟨⟨hterminal, -⟩, hempty⟩ := hdue
    obtain ⟨hclaims, hwrites⟩ := h.unclaimed hempty
    refine
      ⟨{ h with
          single := by simp
          attempts := by simp [hclaims]
          owner := by simp
          unclaimed := by simp
          opened := fun hactive => ?_
          settled := fun hw => absurd hwrites hw }, ?_⟩
    · simp [hterminal] at hactive
    · intro job hjob
      simp [hempty] at hjob
  · exact ⟨h, moves_refl d⟩

/-- The first transaction of an attempt. -/
theorem claim_ok {d : SummaryDb} (h : Sound d) (owner : Owner) (now : Instant) :
    Sound (d.claim owner now).1 ∧ Moves d (d.claim owner now).1 ∧
      ∀ source ∈ (d.claim owner now).2, ∀ turn ∈ source.1, ∃ t,
        turn.effectiveTextExpiresAt = some t ∧ source.2 ≤ t := by
  have hsame : Sound d ∧ Moves d d := ⟨h, moves_refl d⟩
  unfold SummaryDb.claim
  cases hjob : d.jobs.head? with
  | none => exact ⟨h, moves_refl d, by simp⟩
  | some job =>
    have hmem : job ∈ d.jobs := by simp [jobs_eq_of_head h hjob]
    dsimp only
    split_ifs with hfence hover hidle happlicable hcard hsource hmeaning hsettings
    · refine ⟨sound_map (f := fun job => { job.release with status := .cancelled }) h ?_ rfl rfl rfl
        rfl rfl id (Or.inl rfl) (fun _ => rfl) (by simp [SummaryJob.release])
        (fun _ _ _ => Or.inr ⟨rfl, hfence⟩), ?_, by simp⟩
      · simp [SummaryDb.putJob, jobs_eq_of_head h hjob]
      · refine moves_of_head h hjob List.mem_cons_self
          ⟨fun _ => rfl, fun _ hopen => ?_, fun _ => Or.inr (Or.inl rfl)⟩
        exact absurd (hfence.symm.trans hopen) (by simp)
    · have hstep := settle_of_open h hjob (Or.inr hover.1) .failed (some .leaseExpired) failed_ne
      exact ⟨hstep.1, hstep.2, by simp⟩
    · exact ⟨h, moves_refl d, by simp⟩
    all_goals
      have hpending : job.status = .pending := by
        by_contra hne
        exact hidle (Or.inl hne)
    · have hstep := settle_of_open h hjob (Or.inl hpending) .success job.failReason notApplicable_ne
      exact ⟨hstep.1, hstep.2, by simp⟩
    · exact ⟨h, moves_refl d, by simp⟩
    · have hstep := settle_of_open h hjob (Or.inl hpending) .cancelled (some .sourceExpired)
        failed_ne
      exact ⟨hstep.1, hstep.2, by simp⟩
    · have hstep := settle_of_open h hjob (Or.inl hpending) .success job.failReason notApplicable_ne
      exact ⟨hstep.1, hstep.2, by simp⟩
    · have hstep := settle_of_open h hjob (Or.inl hpending) .failed
        (some .summaryConfigurationInvalid) failed_ne
      exact ⟨hstep.1, hstep.2, by simp⟩
    · have hnone : d.writes = [] := unwritten h hjob (by simp [hpending]) (by simp [hpending])
      have hpast : d.call.row.summaryStatus ≠ .ready := fun hready => h.ready.mp hready hnone
      refine ⟨sound_unwritten h hjob hnone hpast rfl ?_ ?_, ?_, ?_⟩
      · simp [h.attempts job hmem]
      · simp
      · exact moves_of_head h hjob List.mem_cons_self (follows_of_open (Or.inl hpending))
      · rintro source hsome
        obtain rfl := Option.some.inj hsome
        exact built_sources d now

theorem owned_of_ownedJob {d : SummaryDb} {owner : Owner} {now : Instant} {job : SummaryJob}
    (h : d.ownedJob owner now = some job) : d.jobs.head? = some job ∧ job.status = .processing ∧
      job.leaseOwner = some owner ∧ ∃ t, job.leaseExpiresAt = some t ∧ now < t := by
  obtain ⟨hhead, hown⟩ := Option.filter_eq_some_iff.mp h
  simp only [Bool.and_eq_true, decide_eq_true_eq, Option.any_eq_true] at hown
  exact ⟨hhead, hown.1.1, hown.1.2, hown.2⟩

theorem failure_ok {d : SummaryDb} (h : Sound d) (owner : Owner) (reason : FailReason)
    (now : Instant) : Sound (d.failure owner reason now) ∧ Moves d (d.failure owner reason now) := by
  unfold SummaryDb.failure
  cases hown : d.ownedJob owner now with
  | none => exact ⟨h, moves_refl d⟩
  | some job =>
    obtain ⟨hjob, hprocessing, -⟩ := owned_of_ownedJob hown
    have hnone := unwritten h hjob (by simp [hprocessing]) (by simp [hprocessing])
    dsimp only
    split_ifs
    · exact settle_of_open h hjob (Or.inr hprocessing) .cancelled (some reason)
        fun hready => h.ready.mp hready hnone
    · exact settle_of_open h hjob (Or.inr hprocessing) .failed (some reason) failed_ne

/-- What a result leaves of the follow-up jobs, when there was none of a summary. -/
theorem staged_of_result {d : SummaryDb} {result : SummaryResult} {followups : List FollowupType}
    (hnone : d.followups.filter ofSummary = [])
    (h : result.followup.elim (some d.followups) d.stageFollowup = some followups) :
    followups.filter ofSummary = result.followup.toList := by
  cases hkind : result.followup with
  | none =>
    rw [hkind] at h
    obtain rfl := Option.some.inj h
    exact hnone
  | some kind =>
    have hoffered : kind ≠ .missedExplanation := by
      rintro rfl
      exact result.offered hkind
    have hfresh : kind ∉ d.followups := by
      intro hmem
      have hfiltered : kind ∈ d.followups.filter ofSummary :=
        List.mem_filter.mpr ⟨hmem, by simpa [ofSummary] using hoffered⟩
      simp [hnone] at hfiltered
    rw [hkind] at h
    simp only [Option.elim, SummaryDb.stageFollowup, if_neg hfresh] at h
    split_ifs at h
    cases h
    simp [List.filter_append, hnone, ofSummary, hoffered]

/-- The second transaction of an attempt. -/
theorem commitResult_ok {d d' : SummaryDb} {owner : Owner} {inputs : List SourceTurn}
    {expiry now : Instant} {result : SummaryResult} (h : Sound d)
    (hbuilt : ∀ turn ∈ inputs, ∃ t, turn.effectiveTextExpiresAt = some t ∧ expiry ≤ t)
    (hd' : d.commitResult owner inputs expiry result now = some d') : Sound d' ∧ Moves d d' := by
  unfold SummaryDb.commitResult at hd'
  cases hown : d.ownedJob owner now with
  | none =>
    rw [hown] at hd'
    obtain rfl := Option.some.inj hd'
    exact ⟨h, moves_refl d⟩
  | some job =>
    obtain ⟨hjob, hprocessing, howner, hlease⟩ := owned_of_ownedJob hown
    have hmem : job ∈ d.jobs := by simp [jobs_eq_of_head h hjob]
    have hnone := unwritten h hjob (by simp [hprocessing]) (by simp [hprocessing])
    rw [hown] at hd'
    dsimp only at hd'
    split_ifs at hd' with hgone hfenced
    · cases hd'
      exact settle_of_open h hjob (Or.inr hprocessing) .cancelled (some .sourceUnavailable)
        fun hready => h.ready.mp hready hnone
    · cases hd'
      exact settle_of_open h hjob (Or.inr hprocessing) .cancelled (some .sourceUnavailable) failed_ne
    · obtain ⟨followups, hstaged, rfl⟩ := Option.map_eq_some_iff.mp hd'
      simp only [Bool.or_eq_true, decide_eq_true_eq, not_or, Bool.not_eq_true, not_le] at hgone
      obtain ⟨⟨hopen, hlater⟩, -⟩ := hgone
      have hfollowups := staged_of_result (by rw [h.followups, hnone]; rfl) hstaged
      have hclaimed : owner ∈ d.claims := h.owner job hmem owner howner
      have hjobs := settle_jobs h hjob .success job.failReason .ready
      refine ⟨?_, moves_of_head h hjob (by rw [hjobs]; exact List.mem_singleton_self _)
        (follows_of_open (Or.inr hprocessing))⟩
      refine
        { single := by simp [hjobs]
          attempts := ?_
          owner := by simp [hjobs, SummaryJob.release]
          unclaimed := by simp [hjobs]
          opened := fun hactive => ?_
          once := by simp [SummaryDb.settle, SummaryDb.setSummaryStatus, SummaryDb.putJob, hnone]
          timely := ?_
          settled := fun _ job' hjob' => ?_
          ready := ?_
          summary := fun s hs => ?_
          kept := fun _ r hr => ?_
          followups := ?_ }
      · rw [hjobs]
        simpa [SummaryDb.settle, SummaryDb.setSummaryStatus, SummaryDb.putJob, SummaryJob.release]
          using h.attempts job hmem
      · have hsame : d.call.row.status.active = true := hactive
        rw [not_active h hjob] at hsame
        cases hsame
      · intro r hr
        obtain rfl : r = ⟨owner, result, inputs, now, job.leaseExpiresAt, d.call.fenced⟩ := by
          have hlast : r ∈ d.writes ++ _ := hr
          rw [hnone, List.nil_append, List.mem_singleton] at hlast
          exact hlast
        refine ⟨⟨hlease, hopen, fun turn hturn => ?_⟩, hclaimed⟩
        obtain ⟨t, ht, hle⟩ := hbuilt turn hturn
        exact ⟨t, ht, hlater.trans_le hle⟩
      · have hfirst : job' ∈ (d.settle job .success job.failReason .ready).jobs := hjob'
        rw [hjobs, List.mem_singleton] at hfirst
        exact Or.inl (by rw [hfirst])
      · exact iff_of_true rfl (by simp)
      · obtain rfl := Option.some.inj hs
        exact ⟨_, List.mem_append_right _ (List.mem_singleton_self _), rfl⟩
      · have hlast : r ∈ d.writes ++ _ := hr
        rw [hnone, List.nil_append, List.mem_singleton] at hlast
        rw [hlast]
      · have hwrites : (d.settle job .success job.failReason .ready).writes = [] := hnone
        simpa [hwrites] using hfollowups

/-- An accepted retry. -/
theorem retry_ok {d d' : SummaryDb} {role : Role} {now : Instant} (h : Sound d)
    (hd' : d.retry role now = some d') : Sound d' ∧ Moves d d' := by
  unfold SummaryDb.retry at hd'
  cases hjob : d.jobs.head? with
  | none => simp [hjob] at hd'
  | some job =>
    have hmem : job ∈ d.jobs := by simp [jobs_eq_of_head h hjob]
    rw [hjob] at hd'
    dsimp only at hd'
    split_ifs at hd' with hallowed
    cases hd'
    have hfailed : job.status = .failed := hallowed.2.2.2.2.2.1
    have hnone := unwritten h hjob (by simp [hfailed]) (by simp [hfailed])
    refine ⟨sound_unwritten h hjob hnone pending_ne rfl (h.attempts job hmem)
      (by simp [SummaryJob.release]), ?_⟩
    refine moves_of_head h hjob List.mem_cons_self ⟨?_, ?_, fun _ => Or.inr (Or.inr ⟨rfl, rfl⟩)⟩
    · simp [hfailed]
    · simp [hfailed]

theorem purgeJob_status (job : SummaryJob) (fenced expired aged : Bool) :
    (SummaryDb.purgeJob job fenced expired aged).status = job.status ∨
      (SummaryDb.purgeJob job fenced expired aged).status = .cancelled ∧ job.status ≠ .success := by
  unfold SummaryDb.purgeJob
  split
  · rename_i hdue
    refine Or.inr ⟨rfl, fun hs => ?_⟩
    simp [hs] at hdue
  · exact Or.inl rfl

theorem purge_ok {d : SummaryDb} (h : Sound d) (admin : Bool) (now : Instant) :
    Sound (d.purge admin now) ∧ Moves d (d.purge admin now) := by
  refine ⟨sound_map h rfl rfl rfl rfl ?_ ?_ ?_ ?_ (fun job => ?_) (fun job o ho => ?_)
    (fun job _ hdone => ?_), fun job hjob => ⟨_, List.mem_map_of_mem hjob, ?_⟩⟩
  · cases admin <;> rfl
  · cases admin <;> rfl
  · cases admin <;> simp [SummaryDb.purge, SummaryCall.fenced]
  · cases admin
    · exact Or.inl rfl
    · exact Or.inr ⟨rfl, by simp [SummaryDb.purge, SummaryCall.fenced]⟩
  · unfold SummaryDb.purgeJob
    split <;> rfl
  · unfold SummaryDb.purgeJob at ho
    split at ho
    · simp [SummaryJob.release] at ho
    · exact ho
  · rcases purgeJob_status job (admin || d.call.fenced) (due d.call.transcriptExpiresAt now)
      (decide (job.createdAt + d.call.jobLogDays * VoiceRetention.microsPerDay ≤ now)) with hs | hs
    · exact Or.inl hs
    · have hcancelled := hdone.resolve_left hs.2
      exact Or.inl (hs.1.trans hcancelled.symm)
  · rcases purgeJob_status job (admin || d.call.fenced) (due d.call.transcriptExpiresAt now)
      (decide (job.createdAt + d.call.jobLogDays * VoiceRetention.microsPerDay ≤ now)) with hs | hs
    · exact ⟨hs.trans, fun hsuccess _ => hs.trans hsuccess, fun hfailed => Or.inl (hs.trans hfailed)⟩
    · exact ⟨fun _ => hs.1, fun hsuccess => absurd hsuccess hs.2, fun _ => Or.inr (Or.inl hs.1)⟩

theorem finish_ok {d : SummaryDb} (h : Sound d) (reason : EndReason) (durationSeconds : ℤ)
    (turns : List SourceTurn) (seq : ℤ) (now : Instant) :
    Sound (d.finish reason durationSeconds turns seq now) ∧
      Moves d (d.finish reason durationSeconds turns seq now) := by
  unfold SummaryDb.finish
  split_ifs with hactive
  · have hempty := h.opened hactive
    obtain ⟨hclaims, hwrites⟩ := h.unclaimed hempty
    have hnot : d.call.row.summaryStatus ≠ .ready := fun hready => h.ready.mp hready hwrites
    refine
      ⟨{ h with
          opened := fun _ => hempty
          settled := fun hw => absurd hwrites hw
          ready := iff_of_false ?_ (by simpa using hwrites)
          kept := fun _ r hr => by simp [hwrites] at hr }, fun job hjob => ?_⟩
    · dsimp only
      split_ifs
      · simp [withCard]
      · simp [withCard]
      · simp only [finalRow]
        split_ifs
        · simp
        · exact hnot
    · simp [hempty] at hjob
  · exact ⟨h, moves_refl d⟩

/-! ### Runs -/

theorem proceed_ok {d d' : SummaryDb} {t : SummaryTask} {now : Instant} {a : SummaryAnswer}
    {ts : List SummaryTask} (h : Sound d) (ht : Built t) (hstep : d.proceed now t a = some (d', ts)) :
    Sound d' ∧ Moves d d' ∧ ∀ t' ∈ ts, Built t' := by
  have hsame : Sound d ∧ Moves d d := ⟨h, moves_refl d⟩
  unfold SummaryDb.proceed at hstep
  split at hstep
  · cases hstep
    refine ⟨h, moves_refl d, ?_⟩
    split_ifs <;> simp [Built]
  · cases hstep
    refine ⟨h, moves_refl d, ?_⟩
    split_ifs <;> simp [Built]
  · rename_i thenScan
    cases hstep
    obtain ⟨hsound, hmoves⟩ := enqueue_ok h now
    exact ⟨hsound, hmoves, by cases thenScan <;> simp [Built]⟩
  · cases hstep
    exact ⟨{ h with }, fun job hjob => ⟨job, hjob, id, fun hs _ => hs, Or.inl⟩, by simp [Built]⟩
  · rename_i owner
    cases hstep
    obtain ⟨hsound, hmoves, hbuilt⟩ := claim_ok h owner now
    refine ⟨hsound, hmoves, fun t' ht' => ?_⟩
    obtain ⟨source, hsource, rfl⟩ := Option.map_eq_some_iff.mp (Option.mem_toList.mp ht')
    exact hbuilt source hsource
  · cases hstep
    exact ⟨h, moves_refl d, by simpa [Built] using ht⟩
  · cases hstep
    exact ⟨h, moves_refl d, by simp [Built]⟩
  · cases hstep
    exact ⟨h, moves_refl d, by simp [Built]⟩
  · rename_i owner inputs expiry r
    cases hcommit : d.commitResult owner inputs expiry r now with
    | none =>
      rw [hcommit] at hstep
      cases hstep
      exact ⟨h, moves_refl d, by simp [Built]⟩
    | some e =>
      rw [hcommit] at hstep
      cases hstep
      obtain ⟨hsound, hmoves⟩ := commitResult_ok h ht hcommit
      exact ⟨hsound, hmoves, by simp⟩
  · cases hstep
    exact ⟨h, moves_refl d, by simp [Built]⟩
  · rename_i owner reason
    cases hstep
    obtain ⟨hsound, hmoves⟩ := failure_ok h owner reason now
    exact ⟨hsound, hmoves, by simp⟩
  · rename_i role
    cases hstep
    cases hretry : d.retry role now with
    | none => exact ⟨h, moves_refl d, by simp⟩
    | some e =>
      obtain ⟨hsound, hmoves⟩ := retry_ok h hretry
      exact ⟨hsound, hmoves, by simp⟩
  · rename_i admin
    cases hstep
    obtain ⟨hsound, hmoves⟩ := purge_ok h admin now
    exact ⟨hsound, hmoves, by simp⟩
  · rename_i reason durationSeconds turns seq
    cases hstep
    obtain ⟨hsound, hmoves⟩ := finish_ok h reason durationSeconds turns seq now
    exact ⟨hsound, hmoves, by simp⟩
  · cases hstep

theorem advance_ok {d d' : SummaryDb} {t : SummaryTask} {i : SummaryInput} {ts : List SummaryTask}
    (h : Sound d) (ht : Built t) (hadv : summarySystem.advance d t i = some (d', ts)) :
    Sound d' ∧ Moves d d' ∧ ∀ t' ∈ ts, Built t' := by
  cases i with
  | proceed now a => exact proceed_ok h ht hadv
  | abort =>
    cases hadv
    exact ⟨h, moves_refl d, by simp⟩
  | _ => cases hadv

theorem reachable_sound {w : World SummaryDb SummaryTask} (hw : summarySystem.machine.Reachable w) :
    Holds Sound (fun _ => Built) (fun _ _ => True) w := by
  refine reachable_holds (fun _ _ _ => trivial) ?_ ?_ ?_ hw
  · rintro d ⟨hjobs, hready, hsummary, hfollowups, hclaims, -, hwrites⟩
    refine
      { single := by simp [hjobs]
        attempts := by simp [hjobs]
        owner := by simp [hjobs]
        unclaimed := fun _ => ⟨hclaims, hwrites⟩
        opened := fun _ => hjobs
        once := by simp [hwrites]
        timely := by simp [hwrites]
        settled := fun hw => absurd hwrites hw
        ready := iff_of_false hready (by simpa using hwrites)
        summary := by simp [hsummary]
        kept := by simp [hwrites]
        followups := ?_ }
    rw [hwrites, List.flatMap_nil, List.filter_eq_nil_iff]
    intro kind hkind
    simp [ofSummary, hfollowups kind hkind]
  · intro d i ts _ hts
    refine ⟨fun t ht => ?_, List.pairwise_of_forall fun _ _ => trivial, fun _ _ _ => trivial⟩
    cases i <;> simp only [summarySystem, Option.some.injEq, reduceCtorEq] at hts <;> subst hts <;>
      rw [List.mem_singleton.mp ht] <;> trivial
  · intro d t i d' ts hd ht hadv
    obtain ⟨hsound, -, hbuilt⟩ := advance_ok hd ht hadv
    exact ⟨hsound, hbuilt, List.pairwise_of_forall fun _ _ => trivial,
      fun u hu _ => ⟨hu, fun _ _ => trivial⟩⟩

/-- A call that ended a moment ago, with one turn. -/
def endedCall : SummaryDb where
  call :=
    { row :=
        { userId := 1, status := .ended, call01Fallback := none, endReason := some .userHangup
          connectedAt := some 0, endedAt := some 60000000, durationSeconds := 60
          freeSecondsUsed := 60, extraSecondsUsed := 0, graceSeconds := 0
          growthEligibleSeconds := 60, growthPoints := 0, sortSeq := some 1
          summaryStatus := .pending, growthConfig := none, deletionFenceAt := none
          deletedAt := none }
      transcriptExpiresAt := none
      summary := none
      settingsValid := true
      jobLogDays := 90 }
  turns := [⟨⟨some "我今天换了新工作".toList, some "恭喜你".toList, .full, .finalized, true⟩,
    some 86400000000⟩]
  jobs := []
  followups := []
  relationshipLevel := some 1
  nextOwner := 0
  claims := []
  retries := 0
  writes := []

end CompanionBackend.SummaryAttempts
