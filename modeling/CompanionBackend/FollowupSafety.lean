import CompanionBackend.FollowupWorkers

/-!
# A follow-up message at most once

A job that is open has no message, and the worker that sends holds the row of the call
from its last look at the job to the commit. The counter remembers each message for the
retention of the job log, so it is raised again only after that.
-/
namespace CompanionBackend.FollowupWorkers

open Runs ProviderEvents Dictionaries TaskSystems FollowupJobs

/-! ### What allows a message -/

/-- The instant lies inside a window of the job. -/
def InWindow (S : Service) (job : VoiceFollowupJob) (t : Instant) : Prop :=
  ∃ windows window start stop, job.allowedWindowSnapshot = .arr windows ∧ window ∈ windows ∧
    windowBounds S window = some (start, stop) ∧
    atMinutes t start ≤ t + shanghaiOffset ∧ t + shanghaiOffset < atMinutes t stop

theorem nextWindowLoop_none {S : Service} {now : Instant} {windows : List Json} {future : List Instant}
    (h : nextWindowLoop S now windows future = .ok none) :
    ∃ window ∈ windows, ∃ start stop, windowBounds S window = some (start, stop) ∧
      atMinutes now start ≤ now + shanghaiOffset ∧ now + shanghaiOffset < atMinutes now stop := by
  induction windows generalizing future with
  | nil =>
    unfold nextWindowLoop at h
    cases hmin : future.min? with
    | none => simp [hmin, orRaise] at h
    | some t => simp [hmin, orRaise] at h
  | cons window windows ih =>
    unfold nextWindowLoop at h
    cases hbounds : windowBounds S window with
    | none => simp [hbounds] at h
    | some bounds =>
      obtain ⟨start, stop⟩ := bounds
      simp only [hbounds] at h
      split at h
      · rename_i hinside
        exact ⟨window, by simp, start, stop, hbounds, hinside⟩
      · obtain ⟨w, hw, hrest⟩ := ih h
        exact ⟨w, List.mem_cons_of_mem _ hw, hrest⟩

/-- `_next_window` returns nothing inside a window only. -/
theorem inWindow_of_nextWindow {S : Service} {job : VoiceFollowupJob} {now : Instant}
    (h : nextWindow S job now = .ok none) : InWindow S job now := by
  unfold nextWindow at h
  split at h
  · rename_i windows hwindows
    split at h
    · obtain ⟨window, hmem, start, stop, hbounds, hinside⟩ := nextWindowLoop_none h
      exact ⟨windows, window, start, stop, hwindows, hmem, hbounds, hinside⟩
    · simp at h
  · simp at h

/-- What the last check has found. -/
structure Eligible (db : Db) (id : ℕ) (job : VoiceFollowupJob) (call : VoiceCall) (endedAt : Instant) :
    Prop where
  calls : db.calls job.callId = some call
  user : call.userId = job.userId
  unfenced : call.deletionFenceAt = none ∧ call.deletedAt = none
  ended : call.endedAt = some endedAt
  noChat : ∀ chat ∈ db.chats, chat.userId = job.userId → chat.role = .user → chat.createdAt < endedAt
  otherSent : db.otherSent id job.callId = false

theorem ineligible_none {S : Service} {db : Db} {id : ℕ} {job : VoiceFollowupJob} {now : Instant}
    {topic : TopicResult} (h : db.ineligible S id job now topic = .ok none) :
    ∃ call endedAt, Eligible db id job call endedAt := by
  unfold Db.ineligible at h
  cases hcall : db.calls job.callId with
  | none => simp [hcall] at h
  | some call =>
    simp only [hcall] at h
    split at h
    · simp at h
    rename_i huser
    split at h
    · simp at h
    rename_i hfence
    iterate 4
      split at h
      · simp at h
    cases hended : call.endedAt with
    | none => simp [hended] at h
    | some endedAt =>
      simp only [hended] at h
      split at h
      · simp at h
      rename_i hchat
      obtain ⟨reason, -, h⟩ := bind_eq_ok.mp h
      cases reason with
      | some reason => simp at h
      | none =>
        simp only [Except.ok.injEq] at h
        split at h
        · simp at h
        rename_i hother
        refine ⟨call, endedAt, hcall, by simpa using huser, by simpa [and_comm] using hfence, hended,
          fun chat hmem hu hr => ?_, by simpa using hother⟩
        have hnot : ¬ endedAt ≤ chat.createdAt := by
          intro hle
          exact hchat (List.any_eq_true.mpr ⟨chat, hmem, by simp [hu, hr, hle]⟩)
        exact not_le.mp hnot

/-- What the message of a step is allowed by, in the state before it. -/
structure Permitted (S : Service) (db : Db) (m : AgentMessage) (job : VoiceFollowupJob)
    (call : VoiceCall) (endedAt : Instant) : Prop where
  jobs : db.jobs m.jobId = some job
  callId : job.callId = m.callId
  userId : job.userId = m.userId
  content : job.content = m.content
  window : InWindow S job m.createdAt
  deadline : m.createdAt ≤ job.latestDueAt
  eligible : Eligible db m.jobId job call endedAt

/-! ### What a transaction does to a job -/

/-- A job before and after a transaction that sends no message. -/
structure Keeps (counted : Prop) (job job' : VoiceFollowupJob) : Prop where
  callId : job'.callId = job.callId
  userId : job'.userId = job.userId
  message : job'.agentMessageId = job.agentMessageId
  opened : job'.open = true → job.open = true
  accounted : job'.status = .sent → job'.failReason = none →
    job.status = .sent ∧ job.failReason = none ∨ counted

theorem Keeps.refl (counted : Prop) (job : VoiceFollowupJob) : Keeps counted job job :=
  ⟨rfl, rfl, rfl, id, fun h h' => .inl ⟨h, h'⟩⟩

theorem keeps_cancelled (counted : Prop) (job : VoiceFollowupJob) (reason : CancelReason) :
    Keeps counted job (job.cancelled reason) :=
  ⟨rfl, rfl, rfl, by simp [VoiceFollowupJob.cancelled, VoiceFollowupJob.open],
    by simp [VoiceFollowupJob.cancelled]⟩

/-- A transaction that sends no message; the jobs of calls that are not `free` stay. -/
structure DbKeeps (free : Ident → Prop) (counted : ℕ → Prop) (db db' : Db) : Prop where
  jobs : ∀ id job, db.jobs id = some job → ∃ job', db'.jobs id = some job' ∧ Keeps (counted id) job job'
  locked : ∀ id job, db.jobs id = some job → ¬free job.callId → db'.jobs id = some job
  created : ∀ id job', db'.jobs id = some job' → db.jobs id = none →
    job'.agentMessageId = none ∧ job'.status ≠ .sent
  bounded : (∀ id job, db.jobs id = some job → id < db.nextJobId) →
    ∀ id job, db'.jobs id = some job → id < db'.nextJobId
  messages : db'.messages = db.messages
  nextMessageId : db'.nextMessageId = db.nextMessageId

/-- No job is touched. -/
theorem DbKeeps.same {free : Ident → Prop} {counted : ℕ → Prop} {db db' : Db} (hjobs : db'.jobs = db.jobs)
    (hnext : db'.nextJobId = db.nextJobId) (hmessages : db'.messages = db.messages)
    (hids : db'.nextMessageId = db.nextMessageId) : DbKeeps free counted db db' where
  jobs id job hjob := ⟨job, by rw [hjobs]; exact hjob, .refl _ job⟩
  locked _ _ hjob _ := by rw [hjobs]; exact hjob
  created id job' hjob' hnone := by simp [hjobs, hnone] at hjob'
  bounded h id job hjob := by
    rw [hjobs] at hjob
    rw [hnext]
    exact h id job hjob
  messages := hmessages
  nextMessageId := hids

theorem DbKeeps.one {free : Ident → Prop} {counted : ℕ → Prop} {db db' : Db} {id : ℕ}
    {job job' : VoiceFollowupJob} (hjob : db.jobs id = some job) (hfree : free job.callId)
    (hkeeps : Keeps (counted id) job job') (hjobs : db'.jobs = Function.update db.jobs id (some job'))
    (hnext : db'.nextJobId = db.nextJobId) (hmessages : db'.messages = db.messages)
    (hids : db'.nextMessageId = db.nextMessageId) : DbKeeps free counted db db' where
  jobs other found hfound := by
    rw [hjobs]
    by_cases h : other = id
    · subst h
      obtain rfl := Option.some.inj (hjob.symm.trans hfound)
      exact ⟨job', by simp, hkeeps⟩
    · exact ⟨found, by simpa [h] using hfound, .refl _ found⟩
  locked other found hfound hlocked := by
    have h : other ≠ id := by
      rintro rfl
      obtain rfl := Option.some.inj (hjob.symm.trans hfound)
      exact hlocked hfree
    rw [hjobs]
    simpa [h] using hfound
  created other found hfound hnone := by
    by_cases h : other = id
    · subst h
      simp [hjob] at hnone
    · rw [hjobs, Function.update_of_ne h] at hfound
      simp [hnone] at hfound
  bounded hbound other found hfound := by
    rw [hnext]
    by_cases h : other = id
    · subst h
      exact hbound other job hjob
    · rw [hjobs, Function.update_of_ne h] at hfound
      exact hbound other found hfound
  messages := hmessages
  nextMessageId := hids

theorem DbKeeps.putJob {free : Ident → Prop} {counted : ℕ → Prop} {db : Db} {id : ℕ}
    {job job' : VoiceFollowupJob} (hjob : db.jobs id = some job) (hfree : free job.callId)
    (hkeeps : Keeps (counted id) job job') : DbKeeps free counted db (db.putJob id job') :=
  .one hjob hfree hkeeps rfl rfl rfl rfl

theorem DbKeeps.refl (free : Ident → Prop) (counted : ℕ → Prop) (db : Db) :
    DbKeeps free counted db db :=
  .same rfl rfl rfl rfl

theorem claim_keeps {S : Service} {free : Ident → Prop} {counted : ℕ → Prop} {db : Db} {id : ℕ}
    {owner : Token} {now : Instant}
    (hfree : ∀ job, db.jobs id = some job → free job.callId) :
    DbKeeps free counted db (db.claim S id owner now).1 := by
  unfold Db.claim
  cases hjob : db.jobs id with
  | none => exact .refl _ _ db
  | some job =>
    dsimp only
    split
    · exact .refl _ _ db
    rename_i hready
    iterate 3
      split
      · exact .refl _ _ db
    split
    · exact .putJob hjob (hfree job hjob)
        ⟨rfl, rfl, rfl, by simp [VoiceFollowupJob.open], by simp⟩
    split
    · exact .putJob hjob (hfree job hjob)
        ⟨rfl, rfl, rfl, by simp [VoiceFollowupJob.open], by simp⟩
    · rename_i haccounting
      have hopen : job.open = true := by simpa [haccounting] using hready
      exact .putJob hjob (hfree job hjob) ⟨rfl, rfl, rfl, fun _ => hopen, by simp⟩

theorem open_of_ownedBy {job : VoiceFollowupJob} {owner : Token} (h : job.ownedBy owner = true) :
    job.open = true := by
  simp only [VoiceFollowupJob.ownedBy, Bool.and_eq_true, decide_eq_true_eq] at h
  simp [VoiceFollowupJob.open, h.1]

theorem firstCheck_keeps {S : Service} (free : Ident → Prop) (counted : ℕ → Prop) {db db' : Db}
    {id : ℕ} {owner : Token} {topic : TopicResult} {now : Instant} {result : FirstCheck}
    (h : db.firstCheck S id owner topic now = .ok (db', result))
    (hfree : ∀ job, db.jobs id = some job → free job.callId) :
    DbKeeps free counted db db' ∧
      (result = .askQuota → db' = db ∧ ∃ job, db.jobs id = some job ∧ job.open = true) := by
  unfold Db.firstCheck at h
  cases hjob : db.jobs id with
  | none =>
    obtain ⟨rfl, rfl⟩ := by simpa [hjob] using h
    exact ⟨.refl _ _ db, by simp⟩
  | some job =>
    simp only [hjob] at h
    split at h
    · obtain ⟨rfl, rfl⟩ := by simpa using h
      exact ⟨.refl _ _ db, by simp⟩
    rename_i howned
    have hopen : job.open = true := open_of_ownedBy (by simpa using howned)
    split at h
    · simp at h
    obtain ⟨reason, -, h⟩ := bind_eq_ok.mp h
    cases reason with
    | some reason =>
      obtain ⟨rfl, rfl⟩ := by simpa using h
      exact ⟨.putJob hjob (hfree job hjob) (keeps_cancelled _ job reason), by simp⟩
    | none =>
      obtain ⟨next, -, h⟩ := bind_eq_ok.mp h
      cases next with
      | none =>
        obtain ⟨rfl, rfl⟩ := by simpa using h
        exact ⟨.refl _ _ db, fun _ => ⟨rfl, job, rfl, hopen⟩⟩
      | some next =>
        dsimp only at h
        split at h
        · obtain ⟨rfl, rfl⟩ := by simpa using h
          exact ⟨.putJob hjob (hfree job hjob) (keeps_cancelled _ job _), by simp⟩
        · obtain ⟨rfl, rfl⟩ := by simpa using h
          exact ⟨.putJob hjob (hfree job hjob) ⟨rfl, rfl, rfl, fun _ => hopen, by simp⟩, by simp⟩

/-- The end of the dispatching transaction: the job is cancelled, or an allowed message is added. -/
theorem send_spec {S : Service} (free : Ident → Prop) (counted : ℕ → Prop) {db db' : Db} {id : ℕ}
    {topic : TopicResult} {allowed : Bool} {r : Readings} {result : Sent}
    (h : db.send S id topic allowed r = .ok (db', result))
    (hfree : ∀ job, db.jobs id = some job → free job.callId) :
    (result = .cancelled ∧ DbKeeps free counted db db') ∨
      result = .sent ∧ ∃ job call endedAt, db.jobs id = some job ∧ db' = db.addMessage id job r ∧
        Eligible db id job call endedAt ∧ r.created ≤ job.latestDueAt ∧ InWindow S job r.created := by
  unfold Db.send at h
  obtain ⟨job, hjob, h⟩ := bind_eq_ok.mp h
  rw [orRaise_eq_ok] at hjob
  have hcancel : ∀ reason, DbKeeps free counted db (db.putJob id (job.cancelled reason)) :=
    fun reason => .putJob hjob (hfree job hjob) (keeps_cancelled _ job reason)
  have hstaged : ∀ reason,
      DbKeeps free counted db ((db.allocate job.userId).putJob id (job.cancelled reason)) :=
    fun reason => .one hjob (hfree job hjob) (keeps_cancelled _ job reason) rfl rfl rfl rfl
  split at h
  · obtain ⟨rfl, rfl⟩ := by simpa using h
    exact .inl ⟨rfl, hcancel _⟩
  split at h
  · simp at h
  obtain ⟨reason, -, h⟩ := bind_eq_ok.mp h
  cases reason with
  | some reason =>
    obtain ⟨rfl, rfl⟩ := by simpa using h
    exact .inl ⟨rfl, hcancel reason⟩
  | none =>
    obtain ⟨next, -, h⟩ := bind_eq_ok.mp h
    split at h
    · simp at h
    unfold Db.stageMessage at h
    obtain ⟨reason, hreason, h⟩ := bind_eq_ok.mp h
    cases reason with
    | some reason =>
      obtain ⟨rfl, rfl⟩ := by simpa using h
      exact .inl ⟨rfl, hstaged reason⟩
    | none =>
      dsimp only at h
      split at h
      · obtain ⟨rfl, rfl⟩ := by simpa using h
        exact .inl ⟨rfl, hstaged _⟩
      rename_i hdeadline
      split at h
      · obtain ⟨rfl, rfl⟩ := by simpa using h
        exact .inl ⟨rfl, hstaged _⟩
      split at h
      · simp at h
      obtain ⟨next, hnext, h⟩ := bind_eq_ok.mp h
      cases next with
      | some next => simp at h
      | none =>
        obtain ⟨rfl, rfl⟩ := by simpa using h
        obtain ⟨call, endedAt, heligible⟩ := ineligible_none hreason
        exact .inr ⟨rfl, job, call, endedAt, hjob, rfl, heligible, not_lt.mp hdeadline,
          inWindow_of_nextWindow hnext⟩

theorem failure_keeps {S : Service} {free : Ident → Prop} (counted : ℕ → Prop) {db : Db} {id : ℕ}
    {owner : Token} {reason : FailReason} {retryable : Bool} {now : Instant}
    (hfree : ∀ job, db.jobs id = some job → free job.callId) :
    DbKeeps free counted db (db.failure S id owner reason retryable now) := by
  unfold Db.failure
  cases hjob : db.jobs id with
  | none => exact .refl _ _ db
  | some job =>
    dsimp only
    split
    · exact .refl _ _ db
    · rename_i howned
      have hopen : job.open = true := open_of_ownedBy (by simpa using howned)
      refine .putJob hjob (hfree job hjob) ⟨rfl, rfl, rfl, fun _ => hopen, ?_⟩
      cases retryable <;> simp

theorem account_keeps {free : Ident → Prop} {counted : ℕ → Prop} {db : Db} {id : ℕ} {owner : Token}
    (hfree : ∀ job, db.jobs id = some job → free job.callId) :
    DbKeeps free counted db (db.account id owner).1 := by
  unfold Db.account
  cases hjob : db.jobs id with
  | none => exact .refl _ _ db
  | some job =>
    have hmissing : DbKeeps free counted db
        (db.putJob id { job.released with failReason := some .messageMissing }) := by
      refine .putJob hjob (hfree job hjob) ⟨rfl, rfl, rfl, ?_, by simp⟩
      exact fun h => h
    dsimp only
    split
    · exact .refl _ _ db
    split
    · exact hmissing
    · split
      · exact hmissing
      · exact .refl _ _ db

/-- What is counted is a message of the job. -/
theorem account_request {db db' : Db} {id : ℕ} {owner : Token} {r : CountRequest}
    (h : db.account id owner = (db', some r)) :
    ∃ job m, db.jobs id = some job ∧ m ∈ db.messages ∧ job.agentMessageId = some m.id ∧
      r.key = (m.userId, id, m.id) ∧ r.userId = m.userId ∧ r.occurredAt = m.createdAt := by
  unfold Db.account at h
  cases hjob : db.jobs id with
  | none => simp [hjob] at h
  | some job =>
    simp only [hjob] at h
    split at h
    · simp at h
    split at h
    · simp at h
    · rename_i m hm
      split at h
      · simp at h
      · rename_i huser
        obtain ⟨mid, hmid, hfind⟩ := Option.bind_eq_some_iff.mp hm
        have hid : m.id = mid := by simpa using List.find?_some hfind
        have huser : m.userId = job.userId := by simpa using huser
        simp only [Prod.mk.injEq, Option.some.injEq] at h
        obtain ⟨-, rfl⟩ := h
        exact ⟨job, m, rfl, List.mem_of_find?_eq_some hfind, by rw [hmid, hid],
          by simp [CountRequest.key, huser], huser.symm, rfl⟩

theorem recordCount_keeps {S : Service} {free : Ident → Prop} (counted : ℕ → Prop) {db : Db} {id : ℕ}
    {owner : Token} {success : Bool} {now : Instant}
    (hfree : ∀ job, db.jobs id = some job → free job.callId) (hcounted : success = true → counted id) :
    DbKeeps free counted db (db.recordCount S id owner success now) := by
  unfold Db.recordCount
  cases hjob : db.jobs id with
  | none => exact .refl _ _ db
  | some job =>
    dsimp only
    split
    · exact .refl _ _ db
    · refine .putJob hjob (hfree job hjob) ⟨rfl, rfl, rfl, fun h => h, fun _ hnone => ?_⟩
      cases success with
      | true => exact .inr (hcounted rfl)
      | false => simp at hnone

theorem keeps_swept (counted : Prop) (job : VoiceFollowupJob) (reason : CancelReason) :
    Keeps counted job (job.swept reason) := by
  unfold VoiceFollowupJob.swept
  split
  · exact ⟨rfl, rfl, rfl, by simp [VoiceFollowupJob.open], by simp⟩
  · exact ⟨rfl, rfl, rfl, fun h => h, fun h h' => .inl ⟨h, h'⟩⟩

theorem runTransaction_keeps {d : Data} (counted : ℕ → Prop) {now : Instant} {t : Transaction} {db : Db}
    (hbound : ∀ id job, d.db.jobs id = some job → id < d.db.nextJobId)
    (h : runTransaction d now t = some db) :
    DbKeeps (fun c => d.callLock c = none) counted d.db db := by
  cases t with
  | schedule job =>
    obtain ⟨-, rfl⟩ := by simpa [runTransaction] using h
    unfold Db.schedule
    split
    · exact .refl _ _ d.db
    · have hfresh : ∀ id found, d.db.jobs id = some found → id ≠ d.db.nextJobId :=
        fun id found hfound => (hbound id found hfound).ne
      refine ⟨fun id found hfound => ⟨found, ?_, .refl _ found⟩, fun id found hfound _ => ?_,
        fun id found hfound hnone => ?_, fun _ id found hfound => ?_, rfl, rfl⟩
      · simpa [Function.update_of_ne (hfresh id found hfound)] using hfound
      · simpa [Function.update_of_ne (hfresh id found hfound)] using hfound
      · by_cases hid : id = d.db.nextJobId
        · subst hid
          simp only [Function.update_self, Option.some.injEq] at hfound
          subst hfound
          refine ⟨rfl, ?_⟩
          dsimp only
          split <;> simp
        · simp [Function.update_of_ne hid, hnone] at hfound
      · by_cases hid : id = d.db.nextJobId
        · subst hid
          simp
        · have hlt := hbound id found (by simpa [Function.update_of_ne hid] using hfound)
          dsimp only
          omega
  | sweep callId agedBefore =>
    obtain ⟨hfree, rfl⟩ := by simpa [runTransaction] using h
    unfold Db.sweep
    cases hcall : d.db.calls callId with
    | none => exact .refl _ _ d.db
    | some call =>
      refine ⟨fun id job hjob => ⟨_, Option.map_eq_some_iff.mpr ⟨job, hjob, rfl⟩, ?_⟩,
        fun id job hjob hlocked => ?_, fun id job' hjob' hnone => by simp [hnone] at hjob',
        fun hb id job' hjob' => ?_, rfl, rfl⟩
      · split
        · split
          · exact .refl _ job
          · exact keeps_swept _ job _
        · exact .refl _ job
      · have hne : job.callId ≠ callId := by
          rintro rfl
          exact hlocked hfree
        simp [hjob, hne]
      · obtain ⟨job, hjob, -⟩ := Option.map_eq_some_iff.mp hjob'
        exact hb id job hjob
  | fence callId =>
    obtain ⟨-, rfl⟩ := by simpa [runTransaction] using h
    unfold Db.fence
    cases d.db.calls callId with
    | none => exact .refl _ _ d.db
    | some call => exact .same rfl rfl rfl rfl
  | chat userId role createdAt =>
    obtain rfl := Option.some.inj h
    exact .same rfl rfl rfl rfl
  | writeCall callId call =>
    simp only [runTransaction] at h
    split at h <;>
    · split at h
      · obtain rfl := Option.some.inj h
        exact .same rfl rfl rfl rfl
      · simp at h
  | writeTurns turns =>
    obtain rfl := Option.some.inj h
    exact .same rfl rfl rfl rfl

/-! ### Between the steps -/

/-- The token of a worker. -/
def Task.owner : Task → Option Token
  | .preparing _ owner | .asking _ owner _ | .locking _ owner _ | .quota _ owner _ _
  | .failing _ owner _ _ | .accounting _ owner | .counting _ owner _ | .recording _ owner _ => some owner
  | .claiming _ | .transaction _ => none

def Apart (t u : Task) : Prop := ∀ a, t.owner = some a → u.owner ≠ some a

theorem Apart.symm {t u : Task} (h : Apart t u) : Apart u t := fun a hu ht => h a ht hu

/-- The message of the job has been counted. -/
def Counted (d : Data) (id : ℕ) : Prop :=
  ∃ m ∈ d.db.messages, m.jobId = id ∧ ∃ inc ∈ d.cache.increments, inc.key = (m.userId, m.jobId, m.id)

/-- What a worker relies on between its steps. -/
def Asserts (d : Data) : Task → Prop
  | .quota id owner _ callId => owner < d.nextToken ∧ d.callLock callId = some owner ∧
      ∃ job, d.db.jobs id = some job ∧ job.callId = callId ∧ job.open = true
  | .counting id owner r => owner < d.nextToken ∧ ∃ m ∈ d.db.messages, m.jobId = id ∧
      r.key = (m.userId, m.jobId, m.id) ∧ r.userId = m.userId ∧ r.occurredAt = m.createdAt
  | .recording id owner success => owner < d.nextToken ∧ (success = true → Counted d id)
  | .preparing _ owner | .asking _ owner _ | .locking _ owner _ | .failing _ owner _ _
  | .accounting _ owner => owner < d.nextToken
  | .claiming _ | .transaction _ => True

theorem Asserts.owner_lt {d : Data} {t : Task} {a : Token} (h : Asserts d t) (ht : t.owner = some a) :
    a < d.nextToken := by
  cases t with
  | claiming _ | transaction _ => simp [Task.owner] at ht
  | preparing _ _ | asking _ _ _ | locking _ _ _ | failing _ _ _ _ | accounting _ _ =>
    obtain rfl := Option.some.inj ht
    exact h
  | quota _ _ _ _ | counting _ _ _ | recording _ _ _ =>
    obtain rfl := Option.some.inj ht
    exact h.1

/-- One job of the data. -/
structure JobOk (d : Data) (id : ℕ) (job : VoiceFollowupJob) : Prop where
  opened : job.open = true → job.agentMessageId = none
  linked : ∀ mid, job.agentMessageId = some mid → ∃ m ∈ d.db.messages, m.id = mid ∧ m.jobId = id
  accounted : job.status = .sent → job.failReason = none → Counted d id

/-- What holds of the data at every point. -/
structure Sound (d : Data) : Prop where
  bounded : ∀ id job, d.db.jobs id = some job → id < d.db.nextJobId
  jobs : ∀ id job, d.db.jobs id = some job → JobOk d id job
  messages : ∀ m ∈ d.db.messages, m.id < d.db.nextMessageId ∧ ∃ job, d.db.jobs m.jobId = some job ∧
    job.agentMessageId = some m.id ∧ job.callId = m.callId ∧ job.userId = m.userId
  ids : d.db.messages.Pairwise fun m m' => m.id ≠ m'.id
  perJob : d.db.messages.Pairwise fun m m' => m.jobId ≠ m'.jobId
  perCall : d.db.messages.Pairwise fun m m' => m.callId ≠ m'.callId
  counts : ∀ inc ∈ d.cache.increments, ∃ m ∈ d.db.messages, inc.key = (m.userId, m.jobId, m.id) ∧
    inc.userId = m.userId ∧ inc.day = m.createdAt / dayMicros
  markers : ∀ key t, d.cache.markers key = some t → ∃ inc ∈ d.cache.increments, inc.key = key
  remembered : ∀ inc ∈ d.cache.increments, ∃ t, d.cache.markers inc.key = some t ∧
    inc.rememberedUntil ≤ t
  recounts : d.cache.increments.Pairwise fun a b => a.key = b.key → a.rememberedUntil ≤ b.raisedAt

/-- What a step of the task with the token `own` leaves to the others, and what it sends. -/
structure Effect (S : Service) (d d' : Data) (own : Option Token) : Prop where
  tokens : d.nextToken ≤ d'.nextToken
  callLock : ∀ c b, d.callLock c = some b → own ≠ some b → d'.callLock c = some b
  locked : ∀ id job b, d.db.jobs id = some job → d.callLock job.callId = some b → own ≠ some b →
    d'.db.jobs id = some job
  messages : d'.db.messages = d.db.messages ∨ ∃ m job call endedAt,
    d'.db.messages = d.db.messages ++ [m] ∧ Permitted S d.db m job call endedAt
  increments : ∀ inc ∈ d.cache.increments, inc ∈ d'.cache.increments

theorem Effect.mem {S : Service} {d d' : Data} {own : Option Token} (h : Effect S d d' own) :
    ∀ m ∈ d.db.messages, m ∈ d'.db.messages := by
  intro m hm
  rcases h.messages with hsame | ⟨m', _, _, _, hadd, -⟩
  · rwa [hsame]
  · rw [hadd]
    exact List.mem_append_left _ hm

theorem Counted.mono {d d' : Data} {id : ℕ} (h : Counted d id)
    (hmessages : ∀ m ∈ d.db.messages, m ∈ d'.db.messages)
    (hincrements : ∀ inc ∈ d.cache.increments, inc ∈ d'.cache.increments) : Counted d' id := by
  obtain ⟨m, hm, hid, inc, hinc, hkey⟩ := h
  exact ⟨m, hmessages m hm, hid, inc, hincrements inc hinc, hkey⟩

theorem Asserts.stable {S : Service} {d d' : Data} {t : Task} {own : Option Token} (h : Asserts d t)
    (heff : Effect S d d' own) (hown : ∀ b, t.owner = some b → own ≠ some b) : Asserts d' t := by
  cases t with
  | claiming _ | transaction _ => trivial
  | preparing _ _ | asking _ _ _ | locking _ _ _ | failing _ _ _ _ | accounting _ _ =>
    exact lt_of_lt_of_le h heff.tokens
  | quota id owner topic callId =>
    obtain ⟨hlt, hlock, job, hjob, hc, hopen⟩ := h
    exact ⟨hlt.trans_le heff.tokens, heff.callLock _ _ hlock (hown _ rfl), job,
      heff.locked id job owner hjob (hc ▸ hlock) (hown _ rfl), hc, hopen⟩
  | counting id owner r =>
    obtain ⟨hlt, m, hm, hrest⟩ := h
    exact ⟨hlt.trans_le heff.tokens, m, heff.mem m hm, hrest⟩
  | recording id owner success =>
    exact ⟨h.1.trans_le heff.tokens, fun hs => (h.2 hs).mono heff.mem heff.increments⟩

theorem Effect.refl {S : Service} (d : Data) (own : Option Token) : Effect S d d own :=
  ⟨le_rfl, fun _ _ h _ => h, fun _ _ _ h _ _ => h, .inl rfl, fun _ h => h⟩

/-- What a step establishes. -/
structure StepSpec (S : Service) (d d' : Data) (t : Task) (ts : List Task) : Prop where
  sound : Sound d'
  effect : Effect S d d' t.owner
  tasks : ∀ t' ∈ ts, Asserts d' t'
  owners : ∀ t' ∈ ts, ∀ a, t'.owner = some a → t.owner = some a ∨ d.nextToken ≤ a
  pairwise : ts.Pairwise Apart

theorem StepSpec.establishes {S : Service} {d d' : Data} {t : Task} {ts : List Task}
    (h : StepSpec S d d' t ts) :
    TaskSystem.Establishes Sound Asserts Apart d d' t ts where
  data := h.sound
  tasks := h.tasks
  pairwise := h.pairwise
  others u hu hapart := by
    refine ⟨hu.stable h.effect fun b hb ht => hapart b ht hb, fun t' ht' a ha ha' => ?_⟩
    rcases h.owners t' ht' a ha' with hown | hnew
    · exact hapart a hown ha
    · exact absurd (hu.owner_lt ha) (Nat.not_lt.mpr hnew)

theorem StepSpec.stop {S : Service} {d d' : Data} {t : Task} (hd : Sound d')
    (heff : Effect S d d' t.owner) : StepSpec S d d' t [] :=
  ⟨hd, heff, by simp, by simp, .nil⟩

theorem StepSpec.next {S : Service} {d d' : Data} {t t' : Task} (hd : Sound d')
    (heff : Effect S d d' t.owner) (ht' : Asserts d' t') (howner : t'.owner = t.owner) :
    StepSpec S d d' t [t'] :=
  ⟨hd, heff, by simpa using ht', fun u hu a ha => .inl (by simp_all), by simp⟩

/-- The rows of the calls nobody has locked. -/
abbrev Data.free (d : Data) : Ident → Prop := fun c => d.callLock c = none

theorem sound_of_keeps {d d' : Data} {free : Ident → Prop} {counted : ℕ → Prop} (hd : Sound d)
    (h : DbKeeps free counted d.db d'.db) (hcache : d'.cache = d.cache)
    (hcounted : ∀ id, counted id → Counted d id) : Sound d' := by
  have hmono : ∀ id, Counted d id → Counted d' id := fun id hc =>
    hc.mono (fun m hm => by rwa [h.messages]) fun inc hinc => by rwa [hcache]
  refine ⟨h.bounded hd.bounded, fun id job' hjob' => ?_, fun m hm => ?_, ?_, ?_, ?_, ?_, ?_, ?_, ?_⟩
  · cases hjob : d.db.jobs id with
    | none =>
      obtain ⟨hnone, hstatus⟩ := h.created id job' hjob' hjob
      exact ⟨fun _ => hnone, fun mid hmid => by simp [hnone] at hmid, fun hs => absurd hs hstatus⟩
    | some job =>
      obtain ⟨job₁, hjob₁, hk⟩ := h.jobs id job hjob
      obtain rfl := Option.some.inj (hjob₁.symm.trans hjob')
      have hok := hd.jobs id job hjob
      refine ⟨fun hopen => ?_, fun mid hmid => ?_, fun hs hnone => ?_⟩
      · rw [hk.message]
        exact hok.opened (hk.opened hopen)
      · rw [hk.message] at hmid
        rw [h.messages]
        exact hok.linked mid hmid
      · rcases hk.accounted hs hnone with ⟨hs₀, hnone₀⟩ | hc
        · exact hmono id (hok.accounted hs₀ hnone₀)
        · exact hmono id (hcounted id hc)
  · rw [h.messages] at hm
    obtain ⟨hlt, job, hjob, hmid, hc, hu⟩ := hd.messages m hm
    obtain ⟨job', hjob', hk⟩ := h.jobs m.jobId job hjob
    exact ⟨by rwa [h.nextMessageId], job', hjob', hk.message.trans hmid, hk.callId.trans hc,
      hk.userId.trans hu⟩
  · rw [h.messages]; exact hd.ids
  · rw [h.messages]; exact hd.perJob
  · rw [h.messages]; exact hd.perCall
  · rw [hcache, h.messages]; exact hd.counts
  · rw [hcache]; exact hd.markers
  · rw [hcache]; exact hd.remembered
  · rw [hcache]; exact hd.recounts

/-- A worker may write what nobody else has locked. -/
theorem effect_of_keeps' {S : Service} {d d' : Data} {own : Option Token} {free : Ident → Prop} {counted : ℕ → Prop}
    (h : DbKeeps free counted d.db d'.db)
    (hfree : ∀ c b, d.callLock c = some b → own ≠ some b → ¬free c)
    (htokens : d.nextToken ≤ d'.nextToken)
    (hlock : ∀ c b, d.callLock c = some b → own ≠ some b → d'.callLock c = some b)
    (hcache : d'.cache = d.cache) : Effect S d d' own where
  tokens := htokens
  callLock := hlock
  locked id job b hjob hb hne := h.locked id job hjob (hfree _ b hb hne)
  messages := .inl h.messages
  increments inc hinc := by rwa [hcache]

theorem effect_of_keeps {S : Service} {d d' : Data} {own : Option Token} {counted : ℕ → Prop}
    (h : DbKeeps d.free counted d.db d'.db) (htokens : d.nextToken ≤ d'.nextToken)
    (hlock : ∀ c b, d.callLock c = some b → own ≠ some b → d'.callLock c = some b)
    (hcache : d'.cache = d.cache) : Effect S d d' own :=
  effect_of_keeps' h (fun _ _ hb _ => by simp [hb]) htokens hlock hcache

theorem keeps_withDb {S : Service} {d : Data} {db : Db} {t : Task} {counted : ℕ → Prop} (hd : Sound d)
    (h : DbKeeps d.free counted d.db db) (hcounted : ∀ id, counted id → Counted d id) :
    Sound (d.withDb db) ∧ Effect S d (d.withDb db) t.owner :=
  ⟨sound_of_keeps hd h rfl hcounted, effect_of_keeps h le_rfl (fun _ _ h _ => h) rfl⟩

theorem free_of_unlocked {d : Data} {id : ℕ} (h : d.unlocked id = true) :
    ∀ job, d.db.jobs id = some job → d.free job.callId := by
  intro job hjob
  simpa [Data.unlocked, hjob] using h

theorem claim_spec {S : Service} {d : Data} {id : ℕ} {now : Instant} (hd : Sound d)
    (hfree : d.unlocked id = true) :
    StepSpec S d (claimStep S d id now).1 (.claiming id) (claimStep S d id now).2 := by
  have hkeeps : DbKeeps d.free (Counted d) d.db (d.db.claim S id d.nextToken now).1 :=
    claim_keeps (free_of_unlocked hfree)
  unfold claimStep
  dsimp only
  revert hkeeps
  cases d.db.claim S id d.nextToken now with
  | mk db claimed =>
    intro hkeeps
    have hsound : Sound { d with db := db, nextToken := d.nextToken + 1 } :=
      sound_of_keeps hd hkeeps rfl fun _ h => h
    have heff : Effect S d { d with db := db, nextToken := d.nextToken + 1 } none :=
      effect_of_keeps hkeeps (Nat.le_succ _) (fun _ _ h _ => h) rfl
    cases claimed with
    | done =>
      obtain ⟨hs, he⟩ := keeps_withDb (S := S) (t := .claiming id) hd hkeeps fun _ h => h
      exact .stop hs he
    | accounting =>
      exact ⟨hsound, heff, by simp [Asserts], by simp [Task.owner], by simp⟩
    | dispatching =>
      exact ⟨hsound, heff, by simp [Asserts], by simp [Task.owner], by simp⟩

theorem keeps_lockCall {d : Data} {c : Ident} {owner : Token} (h : d.callLock c = none) :
    ∀ c' b, d.callLock c' = some b → some owner ≠ some b → (d.lockCall c owner).callLock c' = some b := by
  intro c' b hb _
  have hne : c' ≠ c := by
    rintro rfl
    simp [h] at hb
  simpa [Data.lockCall, Function.update_of_ne hne] using hb

theorem keeps_unlockCall {d : Data} {c : Ident} {owner : Token} (h : d.callLock c = some owner) :
    ∀ c' b, d.callLock c' = some b → some owner ≠ some b → (d.unlockCall c).callLock c' = some b := by
  intro c' b hb hne
  have hne : c' ≠ c := by
    rintro rfl
    exact hne (h.symm.trans hb)
  simpa [Data.unlockCall, Function.update_of_ne hne] using hb

theorem owner_afterError (id : ℕ) (owner : Token) (e : FollowupError) :
    (afterError id owner e).owner = some owner := by
  cases e <;> rfl

theorem asserts_afterError {d : Data} {id : ℕ} {owner : Token} {e : FollowupError}
    (h : owner < d.nextToken) : Asserts d (afterError id owner e) := by
  cases e <;> exact h

theorem lock_spec {S : Service} {d : Data} {id : ℕ} {owner : Token} {topic : TopicResult}
    {now : Instant} (hd : Sound d) (howner : owner < d.nextToken) (hfree : d.unlocked id = true) :
    StepSpec S d (lockStep S d id owner topic now).1 (.locking id owner topic)
      (lockStep S d id owner topic now).2 := by
  unfold lockStep
  cases hcheck : d.db.firstCheck S id owner topic now with
  | error e =>
    exact .next hd (.refl d _) (asserts_afterError howner) (owner_afterError id owner e)
  | ok result =>
    obtain ⟨db, check⟩ := result
    obtain ⟨hkeeps, hask⟩ := firstCheck_keeps d.free (Counted d) hcheck
      (free_of_unlocked hfree)
    obtain ⟨hs, he⟩ := keeps_withDb (S := S) (t := .locking id owner topic) hd hkeeps fun _ h => h
    cases check with
    | ended => exact .stop hs he
    | askQuota =>
      obtain ⟨rfl, job, hjob, hopen⟩ := hask rfl
      simp only [hjob]
      have hnone : d.callLock job.callId = none := free_of_unlocked hfree job hjob
      refine .next (sound_of_keeps hd hkeeps rfl fun _ h => h)
        (effect_of_keeps hkeeps le_rfl (keeps_lockCall hnone) rfl) ⟨howner, ?_, job, hjob, rfl, hopen⟩ rfl
      simp [Data.lockCall, Data.withDb]

/-- The message of an open job, of a call that has none yet. -/
theorem sound_addMessage {d d' : Data} {id : ℕ} {job : VoiceFollowupJob} {call : VoiceCall}
    {endedAt : Instant} {r : Readings} (hd : Sound d) (hjob : d.db.jobs id = some job)
    (hopen : job.open = true) (heligible : Eligible d.db id job call endedAt)
    (hdb : d'.db = d.db.addMessage id job r) (hcache : d'.cache = d.cache) : Sound d' := by
  have hnone : job.agentMessageId = none := (hd.jobs id job hjob).opened hopen
  have hjobs : d'.db.jobs = Function.update d.db.jobs id (some { job with
      agentMessageId := some d.db.nextMessageId, status := .sent, cancelReason := none
      failReason := some .countPending, nextRetryAt := none }) := by
    rw [hdb]
    rfl
  have hmessages : ∃ m : AgentMessage, d'.db.messages = d.db.messages ++ [m] ∧
      m.id = d.db.nextMessageId ∧ m.jobId = id ∧ m.callId = job.callId ∧ m.userId = job.userId := by
    rw [hdb]
    exact ⟨_, rfl, rfl, rfl, rfl, rfl⟩
  obtain ⟨m, hmessages, hmid, hmjob, hmcall, hmuser⟩ := hmessages
  have hnext : d'.db.nextMessageId = d.db.nextMessageId + 1 := by rw [hdb]; rfl
  have hfreshJob : ∀ m' ∈ d.db.messages, m'.jobId ≠ id := by
    intro m' hm' heq
    obtain ⟨-, job', hjob', hmid', -⟩ := hd.messages m' hm'
    rw [heq, hjob] at hjob'
    obtain rfl := Option.some.inj hjob'
    simp [hnone] at hmid'
  have hfreshCall : ∀ m' ∈ d.db.messages, m'.callId ≠ job.callId := by
    intro m' hm' heq
    obtain ⟨-, job', hjob', hmid', hc, -⟩ := hd.messages m' hm'
    have hother := heligible.otherSent
    have hall := List.any_eq_false.mp hother m'.jobId (List.mem_range.mpr (hd.bounded _ _ hjob'))
    simp [hjob', hc, heq, hmid', hfreshJob m' hm'] at hall
  have hmem : ∀ m' ∈ d.db.messages, m' ∈ d'.db.messages := fun m' hm' => by
    rw [hmessages]
    exact List.mem_append_left _ hm'
  have hcounted : ∀ id, Counted d id → Counted d' id := fun id hc =>
    hc.mono hmem fun inc hinc => by rwa [hcache]
  refine ⟨fun other found hfound => ?_, fun other found hfound => ?_, fun m' hm' => ?_, ?_, ?_, ?_,
    fun inc hinc => ?_, ?_, ?_, ?_⟩
  · have hbound : d'.db.nextJobId = d.db.nextJobId := by rw [hdb]; rfl
    rw [hbound]
    by_cases h : other = id
    · subst h
      exact hd.bounded other job hjob
    · rw [hjobs, Function.update_of_ne h] at hfound
      exact hd.bounded other found hfound
  · by_cases h : other = id
    · subst h
      rw [hjobs, Function.update_self] at hfound
      obtain rfl := Option.some.inj hfound
      refine ⟨by simp [VoiceFollowupJob.open], fun mid hmid' => ⟨m, by simp [hmessages], ?_, hmjob⟩,
        by simp⟩
      exact hmid.trans (Option.some.inj hmid')
    · rw [hjobs, Function.update_of_ne h] at hfound
      have hok := hd.jobs other found hfound
      refine ⟨hok.opened, fun mid hmid' => ?_, fun hs hn => hcounted other (hok.accounted hs hn)⟩
      obtain ⟨m', hm', hrest⟩ := hok.linked mid hmid'
      exact ⟨m', hmem m' hm', hrest⟩
  · rw [hmessages] at hm'
    rw [hnext, hjobs]
    rcases List.mem_append.mp hm' with hm' | hm'
    · obtain ⟨hlt, hrest⟩ := hd.messages m' hm'
      refine ⟨by omega, ?_⟩
      rw [Function.update_of_ne (hfreshJob m' hm')]
      exact hrest
    · obtain rfl := List.mem_singleton.mp hm'
      refine ⟨by omega, _, by rw [hmjob, Function.update_self], ?_⟩
      exact ⟨by rw [hmid], hmcall.symm, hmuser.symm⟩
  · rw [hmessages]
    refine List.pairwise_append.mpr ⟨hd.ids, by simp, fun m' hm' m'' hm'' => ?_⟩
    obtain rfl := List.mem_singleton.mp hm''
    rw [hmid]
    exact (hd.messages m' hm').1.ne
  · rw [hmessages]
    refine List.pairwise_append.mpr ⟨hd.perJob, by simp, fun m' hm' m'' hm'' => ?_⟩
    obtain rfl := List.mem_singleton.mp hm''
    rw [hmjob]
    exact hfreshJob m' hm'
  · rw [hmessages]
    refine List.pairwise_append.mpr ⟨hd.perCall, by simp, fun m' hm' m'' hm'' => ?_⟩
    obtain rfl := List.mem_singleton.mp hm''
    rw [hmcall]
    exact hfreshCall m' hm'
  · rw [hcache] at hinc
    obtain ⟨m', hm', hrest⟩ := hd.counts inc hinc
    exact ⟨m', hmem m' hm', hrest⟩
  · rw [hcache]; exact hd.markers
  · rw [hcache]; exact hd.remembered
  · rw [hcache]; exact hd.recounts

theorem send_step {S : Service} {d : Data} {id : ℕ} {owner : Token} {topic : TopicResult}
    {callId : Ident} {allowed : Bool} {r : Readings} (hd : Sound d)
    (ht : Asserts d (.quota id owner topic callId)) :
    StepSpec S d (sendStep S d id owner topic callId allowed r).1 (.quota id owner topic callId)
      (sendStep S d id owner topic callId allowed r).2 := by
  obtain ⟨howner, hlock, job, hjob, hc, hopen⟩ := ht
  have hunlock : ∀ c b, d.callLock c = some b → some owner ≠ some b →
      (d.unlockCall callId).callLock c = some b := keeps_unlockCall hlock
  unfold sendStep
  cases hsend : d.db.send S id topic allowed r with
  | error e =>
    exact .next (sound_of_keeps hd (.refl d.free (Counted d) d.db) rfl fun _ h => h)
      (effect_of_keeps (.refl d.free (Counted d) d.db) le_rfl hunlock rfl)
      (asserts_afterError howner) (owner_afterError id owner e)
  | ok result =>
    obtain ⟨db, ended⟩ := result
    have hown : ∀ job', d.db.jobs id = some job' → job'.callId = callId := by
      intro job' hjob'
      obtain rfl := Option.some.inj (hjob.symm.trans hjob')
      exact hc
    have hothers : ∀ c b, d.callLock c = some b → some owner ≠ some b → ¬c = callId := by
      rintro c b hb hne rfl
      exact hne (hlock.symm.trans hb)
    rcases send_spec (· = callId) (Counted d) hsend hown with
      ⟨rfl, hkeeps⟩ | ⟨rfl, job', call, endedAt, hjob', rfl, heligible, hdeadline, hwindow⟩
    · exact .stop (sound_of_keeps hd hkeeps rfl fun _ h => h)
        (effect_of_keeps' hkeeps hothers le_rfl hunlock rfl)
    · obtain rfl := Option.some.inj (hjob.symm.trans hjob')
      refine .next (sound_addMessage hd hjob hopen heligible rfl rfl) ⟨le_rfl, hunlock, ?_, ?_, ?_⟩
        howner rfl
      · intro other found b hfound hb hne
        have hother : other ≠ id := by
          rintro rfl
          obtain rfl := Option.some.inj (hjob.symm.trans hfound)
          exact hothers _ b hb hne hc
        simpa [Data.unlockCall, Data.withDb, Db.addMessage, Db.putJob, Db.allocate,
          Function.update_of_ne hother] using hfound
      · exact .inr ⟨_, job, call, endedAt, rfl, hjob, rfl, rfl, rfl, hwindow, hdeadline, heligible⟩
      · exact fun _ hinc => hinc

theorem eq_of_pairwise_ne {α β : Type*} {f : α → β} {l : List α} (h : l.Pairwise fun a b => f a ≠ f b)
    {a b : α} (ha : a ∈ l) (hb : b ∈ l) (heq : f a = f b) : a = b :=
  List.inj_on_of_nodup_map (List.pairwise_map.mpr h) ha hb heq

theorem account_spec {S : Service} {d : Data} {id : ℕ} {owner : Token} (hd : Sound d) (howner : owner < d.nextToken)
    (hfree : d.unlocked id = true) :
    StepSpec S d (accountStep d id owner).1 (.accounting id owner) (accountStep d id owner).2 := by
  have hkeeps : DbKeeps d.free (Counted d) d.db (d.db.account id owner).1 :=
    account_keeps (free_of_unlocked hfree)
  unfold accountStep
  revert hkeeps
  cases haccount : d.db.account id owner with
  | mk db request =>
    intro hkeeps
    obtain ⟨hs, he⟩ := keeps_withDb (S := S) (t := .accounting id owner) hd hkeeps fun _ h => h
    cases request with
    | none => exact .stop hs he
    | some r =>
      obtain ⟨job, m, hjob, hm, hmid, hkey, huser, hat⟩ := account_request haccount
      obtain ⟨-, job', hjob', hmid', -⟩ := hd.messages m hm
      have hmjob : m.jobId = id := by
        obtain ⟨m', hm', hid', hjob₁⟩ := (hd.jobs id job hjob).linked m.id hmid
        obtain rfl : m' = m := eq_of_pairwise_ne hd.ids hm' hm hid'
        exact hjob₁
      exact .next hs he ⟨howner, m, he.mem m hm, hmjob, by rw [hkey, hmjob], huser, hat⟩ rfl

/-- The counter is raised, unless the marker of the message is still there. -/
theorem countOnce_cases (c : Cache) (r : CountRequest) (now : Instant) :
    (∃ t, c.markers r.key = some t ∧ now < t ∧ c.countOnce r now = c) ∨
      (∀ t, c.markers r.key = some t → t ≤ now) ∧ c.countOnce r now =
        { increments := c.increments ++
            [⟨r.userId, r.occurredAt / dayMicros, r.key, now, now + micros r.dedupeTtlSeconds⟩]
          markers := Function.update c.markers r.key (some (now + micros r.dedupeTtlSeconds)) } := by
  unfold Cache.countOnce
  cases hmarker : c.markers r.key with
  | none => exact .inr ⟨by simp, by simp [isAfter]⟩
  | some t =>
    by_cases hlt : now < t
    · exact .inl ⟨t, rfl, hlt, by simp [isAfter, hlt]⟩
    · exact .inr ⟨by simpa using hlt, by simp [isAfter, hlt]⟩

theorem count_spec {S : Service} {d : Data} {id : ℕ} {owner : Token} {r : CountRequest} {now : Instant}
    {answered : Bool} (hd : Sound d) (ht : Asserts d (.counting id owner r)) :
    StepSpec S d (countStep d id owner r now answered).1 (.counting id owner r)
      (countStep d id owner r now answered).2 := by
  obtain ⟨howner, m, hm, hmjob, hkey, huser, hat⟩ := ht
  unfold countStep
  by_cases hvalid : r.valid = true
  · rw [if_pos hvalid]
    have httl : 0 ≤ micros r.dedupeTtlSeconds := by
      simp only [CountRequest.valid, Bool.and_eq_true, decide_eq_true_eq] at hvalid
      have := hvalid.2
      unfold micros
      omega
    rcases countOnce_cases d.cache r now with ⟨t, hmarker, -, hsame⟩ | ⟨hexpired, hraised⟩
    · -- counted before
      rw [hsame]
      obtain ⟨inc, hinc, hikey⟩ := hd.markers r.key t hmarker
      exact .next hd (.refl d _) ⟨howner, fun _ => ⟨m, hm, hmjob, inc, hinc, hikey.trans hkey⟩⟩ rfl
    · rw [hraised]
      refine .next ⟨hd.bounded, fun other job hjob => ?_, hd.messages, hd.ids, hd.perJob, hd.perCall, ?_,
        ?_, ?_, ?_⟩ ⟨le_rfl, fun _ _ h _ => h, fun _ _ _ h _ _ => h, .inl rfl,
          fun _ h => List.mem_append_left _ h⟩
        ⟨howner, fun _ => ⟨m, hm, hmjob, _, List.mem_append_right _ (List.mem_singleton_self _), hkey⟩⟩ rfl
      · have hok := hd.jobs other job hjob
        exact ⟨hok.opened, hok.linked, fun hs hn => (hok.accounted hs hn).mono (fun _ h => h)
          fun _ h => List.mem_append_left _ h⟩
      · intro inc hinc
        rcases List.mem_append.mp hinc with hinc | hinc
        · exact hd.counts inc hinc
        · obtain rfl := List.mem_singleton.mp hinc
          exact ⟨m, hm, hkey, huser, by rw [hat]⟩
      · intro key t hmarker
        by_cases hk : key = r.key
        · exact ⟨_, List.mem_append_right _ (List.mem_singleton_self _), hk.symm⟩
        · obtain ⟨inc, hinc, hikey⟩ := hd.markers key t (by simpa [Function.update_of_ne hk] using hmarker)
          exact ⟨inc, List.mem_append_left _ hinc, hikey⟩
      · intro inc hinc
        rcases List.mem_append.mp hinc with hinc | hinc
        · obtain ⟨t, ht, hle⟩ := hd.remembered inc hinc
          by_cases hk : inc.key = r.key
          · have := hexpired t (hk ▸ ht)
            exact ⟨now + micros r.dedupeTtlSeconds, by simp [hk],
              hle.trans (this.trans (le_add_of_nonneg_right httl))⟩
          · exact ⟨t, by simpa [Function.update_of_ne hk] using ht, hle⟩
        · obtain rfl := List.mem_singleton.mp hinc
          exact ⟨_, by simp, le_rfl⟩
      · refine List.pairwise_append.mpr ⟨hd.recounts, by simp, fun a ha b hb hk => ?_⟩
        obtain rfl := List.mem_singleton.mp hb
        obtain ⟨t, ht, hle⟩ := hd.remembered a ha
        have hk : a.key = r.key := hk
        rw [hk] at ht
        exact hle.trans (hexpired t ht)
  · rw [if_neg hvalid]
    exact .next hd (.refl d _) ⟨howner, by simp⟩ rfl

/-! ### Runs -/

theorem advance_spec {S : Service} {d d' : Data} {t : Task} {o : Outcome} {ts : List Task}
    (hd : Sound d) (ht : Asserts d t) (h : advance S d t o = some (d', ts)) : StepSpec S d d' t ts := by
  cases t with
  | claiming id =>
    cases o <;> simp only [advance, reduceCtorEq] at h
    case commit now =>
      split at h
      · rename_i hfree
        have hspec : StepSpec S d (claimStep S d id now).1 (.claiming id) (claimStep S d id now).2 :=
          claim_spec hd hfree
        rwa [Option.some.inj h] at hspec
      · simp at h
    all_goals
      obtain ⟨rfl, rfl⟩ := by simpa using h
      exact .stop hd (.refl d _)
  | preparing id owner =>
    cases o <;> simp only [advance, reduceCtorEq] at h
    case commit now =>
      obtain ⟨rfl, rfl⟩ := by simpa using h
      refine .next hd (.refl d _) ?_ ?_ <;> unfold prepareStep <;> split
      · exact asserts_afterError ht
      · exact ht
      · exact ht
      · exact owner_afterError _ _ _
      · rfl
      · rfl
    case raised =>
      obtain ⟨rfl, rfl⟩ := by simpa using h
      exact .next hd (.refl d _) ht rfl
    case crash =>
      obtain ⟨rfl, rfl⟩ := by simpa using h
      exact .stop hd (.refl d _)
  | asking id owner digest =>
    cases o <;> simp only [advance, reduceCtorEq] at h
    case crash =>
      obtain ⟨rfl, rfl⟩ := by simpa using h
      exact .stop hd (.refl d _)
    all_goals
      obtain ⟨rfl, rfl⟩ := by simpa using h
      exact .next hd (.refl d _) ht rfl
  | locking id owner topic =>
    cases o <;> simp only [advance, reduceCtorEq] at h
    case commit now =>
      split at h
      · rename_i hfree
        have hspec : StepSpec S d (lockStep S d id owner topic now).1 (.locking id owner topic)
            (lockStep S d id owner topic now).2 := lock_spec hd ht hfree
        rwa [Option.some.inj h] at hspec
      · simp at h
    case raised =>
      obtain ⟨rfl, rfl⟩ := by simpa using h
      exact .next hd (.refl d _) ht rfl
    case crash =>
      obtain ⟨rfl, rfl⟩ := by simpa using h
      exact .stop hd (.refl d _)
  | quota id owner topic callId =>
    have hsound : Sound (d.unlockCall callId) :=
      sound_of_keeps hd (.refl d.free (Counted d) d.db) rfl fun _ h => h
    have heff : Effect S d (d.unlockCall callId) (some owner) :=
      effect_of_keeps (.refl d.free (Counted d) d.db) le_rfl (keeps_unlockCall ht.2.1) rfl
    cases o <;> simp only [advance, reduceCtorEq] at h
    case quota allowed r =>
      have hspec : StepSpec S d (sendStep S d id owner topic callId allowed r).1
          (.quota id owner topic callId) (sendStep S d id owner topic callId allowed r).2 :=
        send_step hd ht
      rwa [Option.some.inj h] at hspec
    case raised =>
      obtain ⟨rfl, rfl⟩ := by simpa using h
      exact .next hsound heff ht.1 rfl
    case crash =>
      obtain ⟨rfl, rfl⟩ := by simpa using h
      exact .stop hsound heff
  | failing id owner reason retryable =>
    cases o <;> simp only [advance, reduceCtorEq] at h
    case commit now =>
      split at h
      · rename_i hfree
        obtain ⟨rfl, rfl⟩ := by simpa using h
        obtain ⟨hs, he⟩ := keeps_withDb (S := S) (t := .failing id owner reason retryable) hd
          (failure_keeps (S := S) (Counted d) (free_of_unlocked hfree)) fun _ h => h
        exact .stop hs he
      · simp at h
    all_goals
      obtain ⟨rfl, rfl⟩ := by simpa using h
      exact .stop hd (.refl d _)
  | accounting id owner =>
    cases o <;> simp only [advance, reduceCtorEq] at h
    case commit now =>
      split at h
      · rename_i hfree
        have hspec : StepSpec S d (accountStep d id owner).1 (.accounting id owner)
            (accountStep d id owner).2 := account_spec hd ht hfree
        rwa [Option.some.inj h] at hspec
      · simp at h
    all_goals
      obtain ⟨rfl, rfl⟩ := by simpa using h
      exact .stop hd (.refl d _)
  | counting id owner r =>
    have hspec : ∀ now answered, StepSpec S d (countStep d id owner r now answered).1
        (.counting id owner r) (countStep d id owner r now answered).2 :=
      fun now answered => count_spec hd ht
    cases o <;> simp only [advance, reduceCtorEq] at h
    case counted now =>
      have hs := hspec now true
      rwa [Option.some.inj h] at hs
    case countLost now =>
      have hs := hspec now false
      rwa [Option.some.inj h] at hs
    case raised =>
      obtain ⟨rfl, rfl⟩ := by simpa using h
      exact .next hd (.refl d _) ⟨ht.1, by simp⟩ rfl
    case crash =>
      obtain ⟨rfl, rfl⟩ := by simpa using h
      exact .stop hd (.refl d _)
  | recording id owner success =>
    cases o <;> simp only [advance, reduceCtorEq] at h
    case commit now =>
      split at h
      · rename_i hfree
        obtain ⟨rfl, rfl⟩ := by simpa using h
        obtain ⟨hs, he⟩ := keeps_withDb (S := S) (t := .recording id owner success) hd
          (recordCount_keeps (S := S) (Counted d) (free_of_unlocked hfree) ht.2) fun _ h => h
        exact .stop hs he
      · simp at h
    all_goals
      obtain ⟨rfl, rfl⟩ := by simpa using h
      exact .stop hd (.refl d _)
  | transaction t =>
    cases o <;> simp only [advance, reduceCtorEq] at h
    case commit now =>
      obtain ⟨db, hdb, heq⟩ := Option.map_eq_some_iff.mp h
      obtain ⟨rfl, rfl⟩ := by simpa using heq
      obtain ⟨hs, he⟩ := keeps_withDb (S := S) (t := .transaction t) hd
        (runTransaction_keeps (Counted d) hd.bounded hdb) fun _ h => h
      exact .stop hs he
    all_goals
      obtain ⟨rfl, rfl⟩ := by simpa using h
      exact .stop hd (.refl d _)

theorem sound_initial {d : Data} (h : d.Initial) : Sound d where
  bounded id job hjob := by simp [h.jobs] at hjob
  jobs id job hjob := by simp [h.jobs] at hjob
  messages m hm := by simp [h.messages] at hm
  ids := by simp [h.messages]
  perJob := by simp [h.messages]
  perCall := by simp [h.messages]
  counts inc hinc := by simp [h.increments] at hinc
  markers key t ht := by simp [h.markers] at ht
  remembered inc hinc := by simp [h.increments] at hinc
  recounts := by simp [h.increments]

/-- In every state of a run. -/
theorem reachable_sound {S : Service} {w : World Data Task} (hw : (system S).machine.Reachable w) :
    TaskSystem.Holds Sound Asserts Apart w := by
  refine TaskSystem.reachable_holds (fun _ _ => Apart.symm) (fun _ => sound_initial) ?_ ?_ hw
  · intro d o ts _ h
    have hts : ∃ t, ts = [t] ∧ Asserts d t ∧ t.owner = none := by
      simp only [system] at h
      split at h
      · exact ⟨_, (Option.some.inj h).symm, trivial, rfl⟩
      · exact ⟨_, (Option.some.inj h).symm, trivial, rfl⟩
      · simp at h
    obtain ⟨t, rfl, ht, hnone⟩ := hts
    have hapart : ∀ u, Apart u t := fun u a _ => by simp [hnone]
    exact ⟨by simpa using ht, by simp, by simpa using hapart⟩
  · intro d t o d' ts hd ht h
    exact (advance_spec hd ht h).establishes

/-- A message of a state and its counts: at most one for each job and each call, sent when it was
allowed; the counter is raised for messages only, again only once its marker is gone, and an
accounted job has been counted. -/
structure FollowupsSafe (S : Service) (w : World Data Task) : Prop where
  perJob : w.data.db.messages.Pairwise fun m m' => m.jobId ≠ m'.jobId
  perCall : w.data.db.messages.Pairwise fun m m' => m.callId ≠ m'.callId
  counts : ∀ inc ∈ w.data.cache.increments, ∃ m ∈ w.data.db.messages,
    inc.key = (m.userId, m.jobId, m.id) ∧ inc.userId = m.userId ∧ inc.day = m.createdAt / dayMicros
  recounts : w.data.cache.increments.Pairwise fun a b => a.key = b.key →
    a.rememberedUntil ≤ b.raisedAt
  accounted : ∀ id job, w.data.db.jobs id = some job → job.status = .sent → job.failReason = none →
    Counted w.data id
  sends : ∀ i w', (system S).machine.step w i = some w' →
    w'.data.db.messages = w.data.db.messages ∨ ∃ m job call endedAt,
      w'.data.db.messages = w.data.db.messages ++ [m] ∧ Permitted S w.data.db m job call endedAt

/-- Follow-ups are safe in every run. -/
theorem followups_safe (S : Service) {w : World Data Task} (hw : (system S).machine.Reachable w) :
    FollowupsSafe S w := by
  have hholds := reachable_sound hw
  have hd := hholds.data
  refine ⟨hd.perJob, hd.perCall, hd.counts, hd.recounts,
    fun id job hjob => (hd.jobs id job hjob).accounted, ?_⟩
  rintro (o | ⟨k, o⟩) w' hstep
  · obtain ⟨ts, -, rfl⟩ := Option.map_eq_some_iff.mp hstep
    exact .inl rfl
  · obtain ⟨t, ht, hrest⟩ := Option.bind_eq_some_iff.mp hstep
    obtain ⟨⟨d', ts⟩, hadv, rfl⟩ := Option.map_eq_some_iff.mp hrest
    exact (advance_spec hd (hholds.tasks t (List.mem_of_getElem? ht)) hadv).effect.messages

/-! ### A follow-up of a missed call -/

def asciiDecimal (c : Char) : Option ℕ := digitBelow '9' c

def sampleService : Service := ⟨60, 30, asciiDecimal, fun _ => []⟩

def missedCall : VoiceCall :=
  ⟨7, .missed, none, some 0, 0, .notApplicable, none, none, none, .null, none⟩

/-- A job for the calls of the sample, allowed all day and due within ten microseconds. -/
def sampleJob (callId : Ident) : VoiceFollowupJob where
  callId := callId
  userId := 7
  contentType := .missedExplanation
  content := "sorry I missed you".toList
  status := .pending
  dueAt := 0
  latestDueAt := 10
  timezoneSnapshot := "Asia/Shanghai".toList
  allowedWindowSnapshot :=
    .arr [.obj [("start".toList, .str "00:00".toList), ("end".toList, .str "23:59".toList)]]
  attemptCount := 0
  nextRetryAt := none
  failReason := none
  cancelReason := none
  leaseOwner := none
  leaseExpiresAt := none
  agentMessageId := none
  createdAt := 0

/-- Two missed calls of one user. -/
def sampleData : Data where
  db :=
    { calls := fun c => if c = "A".toList ∨ c = "B".toList then some missedCall else none
      turns := [], jobs := fun _ => none, nextJobId := 1, chats := [], messages := []
      nextMessageId := 1, nextSeq := fun _ => 1 }
  cache := ⟨[], fun _ => none⟩
  callLock := fun _ => none
  nextToken := 0

theorem sampleStart : (system sampleService).machine.start ⟨sampleData, []⟩ :=
  ⟨⟨rfl, rfl, rfl, rfl, rfl⟩, rfl⟩

def onTask (o : Outcome) : TaskSystems.Input Outcome := .task 0 o

/-- The job of call A sends its message; the commit comes at the given instant. -/
def sendRun (committed : Instant) : List (TaskSystems.Input Outcome) :=
  [.request (.request (.transaction (.schedule (sampleJob "A".toList)))), onTask (.commit 0),
    .request (.request (.process 1)), onTask (.commit 1), onTask (.commit 2), onTask (.commit 3),
    onTask (.quota true ⟨4, 5, 6, committed⟩), onTask (.commit 7)]

/-- A message sent and counted. -/
theorem followups_safe_sent : FollowupsSafe sampleService ((system sampleService).machine.after
    ⟨sampleData, []⟩ (sendRun 6 ++ [onTask (.counted 8), onTask (.commit 9)])) :=
  followups_safe sampleService (Machine.reachable_after sampleStart (by decide))

/-- The other call of the user is deleted first. -/
def fencedFirst : World Data Task := (system sampleService).machine.after ⟨sampleData, []⟩
  ([.request (.request (.transaction (.fence "B".toList))), onTask (.commit 0)] ++ sendRun 20)

/-- The answer of the count is lost, and the job is taken up again after its log has expired. -/
def countedTwice : World Data Task := (system sampleService).machine.after ⟨sampleData, []⟩
  (sendRun 6 ++ [onTask (.countLost 8), onTask (.commit 9), .request (.request (.process 1)),
    onTask (.commit (90 * dayMicros + 100)), onTask (.commit (90 * dayMicros + 101)),
    onTask (.counted (90 * dayMicros + 102)), onTask (.commit (90 * dayMicros + 103))])

/-- A message is committed after its deadline, and after a fence of another call of its user; and a
message is counted twice. -/
theorem late_commit_and_recount :
    (∃ w, (system sampleService).machine.Reachable w ∧
      (w.data.db.calls "B".toList).any (·.deletionFenceAt.isSome) = true ∧
      (w.data.db.messages.any fun m => m.userId = 7 &&
        (w.data.db.jobs m.jobId).any fun job => decide (job.latestDueAt < m.committedAt)) = true) ∧
    ∃ w, (system sampleService).machine.Reachable w ∧ w.data.db.messages.length = 1 ∧
      w.data.cache.increments.map (·.key) = [(7, 1, 1), (7, 1, 1)] :=
  ⟨⟨fencedFirst, Machine.reachable_after sampleStart (by decide), by decide,
      by decide⟩,
    countedTwice, Machine.reachable_after sampleStart (by decide), by decide,
    by decide⟩

end CompanionBackend.FollowupWorkers
