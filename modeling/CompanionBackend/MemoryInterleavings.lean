import CompanionBackend.MemoryWorkers
import CompanionBackend.MemoryJobSteps

/-!
# Interleavings of memory workers

What holds between the steps of the workers. A write owns its document and its job's
row, so between its checks and its trace nobody adds a trace of the document and
nobody fences the call. Two readings share the invariant: with `strict`, no claim
takes a settled job of a fenced call; with `calm`, no abandoned upsert takes effect.
-/
namespace CompanionBackend.MemoryWorkers

open Runs ProviderEvents TaskSystems MemoryJobs
open TurnRecords (MemoryStatus)

/-- The turn an upsert is from comes before that of the other. -/
def Upsert.before (u v : Upsert) : Prop :=
  u.callRow < v.callRow ∨ u.callRow = v.callRow ∧ u.turnIndex < v.turnIndex

instance (u v : Upsert) : Decidable (u.before v) :=
  inferInstanceAs (Decidable (_ ∨ _))

/-- The token of a worker that has claimed a job. -/
def Task.token : Task → Option Token
  | .extracting c | .saving c _ _ | .looping c _ | .writing c _ _ | .docLocked c _ _
  | .upserting c _ _ _ _ | .finishing c _ _ => some c.token
  | .opening _ | .opened _ _ | .stray _ | .transaction _ => none

/-- Two tasks are not the same worker. -/
def Apart (t u : Task) : Prop := ∀ a, t.token = some a → u.token ≠ some a

theorem Apart.symm {t u : Task} (h : Apart t u) : Apart u t := fun a hu ht => h a ht hu

theorem apart_of_none {t u : Task} (h : u.token = none) : Apart t u := by
  intro a _
  simp [h]

/-- Documents name their user. -/
theorem buildDocId_user {hash : Text → Text} {kind kind' : MemoryKind} {key key' : Text} {user user' : ℕ}
    (h : buildDocId hash kind key user = buildDocId hash kind' key' user') : user = user' := by
  have hlast : ∀ kind key user, (buildDocId hash kind key user).reverse.takeWhile (· ≠ '_') =
      (Nat.toDigits 10 user).reverse := by
    intro kind key user
    have hsplit : (buildDocId hash kind key user).reverse = (Nat.toDigits 10 user).reverse ++
        '_' :: (kind.name ++ '_' :: hash key).reverse := by
      simp [buildDocId]
    have hdigits : ∀ c ∈ (Nat.toDigits 10 user).reverse, decide (c ≠ '_') = true := by
      intro c hc
      simp only [decide_eq_true_eq]
      rintro rfl
      exact Nat.underscore_not_in_toDigits (List.mem_reverse.mp hc)
    rw [hsplit, List.takeWhile_append_of_pos hdigits]
    simp
  have hdigits : Nat.toDigits 10 user = Nat.toDigits 10 user' := by
    rw [← List.reverse_inj, ← hlast kind key user, ← hlast kind' key' user', h]
  rw [← Nat.ofDigitChars_ten_toDigits (n := user), hdigits, Nat.ofDigitChars_ten_toDigits]

section

variable (hash : Text → Text) (calm strict : Prop)

/-! ### What a task relies on -/

structure Known (d : Data) (c : Claim) : Prop where
  token : c.token < d.nextToken
  job : ∃ job, d.db.jobs c.jobId = some job ∧ job.callId = c.callId
  call : ∃ call, d.db.calls c.callId = some call ∧ call.userId = c.userId

/-- A write between its checks and its trace. -/
structure Writing (d : Data) (c : Claim) (item : MemoryItem) (u : Upsert) (landed : Bool) : Prop where
  doc : u.docId = c.docId hash item
  turn : u.turnIndex = c.turnIndex
  row : ∃ call, d.db.calls c.callId = some call ∧ call.id = u.callRow ∧ call.deletionFenceAt = none
  docLock : d.docLock u.docId = some c.token
  jobLock : d.jobLock c.jobId = some c.token
  sent : u ∈ d.sent
  newest : ∀ v ∈ d.traced, v.docId = u.docId → v.before u
  fresh : ∀ t ∈ d.db.traces, ¬(t.callId = c.callId ∧ t.turnIndex = c.turnIndex ∧ t.docId = u.docId)
  landed : calm → landed = true → d.store u.docId = some u

def Asserts (d : Data) : Task → Prop
  | .opened callId id => ∃ job, d.db.jobs id = some job ∧ job.callId = callId
  | .extracting c | .saving c _ _ | .looping c _ | .writing c _ _ => Known d c
  | .docLocked c item _ => Known d c ∧ d.docLock (c.docId hash item) = some c.token
  | .upserting c item u landed _ => Known d c ∧ Writing hash calm d c item u landed
  | .finishing c status _ => Known d c ∧ status ≠ .pending ∧ status ≠ .processing
  | .opening _ | .stray _ | .transaction _ => True

variable {hash calm} in
theorem Asserts.token_lt {d : Data} {t : Task} {a : Token} (h : Asserts hash calm d t)
    (ht : t.token = some a) : a < d.nextToken := by
  cases t with
  | opening _ | opened _ _ | stray _ | transaction _ => simp [Task.token] at ht
  | extracting c | saving c _ _ | looping c _ | writing c _ _ =>
    obtain rfl := Option.some.inj ht
    exact h.token
  | docLocked c _ _ | upserting c _ _ _ _ | finishing c _ _ =>
    obtain rfl := Option.some.inj ht
    exact h.1.token

/-- A trace and the upsert it was committed for. -/
structure Linked (db : Db) (t : VoiceMemoryTrace) (u : Upsert) : Prop where
  doc : t.docId = u.docId
  turn : t.turnIndex = u.turnIndex
  call : ∃ call, db.calls t.callId = some call ∧ call.id = u.callRow ∧
    ∃ kind key, t.docId = buildDocId hash kind key call.userId

def SameKey (t t' : VoiceMemoryTrace) : Prop :=
  t.callId = t'.callId ∧ t.turnIndex = t'.turnIndex ∧ t.docId = t'.docId

/-- What holds of the data at every point. -/
structure Sound (d : Data) : Prop where
  bounded : ∀ id job, d.db.jobs id = some job → id < d.db.nextJobId
  callRows : ∀ c c' call call', d.db.calls c = some call → d.db.calls c' = some call' →
    call.id = call'.id → c = c'
  budget : ∀ id job, d.db.jobs id = some job →
    Budget (d.db.retryLimit job.callId) (d.db.adminRetries id) job
  keys : d.db.traces.Pairwise fun t t' => ¬SameKey t t'
  linked : ∀ t ∈ d.db.traces, ∃ u ∈ d.traced, Linked hash d.db t u
  traced : ∀ u ∈ d.traced, ∃ t ∈ d.db.traces, Linked hash d.db t u
  fenced : strict → ∀ c call, d.db.calls c = some call → call.deletionFenceAt.isSome = true →
    ∀ id job, d.db.jobs id = some job → job.callId = c → settled job.status = true
  stored : calm → ∀ u ∈ d.traced, ∃ s, d.store u.docId = some s ∧ s.docId = u.docId ∧
    (s = u ∨ u.before s ∧ s ∈ d.sent)

/-! ### What a step leaves to the other tasks -/

/-- A step of the task with the token `own`. -/
structure Effect (d d' : Data) (own : Option Token) : Prop where
  tokens : d.nextToken ≤ d'.nextToken
  calls : ∀ c, Option.Rel SameCall (d.db.calls c) (d'.db.calls c)
  jobs : ∀ id job, d.db.jobs id = some job → ∃ job', d'.db.jobs id = some job' ∧
    job'.callId = job.callId ∧ (strict → settled job.status = true → job'.status = job.status)
  fences : ∀ c call call', d.db.calls c = some call → d'.db.calls c = some call' →
    call.deletionFenceAt = none → call'.deletionFenceAt.isSome = true →
      ∀ id job, d.db.jobs id = some job → job.callId = c → d.jobLock id = none
  jobLock : ∀ id b, d.jobLock id = some b → own ≠ some b → d'.jobLock id = some b
  docLock : ∀ doc b, d.docLock doc = some b → own ≠ some b → d'.docLock doc = some b
  sent : ∀ u ∈ d.sent, u ∈ d'.sent
  traced : ∀ doc b, d.docLock doc = some b → own ≠ some b →
    ∀ v ∈ d'.traced, v.docId = doc → v ∈ d.traced
  traces : ∀ doc b, d.docLock doc = some b → own ≠ some b →
    ∀ t ∈ d'.db.traces, t.docId = doc → t ∈ d.db.traces
  store : calm → ∀ doc b, d.docLock doc = some b → own ≠ some b → d'.store doc = d.store doc
  /-- A trace is committed only of a call that is not fenced. -/
  quiet : ∀ t ∈ d'.db.traces, t ∈ d.db.traces ∨
    ∃ call, d.db.calls t.callId = some call ∧ call.deletionFenceAt = none
  /-- What is written over the store is from a later turn than every trace. -/
  overwrites : calm → ∀ doc, d'.store doc = d.store doc ∨
    ∃ s, d'.store doc = some s ∧ ∀ v ∈ d.traced, v.docId = doc → v.before s

variable {hash calm strict}

theorem Known.stable {d d' : Data} {c : Claim} {own : Option Token} (h : Known d c)
    (heff : Effect calm strict d d' own) : Known d' c where
  token := h.token.trans_le heff.tokens
  job := by
    obtain ⟨job, hjob, hc⟩ := h.job
    obtain ⟨job', hjob', hsame, -⟩ := heff.jobs c.jobId job hjob
    exact ⟨job', hjob', hsame.trans hc⟩
  call := by
    obtain ⟨call, hcall, hu⟩ := h.call
    have hrel := heff.calls c.callId
    rw [hcall] at hrel
    cases hd' : d'.db.calls c.callId with
    | none => rw [hd'] at hrel; cases hrel
    | some call' =>
      rw [hd'] at hrel
      cases hrel with
      | some hs => exact ⟨call', rfl, hs.userId.trans hu⟩

theorem Effect.call {d d' : Data} {own : Option Token} (heff : Effect calm strict d d' own) {c : Ident}
    {call : MemoryCall} (hcall : d.db.calls c = some call) :
    ∃ call', d'.db.calls c = some call' ∧ SameCall call call' := by
  have hrel := heff.calls c
  rw [hcall] at hrel
  cases hd' : d'.db.calls c with
  | none => rw [hd'] at hrel; cases hrel
  | some call' =>
    rw [hd'] at hrel
    cases hrel with
    | some hs => exact ⟨call', rfl, hs⟩

theorem Writing.stable {d d' : Data} {c : Claim} {item : MemoryItem} {u : Upsert} {landed : Bool}
    {own : Option Token} (h : Writing hash calm d c item u landed) (hknown : Known d c)
    (heff : Effect calm strict d d' own) (hown : own ≠ some c.token) :
    Writing hash calm d' c item u landed where
  doc := h.doc
  turn := h.turn
  row := by
    obtain ⟨call, hcall, hid, hfence⟩ := h.row
    obtain ⟨call', hcall', hs⟩ := heff.call hcall
    refine ⟨call', hcall', hs.id.trans hid, ?_⟩
    -- a fence would have found the job's row unlocked
    by_contra hnot
    obtain ⟨job, hjob, hc⟩ := hknown.job
    have hfree := heff.fences c.callId call call' hcall hcall' hfence (Option.isSome_iff_ne_none.mpr hnot)
      c.jobId job hjob hc
    simp [h.jobLock] at hfree
  docLock := heff.docLock _ _ h.docLock hown
  jobLock := heff.jobLock _ _ h.jobLock hown
  sent := heff.sent u h.sent
  newest v hv hdoc := h.newest v (heff.traced _ _ h.docLock hown v hv hdoc) hdoc
  fresh t ht hkey := h.fresh t (heff.traces _ _ h.docLock hown t ht hkey.2.2) hkey
  landed hcalm hlanded := by
    rw [heff.store hcalm _ _ h.docLock hown]
    exact h.landed hcalm hlanded

theorem Asserts.stable {d d' : Data} {t : Task} {own : Option Token} (h : Asserts hash calm d t)
    (heff : Effect calm strict d d' own) (hown : ∀ b, t.token = some b → own ≠ some b) :
    Asserts hash calm d' t := by
  cases t with
  | opening _ | stray _ | transaction _ => trivial
  | opened callId id =>
    obtain ⟨job, hjob, hc⟩ := h
    obtain ⟨job', hjob', hsame, -⟩ := heff.jobs id job hjob
    exact ⟨job', hjob', hsame.trans hc⟩
  | extracting c | saving c _ _ | looping c _ | writing c _ _ => exact Known.stable h heff
  | docLocked c item _ => exact ⟨h.1.stable heff, heff.docLock _ _ h.2 (hown _ rfl)⟩
  | upserting c item u landed _ => exact ⟨h.1.stable heff, h.2.stable h.1 heff (hown _ rfl)⟩
  | finishing c _ _ => exact ⟨h.1.stable heff, h.2⟩

theorem Effect.refl (d : Data) (own : Option Token) : Effect calm strict d d own where
  tokens := le_rfl
  calls _ := rel_refl_calls _
  jobs _ job hjob := ⟨job, hjob, rfl, fun _ _ => rfl⟩
  fences c call call' hcall hcall' hnone hsome := by
    obtain rfl := Option.some.inj (hcall.symm.trans hcall')
    simp [hnone] at hsome
  jobLock _ _ h _ := h
  docLock _ _ h _ := h
  sent _ h := h
  traced _ _ _ _ _ h _ := h
  traces _ _ _ _ _ h _ := h
  store _ _ _ _ _ := rfl
  quiet _ h := .inl h
  overwrites _ _ := .inl rfl

/-- The free rows of the data. -/
abbrev Data.free (d : Data) : ℕ → Prop := fun id => d.isFree id = true

theorem free_iff {d : Data} {id : ℕ} : d.free id ↔ d.jobLock id = none := by
  simp [Data.free, Data.isFree]

/-- A step that changes the tables by a transaction, and the locks of its own task. -/
theorem Effect.tables {d d' : Data} {own : Option Token} (h : DbStep d.free strict d.db d'.db)
    (htokens : d.nextToken ≤ d'.nextToken)
    (hjob : ∀ id b, d.jobLock id = some b → own ≠ some b → d'.jobLock id = some b)
    (hdoc : ∀ doc b, d.docLock doc = some b → own ≠ some b → d'.docLock doc = some b)
    (hsent : ∀ u ∈ d.sent, u ∈ d'.sent) (htraced : d'.traced = d.traced)
    (hstore : d'.store = d.store) : Effect calm strict d d' own where
  tokens := htokens
  calls := h.calls
  jobs id job hj := by
    obtain ⟨job', hjob', hm⟩ := h.jobs id job hj
    exact ⟨job', hjob', hm.callId, hm.kept⟩
  fences c call call' hcall hcall' hnone hsome id job hj hc :=
    free_iff.mp (h.fences c call call' hcall hcall' hnone hsome id job hj hc).1
  jobLock := hjob
  docLock := hdoc
  sent := hsent
  traced _ _ _ _ _ hv _ := by rwa [htraced] at hv
  traces _ _ _ _ _ ht _ := by rwa [h.traces] at ht
  store _ _ _ _ _ := by rw [hstore]
  quiet _ ht := .inl (by rwa [h.traces] at ht)
  overwrites _ _ := .inl (by rw [hstore])

theorem Linked.stable {db db' : Db} {t : VoiceMemoryTrace} {u : Upsert}
    (hcalls : ∀ c, Option.Rel SameCall (db.calls c) (db'.calls c)) (h : Linked hash db t u) :
    Linked hash db' t u where
  doc := h.doc
  turn := h.turn
  call := by
    obtain ⟨call, hcall, hid, kind, key, hdoc⟩ := h.call
    have hrel := hcalls t.callId
    rw [hcall] at hrel
    cases hd' : db'.calls t.callId with
    | none => rw [hd'] at hrel; cases hrel
    | some call' =>
      rw [hd'] at hrel
      cases hrel with
      | some hs => exact ⟨call', rfl, hs.id.trans hid, kind, key, by rw [hs.userId]; exact hdoc⟩

/-- The row a call had before. -/
theorem rel_back {found found' : Option MemoryCall} (h : Option.Rel SameCall found found')
    {call' : MemoryCall} (hcall' : found' = some call') : ∃ call, found = some call ∧ SameCall call call' := by
  subst hcall'
  cases h with
  | some hs => exact ⟨_, rfl, hs⟩

theorem retryLimit_same {db db' : Db} (hcalls : ∀ c, Option.Rel SameCall (db.calls c) (db'.calls c))
    (c : Ident) : db'.retryLimit c = db.retryLimit c := by
  have hrel := hcalls c
  unfold Db.retryLimit
  cases hd : db.calls c with
  | none =>
    rw [hd] at hrel
    cases hd' : db'.calls c with
    | none => rfl
    | some call' => rw [hd'] at hrel; cases hrel
  | some call =>
    rw [hd] at hrel
    cases hd' : db'.calls c with
    | none => rw [hd'] at hrel; cases hrel
    | some call' =>
      rw [hd'] at hrel
      cases hrel with
      | some hs => simp [hs.script]

/-- Transactions keep the invariant. -/
theorem Sound.tables {d d' : Data} (hd : Sound hash calm strict d) (h : DbStep d.free strict d.db d'.db)
    (hsent : ∀ u ∈ d.sent, u ∈ d'.sent) (htraced : d'.traced = d.traced)
    (hstore : d'.store = d.store) : Sound hash calm strict d' where
  bounded := h.bounded hd.bounded
  callRows c c' call call' hcall hcall' hid := by
    obtain ⟨call₀, h₀, hs⟩ := rel_back (h.calls c) hcall
    obtain ⟨call₁, h₁, hs'⟩ := rel_back (h.calls c') hcall'
    exact hd.callRows c c' call₀ call₁ h₀ h₁ (by rw [← hs.id, ← hs'.id, hid])
  budget id job' hjob' := by
    rw [retryLimit_same h.calls]
    cases hjob : d.db.jobs id with
    | none =>
      obtain ⟨hzero, hwaiting, -⟩ := h.created id job' hjob' hjob
      refine ⟨by omega, fun _ => by omega, fun hf => absurd hf hwaiting.1, fun hp => absurd hp hwaiting.2⟩
    | some job =>
      obtain ⟨job₁, hjob₁, hm⟩ := h.jobs id job hjob
      obtain rfl := Option.some.inj (hjob₁.symm.trans hjob')
      rw [hm.callId]
      exact hm.budget (hd.budget id job hjob)
  keys := by rw [h.traces]; exact hd.keys
  linked t ht := by
    rw [h.traces] at ht
    obtain ⟨u, hu, hl⟩ := hd.linked t ht
    exact ⟨u, by rwa [htraced], hl.stable h.calls⟩
  traced u hu := by
    rw [htraced] at hu
    obtain ⟨t, ht, hl⟩ := hd.traced u hu
    exact ⟨t, by rwa [h.traces], hl.stable h.calls⟩
  fenced hstrict c call' hcall' hfence id job' hjob' hc := by
    obtain ⟨call, hcall, hs⟩ := rel_back (h.calls c) hcall'
    cases hjob : d.db.jobs id with
    | none => exact (h.created id job' hjob' hjob).fenced call' (hc ▸ hcall') hfence
    | some job =>
      obtain ⟨job₁, hjob₁, hm⟩ := h.jobs id job hjob
      obtain rfl := Option.some.inj (hjob₁.symm.trans hjob')
      have hcall₀ : job.callId = c := hm.callId.symm.trans hc
      by_cases hbefore : call.deletionFenceAt.isSome = true
      · have hold := hd.fenced hstrict c call hcall hbefore id job hjob hcall₀
        rw [hm.kept hstrict hold]
        exact hold
      · have hnone : call.deletionFenceAt = none := by simpa using hbefore
        obtain ⟨-, job₂, hjob₂, hset⟩ :=
          h.fences c call call' hcall hcall' hnone hfence id job hjob hcall₀
        obtain rfl := Option.some.inj (hjob₂.symm.trans hjob')
        exact hset
  stored hcalm u hu := by
    rw [htraced] at hu
    rw [hstore]
    obtain ⟨s, hs, hdoc, hor⟩ := hd.stored hcalm u hu
    exact ⟨s, hs, hdoc, hor.imp_right fun hb => ⟨hb.1, hsent s hb.2⟩⟩

/-! ### One step of each task -/

variable (hash calm strict) in
/-- What a step establishes. -/
structure StepSpec (d d' : Data) (t : Task) (ts : List Task) : Prop where
  sound : Sound hash calm strict d'
  effect : Effect calm strict d d' t.token
  tasks : ∀ t' ∈ ts, Asserts hash calm d' t'
  tokens : ∀ t' ∈ ts, ∀ a, t'.token = some a → t.token = some a ∨ d.nextToken ≤ a
  pairwise : ts.Pairwise Apart

theorem StepSpec.establishes {d d' : Data} {t : Task} {ts : List Task}
    (h : StepSpec hash calm strict d d' t ts) :
    TaskSystem.Establishes (Sound hash calm strict) (Asserts hash calm) Apart d d' t ts where
  data := h.sound
  tasks := h.tasks
  pairwise := h.pairwise
  others u hu hapart := by
    refine ⟨hu.stable h.effect fun b hb ht => hapart b ht hb, fun t' ht' a ha ha' => ?_⟩
    rcases h.tokens t' ht' a ha' with hown | hnew
    · exact hapart a hown ha
    · exact absurd (hu.token_lt ha) (Nat.not_lt.mpr hnew)

theorem StepSpec.stop {d d' : Data} {t : Task} (hd : Sound hash calm strict d')
    (heff : Effect calm strict d d' t.token) : StepSpec hash calm strict d d' t [] :=
  ⟨hd, heff, by simp, by simp, .nil⟩

theorem StepSpec.next {d d' : Data} {t t' : Task} (hd : Sound hash calm strict d')
    (heff : Effect calm strict d d' t.token) (ht' : Asserts hash calm d' t')
    (htoken : t'.token = t.token) : StepSpec hash calm strict d d' t [t'] :=
  ⟨hd, heff, by simpa using ht', fun u hu a ha => .inl (by simp_all), by simp⟩

theorem Known.raise {d : Data} {c : Claim} (h : Known d c) : Asserts hash calm d (afterRaise c) :=
  ⟨h, by simp, by simp⟩

/-- A step that leaves the data as it is. -/
theorem StepSpec.idle {d : Data} {t t' : Task} (hd : Sound hash calm strict d)
    (ht' : Asserts hash calm d t') (htoken : t'.token = t.token) :
    StepSpec hash calm strict d d t [t'] :=
  .next hd (.refl d _) ht' htoken

theorem StepSpec.quit {d : Data} {t : Task} (hd : Sound hash calm strict d) :
    StepSpec hash calm strict d d t [] :=
  .stop hd (.refl d _)

theorem keeps_unlockDoc {d : Data} {doc : Text} {token : Token} (h : d.docLock doc = some token) :
    ∀ doc' b, d.docLock doc' = some b → some token ≠ some b → (d.unlockDoc doc).docLock doc' = some b := by
  intro doc' b hb hne
  by_cases heq : doc' = doc
  · subst heq
    exact absurd (h.symm.trans hb) hne
  · simpa [Data.unlockDoc, Function.update_of_ne heq] using hb

theorem keeps_unlockJob {d : Data} {id : ℕ} {token : Token} (h : d.jobLock id = some token) :
    ∀ id' b, d.jobLock id' = some b → some token ≠ some b → (d.unlockJob id).jobLock id' = some b := by
  intro id' b hb hne
  by_cases heq : id' = id
  · subst heq
    exact absurd (h.symm.trans hb) hne
  · simpa [Data.unlockJob, Function.update_of_ne heq] using hb

theorem sound_withDb {d : Data} {db : Db} (hd : Sound hash calm strict d)
    (h : DbStep d.free strict d.db db) : Sound hash calm strict (d.withDb db) :=
  hd.tables h (fun _ hu => hu) rfl rfl

theorem effect_withDb {d : Data} {db : Db} {own : Option Token} (h : DbStep d.free strict d.db db) :
    Effect calm strict d (d.withDb db) own :=
  .tables h le_rfl (fun _ _ h _ => h) (fun _ _ h _ => h) (fun _ hu => hu) rfl rfl

/-- A worker gives back the document. -/
theorem effect_unlockDoc {d : Data} {db : Db} {doc : Text} {token : Token}
    (h : DbStep d.free strict d.db db) (hlock : d.docLock doc = some token) :
    Effect calm strict d ((d.withDb db).unlockDoc doc) (some token) :=
  .tables h le_rfl (fun _ _ h _ => h) (keeps_unlockDoc hlock) (fun _ hu => hu) rfl rfl

theorem sound_unlockDoc {d : Data} {db : Db} {doc : Text} (hd : Sound hash calm strict d)
    (h : DbStep d.free strict d.db db) : Sound hash calm strict ((d.withDb db).unlockDoc doc) :=
  hd.tables h (fun _ hu => hu) rfl rfl

/-- A worker gives back both locks of a write. -/
theorem effect_unlock {d : Data} {c : Claim} {u : Upsert} (hdoc : d.docLock u.docId = some c.token)
    (hjob : d.jobLock c.jobId = some c.token) :
    Effect calm strict d (d.unlock c u) (some c.token) :=
  .tables (.refl d.free strict d.db) le_rfl (keeps_unlockJob hjob) (keeps_unlockDoc hdoc)
    (fun _ hu => hu) rfl rfl

theorem sound_unlock {d : Data} {c : Claim} {u : Upsert} (hd : Sound hash calm strict d) :
    Sound hash calm strict (d.unlock c u) :=
  hd.tables (.refl d.free strict d.db) (fun _ hu => hu) rfl rfl

/-- What the candidate of a claim is. -/
theorem candidate_spec {db : Db} {callId : Ident} {id : ℕ} (h : db.candidate callId = some id) :
    ∃ job, db.jobs id = some job ∧ job.callId = callId := by
  unfold Db.candidate at h
  refine List.foldlRecOn (motive := fun best => ∀ id, best = some id → ∃ job, db.jobs id = some job ∧
    job.callId = callId) _ _ (by simp) (fun best hbest id' _ id hid => ?_) id h
  cases hjob : db.jobs id' with
  | none => exact hbest id (by simpa [hjob] using hid)
  | some job =>
    simp only [hjob] at hid
    by_cases hcand : job.candidate callId = true
    · rw [if_pos hcand] at hid
      have hc : job.callId = callId := by
        simp only [VoiceMemoryJob.candidate, Bool.and_eq_true, decide_eq_true_eq] at hcand
        exact hcand.1
      split at hid
      · obtain rfl := Option.some.inj hid
        exact ⟨job, hjob, hc⟩
      · split at hid
        · obtain rfl := Option.some.inj hid
          exact ⟨job, hjob, hc⟩
        · exact hbest id hid
    · rw [if_neg hcand] at hid
      exact hbest id hid

theorem claim_spec {d : Data} {callId : Ident} {id : ℕ} {now : Instant}
    (hd : Sound hash calm strict d) (ht : Asserts hash calm d (.opened callId id))
    (hstrict : strict → ∀ job call, d.db.jobs id = some job → d.db.calls job.callId = some call →
      call.deletionFenceAt.isSome = true → settled job.status = false) :
    StepSpec hash calm strict d (claimStep d callId id now).1 (.opened callId id)
      (claimStep d callId id now).2 := by
  unfold claimStep
  by_cases hfree : d.isFree id = true
  · rw [if_neg (by simp [hfree])]
    cases hclaim : d.db.claim id d.nextToken now with
    | error e => exact .quit hd
    | ok result =>
      obtain ⟨db, claimed⟩ := result
      have hstep := claim_step d.free hclaim hfree hstrict
      cases claimed with
      | cancelled | failed | busy | skipped => exact .stop (sound_withDb hd hstep) (effect_withDb hstep)
      | processing snapshot =>
        obtain ⟨job, hjob, hc⟩ := ht
        cases hcall : d.db.calls callId with
        | none =>
          simp only [hjob]
          exact .quit hd
        | some call =>
          simp only [hjob]
          have heff : Effect calm strict d { d with db := db, nextToken := d.nextToken + 1 } none :=
            .tables hstep (Nat.le_succ _) (fun _ _ h _ => h) (fun _ _ h _ => h) (fun _ hu => hu) rfl rfl
          have hknown : Known { d with db := db, nextToken := d.nextToken + 1 }
              ⟨callId, id, d.nextToken, call.userId, job.turnIndex⟩ := by
            obtain ⟨job', hjob', hsame, -⟩ := heff.jobs id job hjob
            obtain ⟨call', hcall', hs⟩ := heff.call hcall
            exact ⟨Nat.lt_succ_self _, ⟨job', hjob', hsame.trans hc⟩, ⟨call', hcall', hs.userId⟩⟩
          refine ⟨hd.tables hstep (fun _ hu => hu) rfl rfl, heff, ?_, ?_, by simp⟩
          · simp only [List.mem_singleton, forall_eq]
            cases snapshot with
            | extracting | ready _ _ => exact hknown
            | unreadable => exact ⟨hknown, by simp, by simp⟩
          · simp only [List.mem_singleton, forall_eq]
            intro a ha
            refine .inr ?_
            cases snapshot <;> exact (Option.some.inj ha).le
  · rw [if_pos (by simpa using hfree)]
    exact .quit hd

/-- A write that has looked at the traces sends what is newer than all of them. -/
theorem newest_of_clear {d : Data} {c : Claim} {item : MemoryItem} {callRow : ℕ}
    (hd : Sound hash calm strict d) (hknown : Known d c)
    (h : Clear d.db c.jobId c.token c.callId c.userId c.turnIndex (c.docId hash item) callRow) :
    ∀ v ∈ d.traced, v.docId = c.docId hash item →
      v.before ⟨c.docId hash item, callRow, c.turnIndex, item.content⟩ := by
  intro v hv hdoc
  obtain ⟨t, ht, hlinked⟩ := hd.traced v hv
  obtain ⟨call, hcall, hid, -, hnewer⟩ := h.call
  obtain ⟨call', hcall', huser⟩ := hknown.call
  obtain rfl := Option.some.inj (hcall.symm.trans hcall')
  obtain ⟨other, hother, hrow, kind, key, htdoc⟩ := hlinked.call
  have hsame : other.userId = c.userId := by
    have hdocs : buildDocId hash kind key other.userId =
        buildDocId hash item.memoryType item.stableKey c.userId := by
      rw [← htdoc, hlinked.doc, hdoc]
      rfl
    exact buildDocId_user hdocs
  have hnot := hnewer t ht
  have hfresh := h.fresh t ht
  simp only [VoiceMemoryTrace.newer, hlinked.doc, hdoc, hother, hsame] at hnot
  have hplace : ¬(call.id < other.id) ∧ ¬(other.id = call.id ∧ c.turnIndex < t.turnIndex) := by
    simpa using hnot
  simp only [Upsert.before]
  rw [← hrow, ← hid, ← hlinked.turn]
  by_cases heq : other.id = call.id
  · right
    have hcid : t.callId = c.callId := hd.callRows _ _ _ _ hother hcall heq
    have hne : t.turnIndex ≠ c.turnIndex := fun hturn =>
      hfresh ⟨hcid, hturn, by rw [hlinked.doc, hdoc]⟩
    omega
  · left
    omega

theorem check_spec {d : Data} {c : Claim} {item : MemoryItem} {loop : ItemLoop} {now : Instant}
    (hd : Sound hash calm strict d) (ht : Asserts hash calm d (.docLocked c item loop))
    (hfree : d.isFree c.jobId = true) :
    StepSpec hash calm strict d (checkStep hash d c item loop now).1 (.docLocked c item loop)
      (checkStep hash d c item loop now).2 := by
  obtain ⟨hknown, hlock⟩ := ht
  have hsame : DbStep d.free strict d.db d.db := .refl _ _ _
  unfold checkStep
  dsimp only
  cases hcheck : d.db.checkWrite c.jobId c.token c.callId c.userId c.turnIndex (c.docId hash item) now with
  | error e =>
    have heff : Effect calm strict d (d.unlockDoc (c.docId hash item)) (some c.token) :=
      effect_unlockDoc hsame hlock
    exact .next (sound_unlockDoc hd hsame) heff (hknown.stable heff).raise rfl
  | ok result =>
    obtain ⟨db, check⟩ := result
    obtain ⟨hstep, hsend⟩ := checkWrite_step d.free strict hcheck hfree
    have heff : Effect calm strict d ((d.withDb db).unlockDoc (c.docId hash item)) (some c.token) :=
      effect_unlockDoc hstep hlock
    cases check with
    | cancelled => exact .stop (sound_unlockDoc hd hstep) heff
    | superseded => exact .next (sound_unlockDoc hd hstep) heff (hknown.stable heff) rfl
    | existing => exact .next (sound_unlockDoc hd hstep) heff (hknown.stable heff) rfl
    | send callRow =>
      obtain ⟨rfl, hclear⟩ := hsend callRow rfl
      dsimp only
      have hjobFree : d.jobLock c.jobId = none := free_iff.mp hfree
      have hnewest := newest_of_clear hd hknown hclear
      refine .next (hd.tables hsame (by simp +contextual) rfl rfl)
        (.tables hsame le_rfl ?_ (fun _ _ h _ => h) (by simp +contextual) rfl rfl) ⟨?_, ?_⟩ rfl
      · intro id b hb _
        have hne : id ≠ c.jobId := by
          rintro rfl
          simp [hjobFree] at hb
        simpa [Data.lockJob, Data.withDb, Function.update_of_ne hne] using hb
      · exact ⟨hknown.token, hknown.job, hknown.call⟩
      · refine ⟨rfl, rfl, ?_, hlock, by simp [Data.lockJob], by simp, hnewest, hclear.fresh,
          by simp⟩
        obtain ⟨call, hcall, hid, hfence, -⟩ := hclear.call
        exact ⟨call, hcall, hid, hfence⟩

/-- The upsert of the worker that waits for it takes effect. -/
theorem land_spec {d : Data} {c : Claim} {item : MemoryItem} {u : Upsert} {loop : ItemLoop}
    (hd : Sound hash calm strict d) (ht : Asserts hash calm d (.upserting c item u false loop)) :
    StepSpec hash calm strict d (d.land u) (.upserting c item u false loop)
      [.upserting c item u true loop] := by
  obtain ⟨hknown, hw⟩ := ht
  refine .next ?_ ?_ ⟨⟨hknown.token, hknown.job, hknown.call⟩, ?_⟩ rfl
  · refine ⟨hd.bounded, hd.callRows, hd.budget, hd.keys, hd.linked, hd.traced, hd.fenced, ?_⟩
    intro hcalm v hv
    by_cases hdoc : v.docId = u.docId
    · exact ⟨u, by simp [Data.land, hdoc], hdoc.symm, .inr ⟨hw.newest v hv hdoc, hw.sent⟩⟩
    · simpa [Data.land, Function.update_of_ne hdoc] using hd.stored hcalm v hv
  · refine ⟨le_rfl, fun _ => rel_refl_calls _, fun _ job hjob => ⟨job, hjob, rfl, fun _ _ => rfl⟩, ?_,
      fun _ _ h _ => h, fun _ _ h _ => h, fun _ h => h, fun _ _ _ _ _ h _ => h, fun _ _ _ _ _ h _ => h,
      ?_, fun _ h => .inl h, ?_⟩
    · intro _ call call' hcall hcall' hnone hsome
      obtain rfl := Option.some.inj (hcall.symm.trans hcall')
      simp [hnone] at hsome
    · intro _ doc b hb hne
      have hdoc : doc ≠ u.docId := by
        rintro rfl
        exact hne (by rw [← hb, hw.docLock]; rfl)
      simp [Data.land, Function.update_of_ne hdoc]
    · intro _ doc
      by_cases hdoc : doc = u.docId
      · subst hdoc
        exact .inr ⟨u, by simp [Data.land], fun v hv hdoc => hw.newest v hv hdoc⟩
      · exact .inl (by simp [Data.land, Function.update_of_ne hdoc])
  · exact ⟨hw.doc, hw.turn, hw.row, hw.docLock, hw.jobLock, hw.sent, hw.newest, hw.fresh,
      fun _ _ => by simp [Data.land]⟩

/-- An upsert nobody waits for takes effect; a calm run has none. -/
theorem stray_spec {d : Data} {u : Upsert} (hd : Sound hash calm strict d) (hcalm : ¬calm) :
    StepSpec hash calm strict d (d.land u) (.stray u) [] := by
  refine .stop ⟨hd.bounded, hd.callRows, hd.budget, hd.keys, hd.linked, hd.traced, hd.fenced,
    fun h => absurd h hcalm⟩ ?_
  refine ⟨le_rfl, fun _ => rel_refl_calls _, fun _ job hjob => ⟨job, hjob, rfl, fun _ _ => rfl⟩, ?_,
    fun _ _ h _ => h, fun _ _ h _ => h, fun _ h => h, fun _ _ _ _ _ h _ => h, fun _ _ _ _ _ h _ => h,
    fun h => absurd h hcalm, fun _ h => .inl h, fun h => absurd h hcalm⟩
  intro _ call call' hcall hcall' hnone hsome
  obtain rfl := Option.some.inj (hcall.symm.trans hcall')
  simp [hnone] at hsome

/-- The trace of a write is committed. -/
theorem trace_spec {d : Data} {c : Claim} {item : MemoryItem} {u : Upsert} {loop : ItemLoop}
    {now : Instant} (hd : Sound hash calm strict d)
    (ht : Asserts hash calm d (.upserting c item u true loop)) :
    StepSpec hash calm strict d (traceStep d c item u now) (.upserting c item u true loop)
      [.looping c { loop with written := loop.written + 1 }] := by
  obtain ⟨hknown, hw⟩ := ht
  obtain ⟨call, hcall, hid, hfence⟩ := hw.row
  obtain ⟨call', hcall', huser⟩ := hknown.call
  obtain rfl := Option.some.inj (hcall.symm.trans hcall')
  set trace : VoiceMemoryTrace :=
    ⟨c.callId, c.turnIndex, u.docId, item.memoryType, item.stableKey, now⟩ with htrace
  have hlinked : Linked hash d.db trace u :=
    ⟨rfl, hw.turn.symm, call, hcall, hid, item.memoryType, item.stableKey, by
      rw [huser]
      exact hw.doc⟩
  have hcalls : ∀ c, Option.Rel SameCall (d.db.calls c) (d.db.calls c) := fun _ => rel_refl_calls _
  refine .next ⟨hd.bounded, hd.callRows, hd.budget, ?_, ?_, ?_, hd.fenced, ?_⟩ ?_
    ⟨hknown.token, hknown.job, hknown.call⟩ rfl
  · refine List.pairwise_append.mpr ⟨hd.keys, by simp, ?_⟩
    intro t ht t' ht' hsame
    obtain rfl := List.mem_singleton.mp ht'
    exact hw.fresh t ht hsame
  · intro t ht
    rcases List.mem_append.mp ht with ht | ht
    · obtain ⟨v, hv, hl⟩ := hd.linked t ht
      exact ⟨v, List.mem_append_left _ hv, hl.stable hcalls⟩
    · obtain rfl := List.mem_singleton.mp ht
      exact ⟨u, by simp [traceStep], hlinked.stable hcalls⟩
  · intro v hv
    rcases List.mem_append.mp hv with hv | hv
    · obtain ⟨t, ht, hl⟩ := hd.traced v hv
      exact ⟨t, List.mem_append_left _ ht, hl.stable hcalls⟩
    · obtain rfl := List.mem_singleton.mp hv
      exact ⟨trace, by simp [traceStep, Db.addTrace, Data.withDb, Data.unlockDoc, Data.unlockJob, htrace],
        hlinked.stable hcalls⟩
  · intro hcalm v hv
    rcases List.mem_append.mp hv with hv | hv
    · exact hd.stored hcalm v hv
    · obtain rfl := List.mem_singleton.mp hv
      exact ⟨v, hw.landed hcalm rfl, rfl, .inl rfl⟩
  · refine ⟨le_rfl, hcalls, fun _ job hjob => ⟨job, hjob, rfl, fun _ _ => rfl⟩, ?_,
      keeps_unlockJob hw.jobLock, keeps_unlockDoc hw.docLock, fun _ h => h, ?_, ?_, fun _ _ _ _ _ => rfl, ?_,
      fun _ _ => .inl rfl⟩
    · intro _ call₁ call₂ hcall₁ hcall₂ hnone hsome
      obtain rfl := Option.some.inj (hcall₁.symm.trans hcall₂)
      simp [hnone] at hsome
    · intro doc b hb hne v hv hdoc
      rcases List.mem_append.mp hv with hv | hv
      · exact hv
      · obtain rfl := List.mem_singleton.mp hv
        exact absurd (hw.docLock.symm.trans (hdoc ▸ hb)) hne
    · intro doc b hb hne t ht hdoc
      rcases List.mem_append.mp ht with ht | ht
      · exact ht
      · obtain rfl := List.mem_singleton.mp ht
        have hdoc : u.docId = doc := hdoc
        exact absurd (hw.docLock.symm.trans (hdoc ▸ hb)) hne
    · intro t ht
      rcases List.mem_append.mp ht with ht | ht
      · exact .inl ht
      · obtain rfl := List.mem_singleton.mp ht
        exact .inr ⟨call, hcall, hfence⟩

theorem finish_spec {d : Data} {c : Claim} {status : MemoryStatus} {reason : Option FailReason}
    {now : Instant} (hd : Sound hash calm strict d) (ht : Asserts hash calm d (.finishing c status reason))
    (hfree : d.isFree c.jobId = true) :
    StepSpec hash calm strict d (finishStep d c status reason now).1 (.finishing c status reason)
      (finishStep d c status reason now).2 := by
  unfold finishStep
  cases hfinish : d.db.finish c.jobId c.token status reason now with
  | ok db =>
    have hstep := finish_step d.free strict hfinish hfree ht.2
    exact .stop (sound_withDb hd hstep) (effect_withDb hstep)
  | error e =>
    dsimp only
    split
    · exact .quit hd
    · exact .idle hd ht.1.raise rfl

variable (strict) in
/-- Every other transaction is one of those of the tables. -/
theorem runTransaction_step {d : Data} {now : Instant} {t : Transaction} {db : Db}
    (hbound : ∀ id job, d.db.jobs id = some job → id < d.db.nextJobId)
    (h : runTransaction d now t = some db) : DbStep d.free strict d.db db := by
  have hcallFree : ∀ callId, d.callFree callId = true →
      ∀ id job, d.db.jobs id = some job → job.callId = callId → d.free id := by
    intro callId hfree id job hjob hc
    have hall := List.all_eq_true.mp hfree id (List.mem_range.mpr (hbound id job hjob))
    simpa [hjob, hc] using hall
  cases t with
  | enqueue turnId =>
    obtain rfl := Option.some.inj h
    exact (enqueue_makes hbound).step
  | compensate callId turnIds =>
    obtain ⟨-, rfl⟩ := by simpa [runTransaction] using h
    exact (compensate_makes hbound).step
  | fence callId =>
    obtain ⟨hfree, rfl⟩ := by simpa [runTransaction] using h
    exact fence_step (hcallFree callId hfree)
  | sweep callId agedBefore =>
    obtain ⟨hfree, rfl⟩ := by simpa [runTransaction] using h
    exact sweep_step (hcallFree callId hfree)
  | purge id =>
    obtain rfl := Option.some.inj h
    split
    · rename_i hfree
      cases hpurge : d.db.purgeSnapshot id now with
      | ok db => exact purgeSnapshot_step hpurge hfree
      | error e => exact .refl _ _ _
    · exact .refl _ _ _
  | retry id =>
    obtain rfl := Option.some.inj h
    split
    · rename_i hfree
      cases hretry : d.db.retry id now with
      | ok db => exact retry_step hretry hfree
      | error e => exact .refl _ _ _
    · exact .refl _ _ _
  | writeTurn turnId turn =>
    simp only [runTransaction] at h
    split at h
    · simp at h
    · split at h
      · obtain rfl := Option.some.inj h
        have hmakes : Makes d.db
            { d.db with turns := Function.update d.db.turns turnId (some turn) } :=
          ⟨rfl, fun _ _ h => h, fun _ _ h hn => by simp [hn] at h, fun h => h, rfl, rfl⟩
        exact hmakes.step
      · simp at h
  | writeCall callId status expiry =>
    simp only [runTransaction] at h
    split at h
    · simp at h
    · rename_i call hcall
      obtain rfl := Option.some.inj h
      refine .each (f := fun _ job => job) (fun c => ?_) (fun _ => by simp) rfl rfl rfl
        (fun _ _ _ => .inl rfl) ?_
      · by_cases hc : c = callId
        · subst hc
          simp only [hcall, Function.update_self]
          exact .some ⟨rfl, rfl, rfl, id⟩
        · simp only [Function.update_of_ne hc]
          exact rel_refl_calls _
      · intro c call₁ call' hcall₁ hcall' hnone hsome
        by_cases hc : c = callId
        · subst hc
          simp only [Function.update_self, Option.some.injEq] at hcall'
          obtain rfl := Option.some.inj (hcall.symm.trans hcall₁)
          simp [← hcall', hnone] at hsome
        · simp only [Function.update_of_ne hc] at hcall'
          obtain rfl := Option.some.inj (hcall₁.symm.trans hcall')
          simp [hnone] at hsome

/-! ### Runs -/

variable (calm strict) in
/-- A step of a calm or of a strict run. -/
structure Allowed (d : Data) (t : Task) : Prop where
  calm : calm → ∀ u, t ≠ .stray u
  strict : strict → ∀ callId id, t = .opened callId id → ∀ job call, d.db.jobs id = some job →
    d.db.calls job.callId = some call → call.deletionFenceAt.isSome = true → settled job.status = false

/-- A worker that is inside a write gives its locks back. -/
theorem unlock_spec {d : Data} {c : Claim} {item : MemoryItem} {u : Upsert} {landed : Bool}
    {loop : ItemLoop} (hd : Sound hash calm strict d)
    (ht : Asserts hash calm d (.upserting c item u landed loop)) :
    StepSpec hash calm strict d (d.unlock c u) (.upserting c item u landed loop)
        (afterRaise c :: abandoned u landed) ∧
      StepSpec hash calm strict d (d.unlock c u) (.upserting c item u landed loop)
        (abandoned u landed) := by
  have heff : Effect calm strict d (d.unlock c u) (some c.token) :=
    effect_unlock ht.2.docLock ht.2.jobLock
  have hraise : Asserts hash calm (d.unlock c u) (afterRaise c) := (ht.1.stable heff).raise
  cases landed with
  | true => exact ⟨.next (sound_unlock hd) heff hraise rfl, .stop (sound_unlock hd) heff⟩
  | false =>
    refine ⟨⟨sound_unlock hd, heff, ?_, ?_, ?_⟩, sound_unlock hd, heff, ?_, ?_, by simp [abandoned]⟩
    · intro t' ht'
      rcases List.mem_cons.mp ht' with rfl | ht'
      · exact hraise
      · obtain rfl := List.mem_singleton.mp ht'
        trivial
    · intro t' ht' a ha
      rcases List.mem_cons.mp ht' with rfl | ht'
      · exact .inl ha
      · obtain rfl := List.mem_singleton.mp ht'
        simp [Task.token] at ha
    · exact List.pairwise_pair.mpr (apart_of_none rfl)
    · intro t' ht'
      obtain rfl := List.mem_singleton.mp ht'
      trivial
    · intro t' ht' a ha
      obtain rfl := List.mem_singleton.mp ht'
      simp [Task.token] at ha

theorem advance_spec {d d' : Data} {t : Task} {o : Outcome} {ts : List Task}
    (hd : Sound hash calm strict d) (ht : Asserts hash calm d t) (hok : Allowed calm strict d t)
    (h : advance hash d t o = some (d', ts)) : StepSpec hash calm strict d d' t ts := by
  cases t with
  | opening callId =>
    cases o <;> simp only [advance, reduceCtorEq] at h
    case commit now =>
      split at h
      · rename_i _ id _ hcand
        obtain ⟨rfl, rfl⟩ := by simpa using h
        exact .next hd (.refl d _) (candidate_spec hcand) rfl
      · obtain ⟨rfl, rfl⟩ := by simpa using h
        exact .quit hd
    all_goals
      obtain ⟨rfl, rfl⟩ := by simpa using h
      exact .quit hd
  | opened callId id =>
    cases o <;> simp only [advance, reduceCtorEq] at h
    case commit now =>
      have hspec : StepSpec hash calm strict d (claimStep d callId id now).1 (.opened callId id)
          (claimStep d callId id now).2 := claim_spec hd ht fun hs => hok.strict hs callId id rfl
      rwa [Option.some.inj h] at hspec
    all_goals
      obtain ⟨rfl, rfl⟩ := by simpa using h
      exact .quit hd
  | extracting c =>
    cases o <;> simp only [advance, reduceCtorEq] at h
    case extracted e =>
      obtain ⟨rfl, rfl⟩ := by simpa using h
      cases e with
      | ready items dropped => exact .idle hd ht rfl
      | filtered | unavailable | skipped | invalidOutput => exact .idle hd ⟨ht, by simp, by simp⟩ rfl
    case raised =>
      obtain ⟨rfl, rfl⟩ := by simpa using h
      exact .idle hd (Known.raise ht) rfl
    case crash =>
      obtain ⟨rfl, rfl⟩ := by simpa using h
      exact .quit hd
  | saving c items dropped =>
    cases o <;> simp only [advance, reduceCtorEq] at h
    case commit now =>
      split at h
      · rename_i hfree
        cases hsave : d.db.saveSnapshot c.jobId c.token items dropped now with
        | error e =>
          rw [hsave] at h
          obtain ⟨rfl, rfl⟩ := by simpa using h
          exact .idle hd (Known.raise ht) rfl
        | ok result =>
          rw [hsave] at h
          cases result with
          | none =>
            obtain ⟨rfl, rfl⟩ := by simpa using h
            exact .quit hd
          | some db =>
            obtain ⟨rfl, rfl⟩ := by simpa using h
            have hstep := saveSnapshot_step d.free strict hsave hfree
            have heff : Effect calm strict d (d.withDb db) (some c.token) := effect_withDb hstep
            exact .next (sound_withDb hd hstep) heff (Known.stable ht heff) rfl
      · simp at h
    case raised =>
      obtain ⟨rfl, rfl⟩ := by simpa using h
      exact .idle hd (Known.raise ht) rfl
    case crash =>
      obtain ⟨rfl, rfl⟩ := by simpa using h
      exact .quit hd
  | looping c loop =>
    obtain ⟨rest, dropped, written⟩ := loop
    cases o <;> simp only [advance, reduceCtorEq] at h
    case gate allowed =>
      cases rest with
      | nil =>
        obtain ⟨rfl, rfl⟩ := by simpa [advance] using h
        refine .idle hd ⟨ht, ?_⟩ rfl
        dsimp only
        split <;> simp
      | cons item rest =>
        dsimp only at h
        split at h <;>
        · obtain ⟨rfl, rfl⟩ := by simpa using h
          exact .idle hd ht rfl
    case raised =>
      obtain ⟨rfl, rfl⟩ := by simpa using h
      exact .idle hd (Known.raise ht) rfl
    case crash =>
      obtain ⟨rfl, rfl⟩ := by simpa using h
      exact .quit hd
  | writing c item loop =>
    cases o <;> simp only [advance, reduceCtorEq] at h
    case commit now =>
      cases hlock : d.docLock (c.docId hash item) with
      | some b =>
        rw [hlock] at h
        obtain ⟨rfl, rfl⟩ := by simpa using h
        exact .idle hd (Known.raise ht) rfl
      | none =>
        rw [hlock] at h
        obtain ⟨rfl, rfl⟩ := by simpa using h
        refine .next (hd.tables (.refl d.free strict d.db) (fun _ hu => hu) rfl rfl)
          (.tables (.refl d.free strict d.db) le_rfl (fun _ _ h _ => h) ?_ (fun _ hu => hu) rfl rfl)
          ⟨⟨ht.token, ht.job, ht.call⟩, by simp [Data.lockDoc]⟩ rfl
        intro doc b hb _
        have hne : doc ≠ c.docId hash item := by
          rintro rfl
          simp [hlock] at hb
        simpa [Data.lockDoc, Function.update_of_ne hne] using hb
    case raised =>
      obtain ⟨rfl, rfl⟩ := by simpa using h
      exact .idle hd (Known.raise ht) rfl
    case crash =>
      obtain ⟨rfl, rfl⟩ := by simpa using h
      exact .quit hd
  | docLocked c item loop =>
    have hsame : DbStep d.free strict d.db d.db := .refl _ _ _
    have heff : Effect calm strict d (d.unlockDoc (c.docId hash item)) (some c.token) :=
      effect_unlockDoc hsame ht.2
    cases o <;> simp only [advance, reduceCtorEq] at h
    case commit now =>
      split at h
      · rename_i hfree
        have hspec : StepSpec hash calm strict d (checkStep hash d c item loop now).1
            (.docLocked c item loop) (checkStep hash d c item loop now).2 := check_spec hd ht hfree
        rwa [Option.some.inj h] at hspec
      · simp at h
    case raised =>
      obtain ⟨rfl, rfl⟩ := by simpa using h
      exact .next (sound_unlockDoc hd hsame) heff (ht.1.stable heff).raise rfl
    case crash =>
      obtain ⟨rfl, rfl⟩ := by simpa using h
      exact .stop (sound_unlockDoc hd hsame) heff
  | upserting c item u landed loop =>
    cases o
    case landed =>
      cases landed with
      | true => simp [advance] at h
      | false =>
        obtain ⟨rfl, rfl⟩ := by simpa [advance] using h
        exact land_spec hd ht
    case acknowledged docId now =>
      cases landed with
      | false => simp [advance] at h
      | true =>
        simp only [advance] at h
        split at h
        · obtain ⟨rfl, rfl⟩ := by simpa using h
          exact trace_spec hd ht
        · obtain ⟨rfl, rfl⟩ := by simpa using h
          exact (unlock_spec hd ht).1
    case raised =>
      obtain ⟨rfl, rfl⟩ := by simpa [advance] using h
      exact (unlock_spec hd ht).1
    case crash =>
      obtain ⟨rfl, rfl⟩ := by simpa [advance] using h
      exact (unlock_spec hd ht).2
    all_goals simp [advance] at h
  | finishing c status reason =>
    cases o <;> simp only [advance, reduceCtorEq] at h
    case commit now =>
      split at h
      · rename_i hfree
        have hspec : StepSpec hash calm strict d (finishStep d c status reason now).1
            (.finishing c status reason) (finishStep d c status reason now).2 := finish_spec hd ht hfree
        rwa [Option.some.inj h] at hspec
      · simp at h
    case raised =>
      obtain ⟨rfl, rfl⟩ := by simpa using h
      split
      · exact .quit hd
      · exact .idle hd ht.1.raise rfl
    case crash =>
      obtain ⟨rfl, rfl⟩ := by simpa using h
      exact .quit hd
  | stray u =>
    cases o <;> simp only [advance, reduceCtorEq] at h
    case landed =>
      obtain ⟨rfl, rfl⟩ := by simpa using h
      exact stray_spec hd fun hcalm => hok.calm hcalm u rfl
  | transaction t =>
    cases o <;> simp only [advance, reduceCtorEq] at h
    case commit now =>
      obtain ⟨db, hdb, heq⟩ := Option.map_eq_some_iff.mp h
      obtain ⟨rfl, rfl⟩ := by simpa using heq
      have hstep := runTransaction_step strict hd.bounded hdb
      exact .stop (sound_withDb hd hstep) (effect_withDb hstep)
    all_goals
      obtain ⟨rfl, rfl⟩ := by simpa using h
      exact .quit hd

theorem sound_initial {d : Data} (h : d.Initial) : Sound hash calm strict d where
  bounded id job hjob := by simp [h.jobs] at hjob
  callRows := h.callRows
  budget id job hjob := by simp [h.jobs] at hjob
  keys := by simp [h.traces]
  linked t ht := by simp [h.traces] at ht
  traced u hu := by simp [h.traced] at hu
  fenced _ _ _ _ _ id job hjob := by simp [h.jobs] at hjob
  stored _ u hu := by simp [h.traced] at hu

/-- In every state of a run whose steps are allowed. -/
theorem reachable_sound {ok : Data → Task → Outcome → Prop}
    (hok : ∀ d t o, ok d t o → Allowed calm strict d t) {w : World Data Task}
    (hw : (system hash).machine.ReachableUnder (TaskSystem.guard ok) w) :
    TaskSystem.Holds (Sound hash calm strict) (Asserts hash calm) Apart w := by
  refine TaskSystem.reachableUnder_holds (fun _ _ => Apart.symm) (fun _ => sound_initial) ?_ ?_ hw
  · intro d o ts _ h
    have hts : ∃ t, ts = [t] ∧ Asserts hash calm d t ∧ t.token = none := by
      simp only [system] at h
      split at h
      · exact ⟨_, (Option.some.inj h).symm, trivial, rfl⟩
      · exact ⟨_, (Option.some.inj h).symm, trivial, rfl⟩
      · simp at h
    obtain ⟨t, rfl, ht, hnone⟩ := hts
    exact ⟨by simpa using ht, by simp, by simpa using fun u => apart_of_none hnone⟩
  · intro d t o d' ts hd ht hallowed h
    exact (advance_spec hd ht (hok d t o hallowed) h).establishes

end

end CompanionBackend.MemoryWorkers
