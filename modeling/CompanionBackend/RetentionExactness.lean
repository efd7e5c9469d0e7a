import Mathlib.Data.List.Forall2
import CompanionBackend.VoiceRetention

/-!
# Retention is exact

The deadlines are stated apart from the code. A completed sweep clears exactly the
texts that are due; a deletion clears all of them; both leave the rows of other calls
alone and change nothing but the audit when repeated; a failed one leaves the database.
-/
namespace CompanionBackend.VoiceRetention

open Runs ProviderEvents Dictionaries
open TurnRecords (MemoryStatus)

section Deadlines

/-- A deadline that was set has passed. -/
def Passed (expiry : Option Instant) (now : Instant) : Prop := ∃ t, expiry = some t ∧ t ≤ now

theorem due_iff {expiry : Option Instant} {now : Instant} : due expiry now = true ↔ Passed expiry now := by
  cases expiry <;> simp [due, Passed]

/-- The call was deleted or its deletion has begun. -/
def Fenced (call : VoiceCall) : Prop := call.deletionFenceAt ≠ none ∨ call.deletedAt ≠ none

/-- The deadline of what was said. -/
def TranscriptDue (call : VoiceCall) (t : VoiceCallTurn) (now : Instant) : Prop :=
  Fenced call ∨ Passed call.transcriptExpiresAt now ∨ Passed t.effectiveTextExpiresAt now

/-- The deadline of what was generated. -/
def GeneratedDue (call : VoiceCall) (t : VoiceCallTurn) (now : Instant) : Prop :=
  Fenced call ∨ Passed call.generatedTextExpiresAt now ∨ Passed t.generatedTextExpiresAt now

def ReasoningDue (call : VoiceCall) (now : Instant) : Prop :=
  Fenced call ∨ Passed call.reasoningExpiresAt now

/-- The period of the job log is over. -/
def LogDue (call : VoiceCall) (j : JobRow) (now : Instant) : Prop :=
  j.createdAt + jobDays call * microsPerDay ≤ now

/-- A snapshot goes with the job log or with the text of its turn. -/
def SnapshotDue (s : Tables) (call : VoiceCall) (j : VoiceMemoryJob) (now : Instant) : Prop :=
  Fenced call ∨ Passed call.transcriptExpiresAt now ∨ LogDue call j.toJobRow now ∨
    ∃ t ∈ s.turns, t.id = j.turnId ∧ Passed t.effectiveTextExpiresAt now

def FollowupDue (call : VoiceCall) (j : VoiceFollowupJob) (now : Instant) : Prop :=
  Fenced call ∨ Passed call.transcriptExpiresAt now ∨ LogDue call j.toJobRow now

def CrisisDue (call : VoiceCall) (r : VoiceCrisisRecord) (now : Instant) : Prop :=
  Fenced call ∨ r.expiresAt ≤ now

/-- A text is cleared when it is due and otherwise kept. -/
structure Exact {α : Type} (isDue : Prop) (empty before after : α) : Prop where
  cleared : isDue → after = empty
  kept : ¬ isDue → after = before

end Deadlines

section Turns

/-- The mark left by the two clearings of a turn. -/
def reasonAfter (p : Sweep) (effective generated : Bool) (reason : Option ClearReason) :
    Option ClearReason :=
  let first := if effective then some p.clearReason else reason
  if generated then if first = some .adminDeleted then first else some p.clearReason else first

theorem reasonAfter_idem (p : Sweep) (e g : Bool) (reason : Option ClearReason) :
    reasonAfter p e g (reasonAfter p e g reason) = reasonAfter p e g reason := by
  unfold reasonAfter
  cases e <;> cases g
  · rfl
  · simp only [Bool.false_eq_true, if_false, if_true]
    split_ifs <;> simp_all
  · rfl
  · simp only [if_true]

/-- A swept turn, field by field. -/
theorem purgeTurn_eq (p : Sweep) (t : VoiceCallTurn) :
    (purgeTurn p t).1 = { t with
      userTextFinal := if p.clearsEffective t then none else t.userTextFinal
      assistantTextEffective := if p.clearsEffective t then none else t.assistantTextEffective
      assistantTextGenerated := if p.clearsGenerated t then none else t.assistantTextGenerated
      effectiveTextClearedAt :=
        if p.clearsEffective t then t.effectiveTextClearedAt.or (some p.now)
        else t.effectiveTextClearedAt
      generatedTextClearedAt :=
        if p.clearsGenerated t then t.generatedTextClearedAt.or (some p.now)
        else t.generatedTextClearedAt
      contentClearReason :=
        reasonAfter p (p.clearsEffective t) (p.clearsGenerated t) t.contentClearReason } := by
  have hg : p.clearsGenerated (clearEffective p t).1 = p.clearsGenerated t := by
    unfold clearEffective
    split_ifs <;> rfl
  unfold purgeTurn clearGenerated
  simp only [hg]
  unfold clearEffective reasonAfter
  cases p.clearsEffective t <;> cases p.clearsGenerated t <;> simp

theorem purgeTurn_idem (p : Sweep) (t : VoiceCallTurn) :
    (purgeTurn p (purgeTurn p t).1).1 = (purgeTurn p t).1 := by
  have he : p.clearsEffective (purgeTurn p t).1 = p.clearsEffective t := by rw [purgeTurn_eq]; rfl
  have hg : p.clearsGenerated (purgeTurn p t).1 = p.clearsGenerated t := by rw [purgeTurn_eq]; rfl
  rw [purgeTurn_eq p (purgeTurn p t).1, he, hg, purgeTurn_eq p t]
  cases p.clearsEffective t <;> cases p.clearsGenerated t <;>
    simp [reasonAfter_idem]

theorem purgeTurn_cancelMemory (p : Sweep) (ids : List ℤ) (t : VoiceCallTurn) :
    (purgeTurn p (cancelMemory ids t)).1 = cancelMemory ids (purgeTurn p t).1 := by
  by_cases h : t.id ∈ ids ∧ t.memoryStatus ≠ .success
  · have hbefore : cancelMemory ids t = { t with memoryStatus := .cancelled } := if_pos h
    have hafter : cancelMemory ids (purgeTurn p t).1 =
        { (purgeTurn p t).1 with memoryStatus := .cancelled } :=
      if_pos (by rw [purgeTurn_eq]; exact h)
    rw [hbefore, hafter, purgeTurn_eq, purgeTurn_eq]
    rfl
  · have hbefore : cancelMemory ids t = t := if_neg h
    have hafter : cancelMemory ids (purgeTurn p t).1 = (purgeTurn p t).1 :=
      if_neg (by rw [purgeTurn_eq]; exact h)
    rw [hbefore, hafter]

@[simp] theorem cancelMemory_nil (t : VoiceCallTurn) : cancelMemory [] t = t := by
  simp [cancelMemory]

end Turns

section Jobs

variable {p : Sweep}

@[simp] theorem active_cancelled : active .cancelled = false := rfl

theorem purgeMemoryJob_idem (p : Sweep) {turns turns' : List VoiceCallTurn} (j : VoiceMemoryJob)
    (h : turnExpiry turns' j.turnId = turnExpiry turns j.turnId) :
    (purgeMemoryJob p turns' (purgeMemoryJob p turns j).1).1 = (purgeMemoryJob p turns j).1 := by
  have hexpired (k : VoiceMemoryJob) (hk : k.turnId = j.turnId) :
      p.memoryExpired turns' k = p.memoryExpired turns j := by
    simp only [Sweep.memoryExpired, hk, h]
  unfold purgeMemoryJob
  dsimp only
  by_cases hclear : (p.aged j.toJobRow || p.memoryExpired turns j) = true
  · rw [if_pos hclear]
    cases hactive : active j.status
    · simp only [Bool.false_eq_true, if_false, hactive]
      split_ifs <;> rfl
    · simp only [if_true, JobRow.cancel, active_cancelled, Bool.false_eq_true, if_false]
      split_ifs
      · rfl
      · rfl
  · rw [if_neg hclear, hexpired j rfl, if_neg hclear]

/-- No memory job that was due for a sweep is unfinished after it. -/
theorem purgeMemoryJob_inactive (p : Sweep) {turns turns' : List VoiceCallTurn} (j : VoiceMemoryJob)
    (h : turnExpiry turns' j.turnId = turnExpiry turns j.turnId) :
    ((p.aged (purgeMemoryJob p turns j).1.toJobRow ||
        p.memoryExpired turns' (purgeMemoryJob p turns j).1) &&
      active (purgeMemoryJob p turns j).1.status) = false := by
  unfold purgeMemoryJob
  dsimp only
  by_cases hclear : (p.aged j.toJobRow || p.memoryExpired turns j) = true
  · rw [if_pos hclear]
    cases hactive : active j.status
    · simp [hactive]
    · simp [JobRow.cancel]
  · have hexpired : p.memoryExpired turns' j = p.memoryExpired turns j := by
      simp only [Sweep.memoryExpired, h]
    rw [if_neg hclear, hexpired]
    simp [show (p.aged j.toJobRow || p.memoryExpired turns j) = false by simpa using hclear]

theorem purgePostprocessJob_idem (p : Sweep) (j : VoicePostprocessJob) :
    purgePostprocessJob p (purgePostprocessJob p j) = purgePostprocessJob p j := by
  unfold purgePostprocessJob
  dsimp only
  by_cases hclear : ((p.aged j || (p.fenced || p.callExpired)) && active j.status) = true
  · rw [if_pos hclear]
    simp [JobRow.cancel]
  · rw [if_neg hclear, if_neg hclear]

theorem purgeFollowupJob_idem (p : Sweep) (j : VoiceFollowupJob) :
    (purgeFollowupJob p (purgeFollowupJob p j).1).1 = (purgeFollowupJob p j).1 := by
  unfold purgeFollowupJob
  dsimp only
  by_cases hclear : (p.aged j.toJobRow || (p.fenced || p.callExpired)) = true
  · rw [if_pos hclear]
    cases hactive : active j.status
    · simp only [Bool.false_eq_true, if_false, hactive]
      split_ifs
      rfl
    · simp only [if_true, JobRow.cancel, active_cancelled, Bool.false_eq_true, if_false]
      split_ifs <;> rfl
  · rw [if_neg hclear, if_neg hclear]

theorem purgeCrisis_idem (p : Sweep) (r : VoiceCrisisRecord) :
    (purgeCrisis p (purgeCrisis p r).1).1 = (purgeCrisis p r).1 := by
  unfold purgeCrisis
  by_cases hclear : (p.fenced || decide (r.expiresAt ≤ p.now)) = true
  · rw [if_pos hclear]
    dsimp only
    rw [if_pos hclear]
    cases r.clearedAt <;> rfl
  · rw [if_neg hclear, if_neg hclear]

end Jobs

section Tables

/-- A swept table of rows, swept again. -/
theorem map_ofCall_idem {α : Type} {callId : Ident} {owner : α → Ident} {f f' : α → α}
    {rows : List α} (howner : ∀ row, owner (f row) = owner row)
    (hf : ∀ row ∈ rows, owner row = callId → f' (f row) = f row) :
    (rows.map (ofCall callId owner f)).map (ofCall callId owner f') =
      rows.map (ofCall callId owner f) := by
  rw [List.map_map]
  refine List.map_congr_left fun row hrow => ?_
  by_cases h : owner row = callId
  · simp only [Function.comp_apply, ofCall, h, howner, if_true]
    exact hf row hrow h
  · simp only [Function.comp_apply, ofCall, h, if_false]

/-- The swept rows of the call. -/
theorem filter_ofCall {α : Type} {callId : Ident} (owner : α → Ident) {f : α → α} {rows : List α}
    (howner : ∀ row, owner (f row) = owner row) :
    ((rows.map (ofCall callId owner f)).filter fun row => decide (owner row = callId)) =
      (rows.filter fun row => decide (owner row = callId)).map f := by
  induction rows with
  | nil => rfl
  | cons row rest ih =>
    by_cases h : owner row = callId
    · simp only [List.map_cons, ofCall, h, if_true]
      rw [List.filter_cons_of_pos (by simp [howner, h]), List.filter_cons_of_pos (by simp [h]), ih]
      rfl
    · simp only [List.map_cons, ofCall, h, if_false]
      rw [List.filter_cons_of_neg (by simp [h]), List.filter_cons_of_neg (by simp [h]), ih]

theorem turnExpiry_map {f : VoiceCallTurn → VoiceCallTurn} (hid : ∀ t, (f t).id = t.id)
    (hexpiry : ∀ t, (f t).effectiveTextExpiresAt = t.effectiveTextExpiresAt)
    (turns : List VoiceCallTurn) (turnId : ℤ) :
    turnExpiry (turns.map f) turnId = turnExpiry turns turnId := by
  unfold turnExpiry
  rw [List.find?_map]
  have hsame : ((fun t : VoiceCallTurn => decide (t.id = turnId)) ∘ f) =
      fun t => decide (t.id = turnId) := by
    funext t
    simp [hid]
  rw [hsame]
  cases turns.find? fun t => decide (t.id = turnId) <;> simp [hexpiry]

theorem cancelMemory_frame (ids : List ℤ) (t : VoiceCallTurn) :
    (cancelMemory ids t).id = t.id ∧ (cancelMemory ids t).callId = t.callId ∧
      (cancelMemory ids t).effectiveTextExpiresAt = t.effectiveTextExpiresAt := by
  unfold cancelMemory
  split_ifs <;> exact ⟨rfl, rfl, rfl⟩

theorem sweptTurn_frame (p : Sweep) (ids : List ℤ) (t : VoiceCallTurn) :
    (sweptTurn p ids t).id = t.id ∧ (sweptTurn p ids t).callId = t.callId ∧
      (sweptTurn p ids t).effectiveTextExpiresAt = t.effectiveTextExpiresAt := by
  obtain ⟨hid, hcall, hexpiry⟩ := cancelMemory_frame ids (purgeTurn p t).1
  refine ⟨hid.trans ?_, hcall.trans ?_, hexpiry.trans ?_⟩
  all_goals rw [purgeTurn_eq]

theorem sweptTurn_idem (p : Sweep) (ids : List ℤ) (t : VoiceCallTurn) :
    sweptTurn p [] (sweptTurn p ids t) = sweptTurn p ids t := by
  simp only [sweptTurn, cancelMemory_nil, purgeTurn_cancelMemory, purgeTurn_idem]

@[simp] theorem purgeMemoryJob_callId (p : Sweep) (turns : List VoiceCallTurn) (j : VoiceMemoryJob) :
    (purgeMemoryJob p turns j).1.callId = j.callId := by
  unfold purgeMemoryJob
  dsimp only
  split_ifs <;> rfl

@[simp] theorem purgePostprocessJob_callId (p : Sweep) (j : VoicePostprocessJob) :
    (purgePostprocessJob p j).callId = j.callId := by
  unfold purgePostprocessJob
  dsimp only
  split_ifs <;> rfl

@[simp] theorem purgeFollowupJob_callId (p : Sweep) (j : VoiceFollowupJob) :
    (purgeFollowupJob p j).1.callId = j.callId := by
  unfold purgeFollowupJob
  dsimp only
  split_ifs <;> rfl

@[simp] theorem purgeCrisis_callId (p : Sweep) (r : VoiceCrisisRecord) :
    (purgeCrisis p r).1.callId = r.callId := by
  unfold purgeCrisis
  split_ifs <;> rfl

/-- A sweep at the same instant finds nothing left to do. -/
theorem sweepTables_idem (p : Sweep) (s : Tables) (callId : Ident) :
    sweepTables p (sweepTables p s callId) callId = sweepTables p s callId := by
  set turns := s.turns.filter fun t => decide (t.callId = callId) with hturns
  set jobs := s.memoryJobs.filter fun j => decide (j.callId = callId) with hjobs
  set ids := cancelledTurns p turns jobs with hids
  have hswept : ((sweepTables p s callId).turns.filter fun t => decide (t.callId = callId)) =
      turns.map (sweptTurn p ids) :=
    filter_ofCall _ (f := sweptTurn p ids) fun t => (sweptTurn_frame p ids t).2.1
  have hexpiry (turnId : ℤ) : turnExpiry (turns.map (sweptTurn p ids)) turnId =
      turnExpiry turns turnId :=
    turnExpiry_map (fun t => (sweptTurn_frame p ids t).1)
      (fun t => (sweptTurn_frame p ids t).2.2) turns turnId
  have hsweptJobs :
      ((sweepTables p s callId).memoryJobs.filter fun j => decide (j.callId = callId)) =
        jobs.map fun j => (purgeMemoryJob p turns j).1 :=
    filter_ofCall (fun j : VoiceMemoryJob => j.callId) fun j =>
      purgeMemoryJob_callId p turns j
  have hnone : cancelledTurns p (turns.map (sweptTurn p ids))
      (jobs.map fun j => (purgeMemoryJob p turns j).1) = [] := by
    rw [cancelledTurns, List.map_eq_nil_iff, List.filter_eq_nil_iff]
    intro k hk
    obtain ⟨j, -, rfl⟩ := List.mem_map.mp hk
    simp [purgeMemoryJob_inactive p j (hexpiry j.turnId)]
  refine Tables.ext rfl ?_ ?_ ?_ ?_ ?_ rfl rfl rfl
  · change (sweepTables p s callId).turns.map (ofCall callId VoiceCallTurn.callId
      (sweptTurn p (cancelledTurns p _ _))) = _
    rw [hswept, hsweptJobs, hnone]
    exact map_ofCall_idem (fun t => (sweptTurn_frame p ids t).2.1)
      fun t _ _ => sweptTurn_idem p ids t
  · refine map_ofCall_idem (fun j => purgeMemoryJob_callId p turns j) fun j _ _ => ?_
    rw [hswept]
    exact purgeMemoryJob_idem p j (hexpiry j.turnId)
  · exact map_ofCall_idem (purgePostprocessJob_callId p) fun j _ _ => purgePostprocessJob_idem p j
  · exact map_ofCall_idem (fun j => purgeFollowupJob_callId p j)
      fun j _ _ => purgeFollowupJob_idem p j
  · exact map_ofCall_idem (fun r => purgeCrisis_callId p r) fun r _ _ => purgeCrisis_idem p r

end Tables

section Exactness

variable {call : VoiceCall} {now : Instant}

theorem fenced_iff : (sweepOf call now).fenced = true ↔ Fenced call := by
  simp [sweepOf, Fenced]

theorem clearsEffective_iff {t : VoiceCallTurn} :
    (sweepOf call now).clearsEffective t = true ↔ TranscriptDue call t now := by
  simp only [Sweep.clearsEffective, Bool.or_eq_true, fenced_iff, TranscriptDue, ← due_iff, or_assoc]
  rfl

theorem clearsGenerated_iff {t : VoiceCallTurn} :
    (sweepOf call now).clearsGenerated t = true ↔ GeneratedDue call t now := by
  simp only [Sweep.clearsGenerated, Bool.or_eq_true, fenced_iff, GeneratedDue, ← due_iff, or_assoc]
  rfl

theorem aged_iff {j : JobRow} : (sweepOf call now).aged j = true ↔ LogDue call j now := by
  simp [Sweep.aged, sweepOf, LogDue]

theorem exact_ite {α : Type} {c : Bool} {isDue : Prop} {empty x : α} (h : c = true ↔ isDue) :
    Exact isDue empty x (if c then empty else x) := by
  constructor
  · intro hdue
    rw [if_pos (h.mpr hdue)]
  · intro hdue
    rw [if_neg (mt h.mp hdue)]

/-- The three texts of a turn. -/
structure TurnExact (call : VoiceCall) (now : Instant) (t t' : VoiceCallTurn) : Prop where
  user : Exact (TranscriptDue call t now) none t.userTextFinal t'.userTextFinal
  effective : Exact (TranscriptDue call t now) none t.assistantTextEffective
    t'.assistantTextEffective
  generated : Exact (GeneratedDue call t now) none t.assistantTextGenerated
    t'.assistantTextGenerated

theorem cancelMemory_texts (ids : List ℤ) (t : VoiceCallTurn) :
    (cancelMemory ids t).userTextFinal = t.userTextFinal ∧
      (cancelMemory ids t).assistantTextEffective = t.assistantTextEffective ∧
      (cancelMemory ids t).assistantTextGenerated = t.assistantTextGenerated := by
  unfold cancelMemory
  split_ifs <;> exact ⟨rfl, rfl, rfl⟩

theorem sweptTurn_exact (ids : List ℤ) (t : VoiceCallTurn) :
    TurnExact call now t (sweptTurn (sweepOf call now) ids t) := by
  obtain ⟨huser, heffective, hgenerated⟩ :=
    cancelMemory_texts ids (purgeTurn (sweepOf call now) t).1
  rw [purgeTurn_eq] at huser heffective hgenerated
  simp only [sweptTurn, purgeTurn_eq]
  refine ⟨huser ▸ exact_ite clearsEffective_iff, heffective ▸ exact_ite clearsEffective_iff,
    hgenerated ▸ exact_ite clearsGenerated_iff⟩

/-- The turn a job is for is found among the turns of the call. -/
theorem turnExpiry_iff (db : Database) {callId : Ident} {j : VoiceMemoryJob}
    (hj : j ∈ db.memoryJobs) (hcall : j.callId = callId) :
    Passed (turnExpiry (db.turns.filter fun t => decide (t.callId = callId)) j.turnId) now ↔
      ∃ t ∈ db.turns, t.id = j.turnId ∧ Passed t.effectiveTextExpiresAt now := by
  unfold turnExpiry
  constructor
  · rintro ⟨instant, hexpiry, hle⟩
    obtain ⟨t, hfind, ht⟩ := Option.bind_eq_some_iff.mp hexpiry
    have hmem := (List.mem_filter.mp (List.mem_of_find?_eq_some hfind)).1
    exact ⟨t, hmem, by simpa using List.find?_some hfind, instant, ht, hle⟩
  · rintro ⟨t, ht, hid, hpassed⟩
    have hown : t ∈ db.turns.filter fun t => decide (t.callId = callId) :=
      List.mem_filter.mpr ⟨ht, by simpa using (db.linked j hj t ht hid).trans hcall⟩
    obtain ⟨t', hfind⟩ := Option.isSome_iff_exists.mp
      (List.find?_isSome (p := fun t => decide (t.id = j.turnId)).mpr
        ⟨t, hown, decide_eq_true hid⟩)
    have ht' : t' ∈ db.turns := (List.mem_filter.mp (List.mem_of_find?_eq_some hfind)).1
    have hid' : t'.id = j.turnId := by simpa using List.find?_some hfind
    -- turns with one id are one turn
    obtain rfl : t' = t := List.inj_on_of_nodup_map db.turnKeys ht' ht (hid'.trans hid.symm)
    rw [hfind]
    exact hpassed

theorem purgeMemoryJob_exact (db : Database) {callId : Ident} {j : VoiceMemoryJob}
    (hj : j ∈ db.memoryJobs) (hcall : j.callId = callId) :
    Exact (SnapshotDue db.toTables call j now) none j.extractionSnapshot
      (purgeMemoryJob (sweepOf call now) (db.turns.filter fun t => decide (t.callId = callId))
        j).1.extractionSnapshot := by
  have hiff : ((sweepOf call now).aged j.toJobRow || (sweepOf call now).memoryExpired
      (db.turns.filter fun t => decide (t.callId = callId)) j) = true ↔
      SnapshotDue db.toTables call j now := by
    simp only [Sweep.memoryExpired, Bool.or_eq_true, aged_iff, fenced_iff, SnapshotDue]
    rw [show (sweepOf call now).now = now from rfl, due_iff, turnExpiry_iff db hj hcall,
      show (sweepOf call now).callExpired = due call.transcriptExpiresAt now from rfl, due_iff]
    tauto
  have heq : (purgeMemoryJob (sweepOf call now)
      (db.turns.filter fun t => decide (t.callId = callId)) j).1.extractionSnapshot =
      if ((sweepOf call now).aged j.toJobRow || (sweepOf call now).memoryExpired
        (db.turns.filter fun t => decide (t.callId = callId)) j) then none
      else j.extractionSnapshot := by
    unfold purgeMemoryJob
    dsimp only
    split_ifs <;> rfl
  rw [heq]
  exact exact_ite hiff

theorem purgeFollowupJob_exact (j : VoiceFollowupJob) :
    Exact (FollowupDue call j now) [] j.content
      (purgeFollowupJob (sweepOf call now) j).1.content := by
  have hiff : ((sweepOf call now).aged j.toJobRow || ((sweepOf call now).fenced ||
      (sweepOf call now).callExpired)) = true ↔ FollowupDue call j now := by
    simp only [Bool.or_eq_true, aged_iff, fenced_iff, FollowupDue]
    rw [show (sweepOf call now).callExpired = due call.transcriptExpiresAt now from rfl, due_iff]
    tauto
  have heq : (purgeFollowupJob (sweepOf call now) j).1.content =
      if ((sweepOf call now).aged j.toJobRow || ((sweepOf call now).fenced ||
        (sweepOf call now).callExpired)) then [] else j.content := by
    unfold purgeFollowupJob
    dsimp only
    split_ifs <;> rfl
  rw [heq]
  exact exact_ite hiff

/-- The two texts of a crisis record. -/
structure CrisisExact (call : VoiceCall) (now : Instant) (r r' : VoiceCrisisRecord) : Prop where
  content : Exact (CrisisDue call r now) none r.contentPlaintext r'.contentPlaintext
  keyword : Exact (CrisisDue call r now) none r.matchedKeyword r'.matchedKeyword

theorem purgeCrisis_exact (r : VoiceCrisisRecord) :
    CrisisExact call now r (purgeCrisis (sweepOf call now) r).1 := by
  have hiff : ((sweepOf call now).fenced || decide (r.expiresAt ≤ (sweepOf call now).now)) = true ↔
      CrisisDue call r now := by
    simp only [Bool.or_eq_true, fenced_iff, decide_eq_true_eq, CrisisDue]
    rfl
  have heq : (purgeCrisis (sweepOf call now) r).1.contentPlaintext =
        (if (sweepOf call now).fenced || decide (r.expiresAt ≤ (sweepOf call now).now) then none
          else r.contentPlaintext) ∧
      (purgeCrisis (sweepOf call now) r).1.matchedKeyword =
        (if (sweepOf call now).fenced || decide (r.expiresAt ≤ (sweepOf call now).now) then none
          else r.matchedKeyword) := by
    unfold purgeCrisis
    split_ifs <;> exact ⟨rfl, rfl⟩
  exact ⟨heq.1 ▸ exact_ite hiff, heq.2 ▸ exact_ite hiff⟩

/-- The rows of the call satisfy a relation, every other row is the same. -/
def RowsOf {α : Type} (callId : Ident) (owner : α → Ident) (R : α → α → Prop)
    (rows rows' : List α) : Prop :=
  List.Forall₂ (fun row row' => (owner row = callId → R row row') ∧
    (owner row ≠ callId → row' = row)) rows rows'

theorem rowsOf_map {α : Type} {callId : Ident} {owner : α → Ident} {R : α → α → Prop} {f : α → α}
    {rows : List α} (hown : ∀ row ∈ rows, owner row = callId → R row (f row))
    (hother : ∀ row ∈ rows, owner row ≠ callId → f row = row) :
    RowsOf callId owner R rows (rows.map f) :=
  List.forall₂_map_right_iff.mpr (List.forall₂_same.mpr fun row hrow =>
    ⟨hown row hrow, hother row hrow⟩)

theorem rowsOf_ofCall {α : Type} {callId : Ident} {owner : α → Ident} {R : α → α → Prop}
    {f : α → α} {rows : List α} (hown : ∀ row ∈ rows, owner row = callId → R row (f row)) :
    RowsOf callId owner R rows (rows.map (ofCall callId owner f)) := by
  refine rowsOf_map (fun row hrow h => ?_) fun row hrow h => if_neg h
  rw [ofCall, if_pos h]
  exact hown row hrow h

theorem rowsOf_same {α : Type} {callId : Ident} {owner : α → Ident} {R : α → α → Prop}
    {rows : List α} (hown : ∀ row ∈ rows, owner row = callId → R row row) :
    RowsOf callId owner R rows rows :=
  List.forall₂_same.mpr fun row hrow => ⟨hown row hrow, fun _ => rfl⟩

/-- Calls besides this one, messages and written memories. -/
structure Untouched (s s' : Tables) (callId : Ident) : Prop where
  calls : ∀ c, c ≠ callId → Dict.get s'.calls c = Dict.get s.calls c
  messages : s'.messages = s.messages
  traces : s'.traces = s.traces

/-- What a completed sweep does to the texts. -/
structure SweepExact (s s' : Tables) (callId : Ident) (call : VoiceCall) (now : Instant) : Prop where
  turns : RowsOf callId VoiceCallTurn.callId (TurnExact call now) s.turns s'.turns
  snapshots : RowsOf callId (fun j => j.callId) (fun j j' => Exact (SnapshotDue s call j now) none
    j.extractionSnapshot j'.extractionSnapshot) s.memoryJobs s'.memoryJobs
  postprocess : RowsOf callId JobRow.callId (fun _ _ => True) s.postprocessJobs s'.postprocessJobs
  followups : RowsOf callId (fun j => j.callId) (fun j j' => Exact (FollowupDue call j now) []
    j.content j'.content) s.followupJobs s'.followupJobs
  crisis : RowsOf callId VoiceCrisisRecord.callId (CrisisExact call now) s.crisisRecords
    s'.crisisRecords
  /-- The reasoning has a deadline; the summary, its topics and emotions have none. -/
  call : ∃ call', Dict.get s'.calls callId = some call' ∧
    Exact (ReasoningDue call now) none call.summaryReasoning call'.summaryReasoning ∧
    call' = { call with summaryReasoning := call'.summaryReasoning }
  untouched : Untouched s s' callId
  operationLog : s'.operationLog = s.operationLog

theorem sweep_exact (db : Database) {callId : Ident} (tables : Tables)
    (htables : tables = { sweepTables (sweepOf call now) db.toTables callId with
      calls := Dict.set db.calls callId (sweepCall (sweepOf call now) call)
      operationLog := db.operationLog ++ [] }) :
    SweepExact db.toTables tables callId call now := by
  subst htables
  constructor
  · exact rowsOf_ofCall (f := sweptTurn (sweepOf call now) _) fun t _ _ => sweptTurn_exact _ t
  · exact rowsOf_ofCall fun j hj hcall => purgeMemoryJob_exact db hj hcall
  · exact rowsOf_ofCall fun _ _ _ => trivial
  · exact rowsOf_ofCall fun j _ _ => purgeFollowupJob_exact j
  · exact rowsOf_ofCall fun r _ _ => purgeCrisis_exact r
  · refine ⟨_, Dict.get_set_self _ _ _, exact_ite ?_, rfl⟩
    simp only [Bool.or_eq_true, fenced_iff, ReasoningDue, ← due_iff]
    rfl
  · exact ⟨fun c hc => Dict.get_set_ne (Ne.symm hc), rfl, rfl⟩
  · exact List.append_nil _

/-- A look that answers no got past this test. -/
theorem look_past {c : Prop} [Decidable c] {rest : Except PurgeError Bool} :
    (if c then .ok true else rest) = .ok false ↔ ¬ c ∧ rest = .ok false := by
  split_ifs with hc
  · simp [hc]
  · simp [hc]

/-- Nothing of a call is due when the look before the locks finds nothing. -/
theorem nothing_due (db : Database) {callId : Ident} (hcall : Dict.get db.calls callId = some call)
    (h : hasDueContent db.toTables callId now = .ok false) :
    SweepExact db.toTables db.toTables callId call now := by
  unfold hasDueContent at h
  rw [hcall] at h
  simp only [look_past] at h
  obtain ⟨hfenced, hexpired, hturns, hcrisis, h⟩ := h
  obtain ⟨hdeletion, hdeleted⟩ : call.deletionFenceAt = none ∧ call.deletedAt = none := by
    simpa using hfenced
  have hopen : ¬ Fenced call := by simp [Fenced, hdeletion, hdeleted]
  obtain ⟨⟨htranscript, hgenerated⟩, hreasoning⟩ : (¬ Passed call.transcriptExpiresAt now ∧
      ¬ Passed call.generatedTextExpiresAt now) ∧ ¬ Passed call.reasoningExpiresAt now := by
    simpa [← due_iff] using hexpired
  have hturn : ∀ t ∈ db.turns, t.callId = callId → ¬ Passed t.effectiveTextExpiresAt now ∧
      ¬ Passed t.generatedTextExpiresAt now := by
    simpa [← due_iff] using hturns
  have hrecord : ∀ r ∈ db.crisisRecords, r.callId = callId → ¬ r.expiresAt ≤ now := by
    simpa using hcrisis
  cases hcutoff : addDays now (-jobDays call) with
  | none => simp [hcutoff] at h
  | some cutoff =>
    have hcut : cutoff = now - jobDays call * microsPerDay := by
      unfold addDays at hcutoff
      dsimp only at hcutoff
      split_ifs at hcutoff
      obtain rfl := Option.some.inj hcutoff
      ring
    rw [hcutoff] at h
    obtain ⟨⟨hmemory, hpost⟩, hfollow⟩ :
        ((∀ j ∈ db.memoryJobs, j.callId = callId → ¬ j.createdAt ≤ cutoff) ∧
          ∀ j ∈ db.postprocessJobs, j.callId = callId → ¬ j.createdAt ≤ cutoff) ∧
          ∀ j ∈ db.followupJobs, j.callId = callId → ¬ j.createdAt ≤ cutoff := by
      simpa using h
    have hlog (j : JobRow) (hj : ¬ j.createdAt ≤ cutoff) : ¬ LogDue call j now := by
      intro hle
      rw [hcut] at hj
      exact hj (le_sub_iff_add_le.mpr hle)
    have hkept {α : Type} {isDue : Prop} {empty x : α} (hn : ¬ isDue) : Exact isDue empty x x :=
      ⟨fun hd => absurd hd hn, fun _ => rfl⟩
    constructor
    · refine rowsOf_same fun t ht hown => ?_
      obtain ⟨heffective, hgen⟩ := hturn t ht hown
      have hnot : ¬ TranscriptDue call t now := by
        simp [TranscriptDue, hopen, htranscript, heffective]
      exact ⟨hkept hnot, hkept hnot, hkept (by simp [GeneratedDue, hopen, hgenerated, hgen])⟩
    · refine rowsOf_same fun j hj hown => hkept ?_
      rintro (hf | ht | hl | ⟨t, ht, hid, hpassed⟩)
      · exact hopen hf
      · exact htranscript ht
      · exact hlog _ (hmemory j hj hown) hl
      · exact (hturn t ht ((db.linked j hj t ht hid).trans hown)).1 hpassed
    · exact rowsOf_same fun _ _ _ => trivial
    · refine rowsOf_same fun j hj hown => hkept ?_
      rintro (hf | ht | hl)
      · exact hopen hf
      · exact htranscript ht
      · exact hlog _ (hfollow j hj hown) hl
    · refine rowsOf_same fun r hr hown => ?_
      have hnot : ¬ CrisisDue call r now := by simp [CrisisDue, hopen, hrecord r hr hown]
      exact ⟨hkept hnot, hkept hnot⟩
    · exact ⟨call, hcall, hkept (by simp [ReasoningDue, hopen, hreasoning]), rfl⟩
    · exact ⟨fun _ _ => rfl, rfl, rfl⟩
    · rfl

/-- The call a deletion begins with, and the sweep that follows. -/
def fencedCall (call : VoiceCall) (utcnow : Instant) : VoiceCall :=
  { call with deletionFenceAt := call.deletionFenceAt.or (some utcnow) }

def deletedCall (call : VoiceCall) (now utcnow : Instant) (admin : AdminUser) : VoiceCall :=
  (deleteCall (sweepCall (sweepOf (fencedCall call utcnow) now) (fencedCall call utcnow)) admin
    now).1

/-- The row a deletion is logged with. -/
def deletionLog (callId : Ident) (admin : AdminUser) : AdminOperationLog :=
  ⟨admin.id, "voice_calls".toList, "delete".toList, callId⟩

/-- What a deletion commits. -/
def deletedResult (s : Tables) (callId : Ident) (call : VoiceCall) (now utcnow : Instant)
    (admin : AdminUser) : Tables :=
  { sweepTables (sweepOf (fencedCall call utcnow) now)
      (stageDeletionFence s callId call utcnow).1 callId with
    calls := Dict.set s.calls callId (deletedCall call now utcnow admin)
    operationLog := s.operationLog ++ [deletionLog callId admin] }

theorem fencedCall_fenced {utcnow : Instant} : (sweepOf (fencedCall call utcnow) now).fenced = true := by
  refine fenced_iff.mpr (.inl ?_)
  cases h : call.deletionFenceAt <;> simp [fencedCall, h]

/-- What an administrator's deletion leaves of a turn, a job or a record: no text. -/
structure DeletionExact (s s' : Tables) (callId : Ident) (admin : AdminUser) : Prop where
  turns : RowsOf callId VoiceCallTurn.callId (fun _ t' => t'.userTextFinal = none ∧
    t'.assistantTextEffective = none ∧ t'.assistantTextGenerated = none) s.turns s'.turns
  snapshots : RowsOf callId (fun j => j.callId) (fun _ j' => j'.extractionSnapshot = none)
    s.memoryJobs s'.memoryJobs
  postprocess : RowsOf callId JobRow.callId (fun _ _ => True) s.postprocessJobs s'.postprocessJobs
  followups : RowsOf callId (fun j => j.callId) (fun _ j' => j'.content = []) s.followupJobs
    s'.followupJobs
  crisis : RowsOf callId VoiceCrisisRecord.callId (fun _ r' => r'.contentPlaintext = none ∧
    r'.matchedKeyword = none) s.crisisRecords s'.crisisRecords
  call : ∃ call', Dict.get s'.calls callId = some call' ∧ call'.callSummary = none ∧
    call'.summaryReasoning = none ∧ call'.unfinishedTopics = none ∧ call'.userEmotion = none ∧
    call'.assistantEmotion = none
  untouched : Untouched s s' callId
  /-- The deletion is logged. -/
  operationLog : s'.operationLog = s.operationLog ++ [deletionLog callId admin]

/-- Beginning the deletion of a call leaves the turns of other calls alone. -/
theorem fence_turn (db : Database) {callId : Ident} {t : VoiceCallTurn} (ht : t ∈ db.turns)
    (hother : t.callId ≠ callId) : cancelMemory (stoppedTurns db.memoryJobs callId) t = t := by
  refine if_neg ?_
  rintro ⟨hmem, -⟩
  obtain ⟨j, hj, hid⟩ := List.mem_map.mp hmem
  obtain ⟨hmemory, hown⟩ := List.mem_filter.mp hj
  have hcall : j.callId = callId := by
    simpa using (Bool.and_eq_true_iff.mp hown).1
  exact hother ((db.linked j hmemory t ht hid.symm).trans hcall)

@[simp] theorem fenceJob_callId (callId : Ident) (j : VoiceMemoryJob) :
    (fenceJob callId j).callId = j.callId := by
  unfold fenceJob
  split_ifs <;> rfl

theorem fenceJob_other {callId : Ident} {j : VoiceMemoryJob} (h : j.callId ≠ callId) :
    fenceJob callId j = j :=
  if_neg (by simp [stopped, h])

theorem fenced_texts {p : Sweep} (hp : p.fenced = true) (ids : List ℤ) (t : VoiceCallTurn) :
    (sweptTurn p ids t).userTextFinal = none ∧ (sweptTurn p ids t).assistantTextEffective = none ∧
      (sweptTurn p ids t).assistantTextGenerated = none := by
  obtain ⟨huser, heffective, hgenerated⟩ := cancelMemory_texts ids (purgeTurn p t).1
  rw [purgeTurn_eq] at huser heffective hgenerated
  simp only [sweptTurn, purgeTurn_eq]
  rw [huser, heffective, hgenerated]
  simp [Sweep.clearsEffective, Sweep.clearsGenerated, hp]

theorem fenced_snapshot {p : Sweep} (hp : p.fenced = true) (turns : List VoiceCallTurn)
    (j : VoiceMemoryJob) : (purgeMemoryJob p turns j).1.extractionSnapshot = none := by
  unfold purgeMemoryJob
  simp [Sweep.memoryExpired, hp]

theorem deletion_exact (db : Database) {callId : Ident} {utcnow : Instant} (admin : AdminUser)
    (tables : Tables) (htables : tables = deletedResult db.toTables callId call now utcnow admin) :
    DeletionExact db.toTables tables callId admin := by
  have hp : (sweepOf (fencedCall call utcnow) now).fenced = true := fencedCall_fenced
  subst htables
  constructor
  · simp only [deletedResult, sweepTables, stageDeletionFence, List.map_map]
    refine rowsOf_map (fun t _ hown => ?_) fun t ht hother => ?_
    · have hcall := (cancelMemory_frame (stoppedTurns db.memoryJobs callId) t).2.1
      simp only [Function.comp_apply, ofCall, hcall, hown, if_true]
      exact fenced_texts hp _ _
    · simp only [Function.comp_apply, fence_turn db ht hother, ofCall, hother, if_false]
  · simp only [deletedResult, sweepTables, stageDeletionFence, List.map_map]
    refine rowsOf_map (fun j _ hown => ?_) fun j _ hother => ?_
    · simp only [Function.comp_apply, ofCall, fenceJob_callId, hown, if_true]
      exact fenced_snapshot hp _ _
    · simp only [Function.comp_apply, fenceJob_other hother, ofCall, hother, if_false]
  · exact rowsOf_ofCall fun _ _ _ => trivial
  · refine rowsOf_ofCall fun j _ _ => ?_
    unfold purgeFollowupJob
    simp [hp]
  · refine rowsOf_ofCall fun r _ _ => ?_
    unfold purgeCrisis
    simp [hp]
  · exact ⟨_, Dict.get_set_self _ _ _, rfl, rfl, rfl, rfl, rfl⟩
  · exact ⟨fun c hc => Dict.get_set_ne (Ne.symm hc), rfl, rfl⟩
  · rfl

end Exactness

section Repeated

variable {call : VoiceCall} {now utcnow : Instant} {callId : Ident}

theorem purgeMemoryJob_createdAt (p : Sweep) (turns : List VoiceCallTurn) (j : VoiceMemoryJob) :
    (purgeMemoryJob p turns j).1.createdAt = j.createdAt := by
  unfold purgeMemoryJob
  dsimp only
  split_ifs <;> rfl

theorem purgePostprocessJob_createdAt (p : Sweep) (j : VoicePostprocessJob) :
    (purgePostprocessJob p j).createdAt = j.createdAt := by
  unfold purgePostprocessJob
  dsimp only
  split_ifs <;> rfl

theorem purgeFollowupJob_createdAt (p : Sweep) (j : VoiceFollowupJob) :
    (purgeFollowupJob p j).1.createdAt = j.createdAt := by
  unfold purgeFollowupJob
  dsimp only
  split_ifs <;> rfl

/-- A test of rows that their sweep keeps. -/
theorem all_ofCall {α : Type} {owner : α → Ident} {f : α → α} {test : α → Bool} {rows : List α}
    (h : ∀ row, test (f row) = test row) :
    (rows.map (ofCall callId owner f)).all test = rows.all test := by
  rw [List.all_map]
  congr 1
  funext row
  simp only [Function.comp_apply, ofCall]
  split_ifs
  · exact h row
  · rfl

theorem any_ofCall {α : Type} {owner : α → Ident} {f : α → α} {test : α → Bool} {rows : List α}
    (h : ∀ row, test (f row) = test row) :
    (rows.map (ofCall callId owner f)).any test = rows.any test := by
  rw [List.any_map]
  congr 1
  funext row
  simp only [Function.comp_apply, ofCall]
  split_ifs
  · exact h row
  · rfl

theorem agesFit_sweep (p : Sweep) (s : Tables) (days : ℤ) :
    agesFit (sweepTables p s callId) callId days = agesFit s callId days := by
  unfold agesFit sweepTables
  dsimp only
  rw [all_ofCall fun j => by rw [purgeMemoryJob_callId, purgeMemoryJob_createdAt],
    all_ofCall fun j => by rw [purgePostprocessJob_callId, purgePostprocessJob_createdAt],
    all_ofCall fun j => by rw [purgeFollowupJob_callId, purgeFollowupJob_createdAt]]

theorem cacheDue_sweep (p : Sweep) (s : Tables) :
    cacheDue p (sweepTables p s callId) callId = cacheDue p s callId := by
  unfold cacheDue sweepTables
  dsimp only
  rw [any_ofCall fun t => by
    obtain ⟨-, hcall, hexpiry⟩ := sweptTurn_frame p _ t
    rw [hcall]
    simp only [Sweep.clearsEffective, hexpiry]]

theorem eraseContexts_idem (contexts keys : List Ident) :
    eraseContexts (eraseContexts contexts keys) keys = eraseContexts contexts keys := by
  simp [eraseContexts]

/-- The sweep reads rows only, not the calls or the log. -/
theorem sweepTables_with (p : Sweep) (s : Tables) (calls : Dict Ident VoiceCall)
    (log : List AdminOperationLog) :
    sweepTables p { s with calls := calls, operationLog := log } callId =
      { sweepTables p s callId with calls := calls, operationLog := log } := rfl

/-- What a scheduled sweep commits. -/
def sweptResult (s : Tables) (callId : Ident) (call : VoiceCall) (now : Instant) : Tables :=
  { sweepTables (sweepOf call now) s callId with
    calls := Dict.set s.calls callId (sweepCall (sweepOf call now) call)
    operationLog := s.operationLog ++ [] }

theorem scheduled_ok {s : Tables} {r : Tables × Report}
    (h : purgeTransaction s callId call now utcnow none = .ok r) :
    r.1 = sweptResult s callId call now ∧
      r.2.cacheKeys = if cacheDue (sweepOf call now) s callId then [callId] else [] := by
  obtain ⟨-, -, h⟩ := bind_eq_ok.mp h
  obtain rfl := Except.ok.inj h
  exact ⟨rfl, rfl⟩

theorem sweepCall_idem (p : Sweep) (call : VoiceCall) :
    sweepCall p (sweepCall p call) = sweepCall p call := by
  unfold sweepCall
  split_ifs <;> rfl

theorem sweptResult_idem (s : Tables) (callId : Ident) (call : VoiceCall) (now : Instant) :
    sweptResult (sweptResult s callId call now) callId (sweepCall (sweepOf call now) call) now =
      sweptResult s callId call now := by
  have hsame : sweepOf (sweepCall (sweepOf call now) call) now = sweepOf call now := rfl
  unfold sweptResult
  rw [hsame, sweepTables_with, sweepTables_idem, sweepCall_idem, Dict.set_set]
  simp

theorem deletion_ok {s : Tables} {admin : AdminUser} {r : Tables × Report} :
    purgeTransaction s callId call now utcnow (some admin) = .ok r →
      agesFit (stageDeletionFence s callId call utcnow).1 callId
        (sweepOf (fencedCall call utcnow) now).days = true ∧
      r.1 = deletedResult s callId call now utcnow admin ∧
      r.2.cacheKeys = if cacheDue (sweepOf (fencedCall call utcnow) now)
        (stageDeletionFence s callId call utcnow).1 callId then [callId] else [] := by
  intro h
  obtain ⟨_, hfit, h⟩ := bind_eq_ok.mp h
  obtain rfl := Except.ok.inj h
  exact ⟨require_eq_ok.mp hfit, rfl, rfl⟩

theorem deletion_succeeds {s : Tables} {admin : AdminUser}
    (hfit : agesFit (stageDeletionFence s callId call utcnow).1 callId
      (sweepOf (fencedCall call utcnow) now).days = true) :
    ∃ r, purgeTransaction s callId call now utcnow (some admin) = .ok r :=
  ⟨_, bind_eq_ok.mpr ⟨(), require_of_pos hfit, rfl⟩⟩

/-- A second fence finds no unfinished job and changes nothing. -/
theorem stageDeletionFence_idem {s : Tables} {call : VoiceCall}
    (hjobs : ∀ j ∈ s.memoryJobs, stopped callId j = false) (hfence : call.deletionFenceAt ≠ none) :
    stageDeletionFence s callId call utcnow = (s, call) := by
  have hkept : s.memoryJobs.map (fenceJob callId) = s.memoryJobs := by
    refine (List.map_congr_left fun j hj => ?_).trans (List.map_id _)
    simp [fenceJob, hjobs j hj]
  have hids : stoppedTurns s.memoryJobs callId = [] := by
    rw [stoppedTurns, List.map_eq_nil_iff, List.filter_eq_nil_iff]
    exact fun j hj => by simp [hjobs j hj]
  have hcall : call.deletionFenceAt.or (some utcnow) = call.deletionFenceAt := by
    cases h : call.deletionFenceAt with
    | none => exact absurd h hfence
    | some t => rfl
  have hturns : s.turns.map (cancelMemory []) = s.turns :=
    (List.map_congr_left fun t _ => cancelMemory_nil t).trans (List.map_id _)
  unfold stageDeletionFence
  rw [hkept, hids, hcall, hturns]

/-- Under a fence no memory job of the call stays unfinished. -/
theorem swept_stopped {p : Sweep} (hp : p.fenced = true) (s : Tables) :
    ∀ j ∈ (sweepTables p s callId).memoryJobs, stopped callId j = false := by
  intro k hk
  obtain ⟨j, -, rfl⟩ := List.mem_map.mp hk
  unfold ofCall
  split_ifs with hown
  · unfold purgeMemoryJob stopped
    cases hactive : active j.status <;> simp [Sweep.memoryExpired, hp, hactive, JobRow.cancel]
  · simp [stopped, hown]

/-- A deleted call, field by field. -/
theorem deletedCall_eq (call : VoiceCall) (now utcnow : Instant) (admin : AdminUser) :
    deletedCall call now utcnow admin = { call with
      sortSeq := none, callSummary := none, summaryReasoning := none, unfinishedTopics := none
      userEmotion := none, assistantEmotion := none
      deletionFenceAt := call.deletionFenceAt.or (some utcnow)
      deletedAt := call.deletedAt.or (some now)
      deletedBy := if call.deletedAt = none then some admin.id else call.deletedBy } := rfl

theorem deletedCall_fence (call : VoiceCall) (now utcnow : Instant) (admin : AdminUser) :
    (deletedCall call now utcnow admin).deletionFenceAt ≠ none := by
  rw [deletedCall_eq]
  cases call.deletionFenceAt <;> simp

theorem deletedCall_idem (admin : AdminUser) (utcnow' : Instant) :
    deletedCall (deletedCall call now utcnow admin) now utcnow' admin =
      deletedCall call now utcnow admin := by
  rw [deletedCall_eq (deletedCall call now utcnow admin), deletedCall_eq call]
  cases call.deletionFenceAt <;> cases call.deletedAt <;> simp

/-- The sweep of a deleted call is that of its deletion. -/
theorem deletedCall_sweep (admin : AdminUser) (utcnow' : Instant) :
    sweepOf (fencedCall (deletedCall call now utcnow admin) utcnow') now =
      sweepOf (fencedCall call utcnow) now := by
  have hfirst : (sweepOf (fencedCall call utcnow) now).fenced = true := fencedCall_fenced
  have hsecond : (sweepOf (fencedCall (deletedCall call now utcnow admin) utcnow') now).fenced =
      true := fencedCall_fenced
  have hrest : sweepOf (fencedCall (deletedCall call now utcnow admin) utcnow') now =
      { sweepOf (fencedCall call utcnow) now with
        fenced := (sweepOf (fencedCall (deletedCall call now utcnow admin) utcnow') now).fenced } :=
    rfl
  rw [hrest, hsecond, ← hfirst]

variable (call now utcnow callId) in
/-- A repeated deletion adds only its row in the log. -/
theorem deletedResult_again (s : Tables) (admin : AdminUser) (utcnow' : Instant) :
    (stageDeletionFence (deletedResult s callId call now utcnow admin) callId
        (deletedCall call now utcnow admin) utcnow').1 =
        deletedResult s callId call now utcnow admin ∧
      deletedResult (deletedResult s callId call now utcnow admin) callId
          (deletedCall call now utcnow admin) now utcnow' admin =
        { deletedResult s callId call now utcnow admin with
          operationLog := (deletedResult s callId call now utcnow admin).operationLog ++
            [deletionLog callId admin] } := by
  have hfence : stageDeletionFence (deletedResult s callId call now utcnow admin) callId
      (deletedCall call now utcnow admin) utcnow' =
      (deletedResult s callId call now utcnow admin, deletedCall call now utcnow admin) :=
    stageDeletionFence_idem (swept_stopped fencedCall_fenced _) (deletedCall_fence call now utcnow admin)
  refine ⟨congrArg Prod.fst hfence, ?_⟩
  rw [deletedResult, hfence, deletedCall_sweep, deletedCall_idem]
  dsimp only
  have hrows : sweepTables (sweepOf (fencedCall call utcnow) now)
      (deletedResult s callId call now utcnow admin) callId =
      deletedResult s callId call now utcnow admin := by
    rw [deletedResult, sweepTables_with, sweepTables_idem]
  rw [hrows]
  have hcalls : Dict.set (deletedResult s callId call now utcnow admin).calls callId
      (deletedCall call now utcnow admin) =
      (deletedResult s callId call now utcnow admin).calls := Dict.set_set _ _ _ _
  rw [hcalls]

end Repeated

section Purge

variable {w w' : Storage} {r : Tables × Report} {admin : Option AdminUser} {fault : Option Fault}
  {callId : Ident} {now utcnow : Instant}

theorem finish_ok {report : Report} (h : finish w r admin fault = (w', .ok report)) :
    w' = ⟨r.1, eraseContexts w.contexts r.2.cacheKeys⟩ := by
  unfold finish at h
  dsimp only at h
  split at h <;> try split_ifs at h
  all_goals
    obtain ⟨rfl, hresult⟩ := Prod.mk.inj h
    first | rfl | simp at hresult

theorem finish_error {e : PurgeError} (h : finish w r admin fault = (w', .error e)) :
    w'.tables = w.tables := by
  unfold finish at h
  dsimp only at h
  split at h <;> try split_ifs at h
  all_goals
    obtain ⟨rfl, hresult⟩ := Prod.mk.inj h
    first | rfl | simp at hresult

theorem purgeLocked_error {e : PurgeError}
    (h : purgeLocked w callId now utcnow admin fault = (w', .error e)) : w'.tables = w.tables := by
  unfold purgeLocked at h
  split at h
  · obtain ⟨rfl, -⟩ := Prod.mk.inj h
    rfl
  · split at h
    · obtain ⟨rfl, -⟩ := Prod.mk.inj h
      rfl
    · exact finish_error h

theorem purgeCall_error {e : PurgeError}
    (h : purgeCall w callId now utcnow admin fault = (w', .error e)) : w'.tables = w.tables := by
  unfold purgeCall at h
  split_ifs at h
  · exact purgeLocked_error h
  · split at h
    · obtain ⟨rfl, -⟩ := Prod.mk.inj h
      rfl
    · obtain ⟨rfl, -⟩ := Prod.mk.inj h
      rfl
    · exact purgeLocked_error h

/-- A completed scheduled purge either found nothing due or committed the sweep. -/
theorem scheduled_cases {call : VoiceCall} {report : Report}
    (hcall : Dict.get w.tables.calls callId = some call)
    (h : purgeCall w callId now utcnow none fault = (w', .ok report)) :
    (w' = w ∧ hasDueContent w.tables callId now = .ok false) ∨
      w' = ⟨sweptResult w.tables callId call now, eraseContexts w.contexts
        (if cacheDue (sweepOf call now) w.tables callId then [callId] else [])⟩ := by
  unfold purgeCall at h
  rw [if_neg (by simp)] at h
  split at h
  · simp at h
  · rename_i hnothing
    exact .inl ⟨(Prod.mk.inj h).1.symm, hnothing⟩
  · unfold purgeLocked at h
    rw [hcall] at h
    dsimp only at h
    split at h
    · simp at h
    · rename_i r hr
      obtain ⟨htables, hkeys⟩ := scheduled_ok hr
      exact .inr ((finish_ok h).trans (by rw [htables, hkeys]))

theorem deletion_cases {call : VoiceCall} {report : Report} {a : AdminUser}
    (hcall : Dict.get w.tables.calls callId = some call)
    (h : purgeCall w callId now utcnow (some a) fault = (w', .ok report)) :
    w' = ⟨deletedResult w.tables callId call now utcnow a, eraseContexts w.contexts
        (if cacheDue (sweepOf (fencedCall call utcnow) now)
          (stageDeletionFence w.tables callId call utcnow).1 callId then [callId] else [])⟩ ∧
      agesFit (stageDeletionFence w.tables callId call utcnow).1 callId
        (sweepOf (fencedCall call utcnow) now).days = true := by
  unfold purgeCall at h
  rw [if_pos (by simp)] at h
  unfold purgeLocked at h
  rw [hcall] at h
  dsimp only at h
  split at h
  · simp at h
  · rename_i r hr
    obtain ⟨hfit, htables, hkeys⟩ := deletion_ok hr
    exact ⟨(finish_ok h).trans (by rw [htables, hkeys]), hfit⟩

/-- A call without a row is nobody's: a scheduled purge leaves everything. -/
theorem scheduled_absent {report : Report} (hcall : Dict.get w.tables.calls callId = none)
    (h : purgeCall w callId now utcnow none fault = (w', .ok report)) : w' = w := by
  unfold purgeCall at h
  rw [if_neg (by simp)] at h
  split at h
  · simp at h
  · exact (Prod.mk.inj h).1.symm
  · unfold purgeLocked at h
    rw [hcall] at h
    exact (Prod.mk.inj h).1.symm

/-- Without a failing step a purge that raises has changed nothing at all. -/
theorem purgeCall_refused {e : PurgeError}
    (h : purgeCall w callId now utcnow admin none = (w', .error e)) : w' = w := by
  have hlocked (h : purgeLocked w callId now utcnow admin none = (w', .error e)) : w' = w := by
    unfold purgeLocked at h
    split at h
    · exact (Prod.mk.inj h).1.symm
    · split at h
      · exact (Prod.mk.inj h).1.symm
      · simp [finish] at h
  unfold purgeCall at h
  split_ifs at h
  · exact hlocked h
  · split at h
    · exact (Prod.mk.inj h).1.symm
    · exact (Prod.mk.inj h).1.symm
    · exact hlocked h

/-- What a completed scheduled purge leaves is left alone by the next at the same instant. -/
theorem scheduled_again {report : Report} (utcnow' : Instant)
    (h : purgeCall w callId now utcnow none fault = (w', .ok report)) :
    (purgeCall w' callId now utcnow' none none).1 = w' := by
  obtain ⟨⟨w'', result⟩, hresult⟩ : ∃ x, purgeCall w' callId now utcnow' none none = x := ⟨_, rfl⟩
  rw [hresult]
  cases result with
  | error e => exact purgeCall_refused hresult
  | ok report' =>
    cases hcall : Dict.get w.tables.calls callId with
    | none =>
      obtain rfl := scheduled_absent hcall h
      exact scheduled_absent hcall hresult
    | some call =>
      rcases scheduled_cases hcall h with ⟨rfl, hnothing⟩ | rfl
      · rcases scheduled_cases hcall hresult with ⟨rfl, -⟩ | rfl
        · rfl
        · -- the first look found nothing, so the second did
          unfold purgeCall at hresult
          rw [if_neg (by simp), hnothing] at hresult
          exact (Prod.mk.inj hresult).1.symm
      · have hcall' : Dict.get (sweptResult w.tables callId call now).calls callId =
            some (sweepCall (sweepOf call now) call) := Dict.get_set_self _ _ _
        rcases scheduled_cases (w := ⟨sweptResult w.tables callId call now, _⟩) hcall' hresult with
          ⟨rfl, -⟩ | rfl
        · rfl
        · have hsame : sweepOf (sweepCall (sweepOf call now) call) now = sweepOf call now := rfl
          have hkeys : cacheDue (sweepOf call now) (sweptResult w.tables callId call now) callId =
              cacheDue (sweepOf call now) w.tables callId := cacheDue_sweep _ _
          dsimp only
          rw [sweptResult_idem, hsame, hkeys, eraseContexts_idem]

theorem cacheDue_fenced {p : Sweep} (hp : p.fenced = true) (s : Tables) :
    cacheDue p s callId = true := by
  simp [cacheDue, hp]

/-- A deletion repeated at the same instant succeeds and adds only its row in the log. -/
theorem deletion_again {report : Report} {call : VoiceCall} {a : AdminUser} (utcnow' : Instant)
    (hcall : Dict.get w.tables.calls callId = some call)
    (h : purgeCall w callId now utcnow (some a) fault = (w', .ok report)) :
    ∃ report', purgeCall w' callId now utcnow' (some a) none =
      (⟨{ w'.tables with operationLog := w'.tables.operationLog ++ [deletionLog callId a] },
        w'.contexts⟩, .ok report') := by
  obtain ⟨rfl, hfit⟩ := deletion_cases hcall h
  have hcall' : Dict.get (deletedResult w.tables callId call now utcnow a).calls callId =
      some (deletedCall call now utcnow a) := Dict.get_set_self _ _ _
  obtain ⟨hfence, htables⟩ := deletedResult_again call now utcnow callId w.tables a utcnow'
  have hfit' : agesFit (stageDeletionFence (deletedResult w.tables callId call now utcnow a) callId
      (deletedCall call now utcnow a) utcnow').1 callId
      (sweepOf (fencedCall (deletedCall call now utcnow a) utcnow') now).days = true := by
    rw [hfence, deletedCall_sweep]
    exact (agesFit_sweep _ _ _).trans hfit
  obtain ⟨r, hr⟩ : ∃ r, purgeTransaction (deletedResult w.tables callId call now utcnow a) callId
      (deletedCall call now utcnow a) now utcnow' (some a) = .ok r := deletion_succeeds hfit'
  obtain ⟨-, hdeleted, hkeys⟩ := deletion_ok hr
  refine ⟨r.2, ?_⟩
  unfold purgeCall
  rw [if_pos (by simp)]
  unfold purgeLocked
  rw [hcall']
  dsimp only
  rw [hr]
  simp only [finish, hdeleted, htables, hkeys, cacheDue_fenced fencedCall_fenced, if_true,
    eraseContexts_idem]

end Purge

/-- What a purge of one call does, to any database at any instant. -/
structure RetentionExact (db : Database) (contexts : List Ident) (callId : Ident) (now : Instant) :
    Prop where
  /-- A completed scheduled purge clears what is due and keeps everything else. -/
  swept : ∀ utcnow fault call w' report, Dict.get db.calls callId = some call →
    purgeCall ⟨db.toTables, contexts⟩ callId now utcnow none fault = (w', .ok report) →
      SweepExact db.toTables w'.tables callId call now
  /-- Repeated it changes nothing. -/
  sweptAgain : ∀ utcnow utcnow' fault w' report,
    purgeCall ⟨db.toTables, contexts⟩ callId now utcnow none fault = (w', .ok report) →
      (purgeCall w' callId now utcnow' none none).1 = w'
  /-- A completed deletion leaves no text of the call. -/
  deleted : ∀ utcnow admin fault call w' report, Dict.get db.calls callId = some call →
    purgeCall ⟨db.toTables, contexts⟩ callId now utcnow (some admin) fault = (w', .ok report) →
      DeletionExact db.toTables w'.tables callId admin
  /-- Repeated it adds one row to the log. -/
  deletedAgain : ∀ utcnow utcnow' admin fault call w' report,
    Dict.get db.calls callId = some call →
    purgeCall ⟨db.toTables, contexts⟩ callId now utcnow (some admin) fault = (w', .ok report) →
      ∃ report', purgeCall w' callId now utcnow' (some admin) none =
        (⟨{ w'.tables with operationLog := w'.tables.operationLog ++ [deletionLog callId admin] },
          w'.contexts⟩, .ok report')
  /-- A purge that raises leaves the database. -/
  raised : ∀ utcnow admin fault w' e,
    purgeCall ⟨db.toTables, contexts⟩ callId now utcnow admin fault = (w', .error e) →
      w'.tables = db.toTables

theorem retention_exact (db : Database) (contexts : List Ident) (callId : Ident) (now : Instant) :
    RetentionExact db contexts callId now where
  swept utcnow fault call w' report hcall h := by
    rcases scheduled_cases hcall h with ⟨rfl, hnothing⟩ | rfl
    · exact nothing_due db hcall hnothing
    · exact sweep_exact db _ rfl
  sweptAgain utcnow utcnow' fault w' report h := scheduled_again utcnow' h
  deleted utcnow admin fault call w' report hcall h := by
    obtain ⟨rfl, -⟩ := deletion_cases hcall h
    exact deletion_exact db admin _ rfl
  deletedAgain utcnow utcnow' admin fault call w' report hcall h :=
    deletion_again utcnow' hcall h
  raised utcnow admin fault w' e h := purgeCall_error h

section Examples

def plainCall : VoiceCall :=
  { id := 1, sortSeq := none, callSummary := none, userEmotion := none, assistantEmotion := none
    unfinishedTopics := none, summaryReasoning := none, configSnapshot := .obj []
    transcriptExpiresAt := none, generatedTextExpiresAt := none, reasoningExpiresAt := none
    deletionFenceAt := none, deletedAt := none, deletedBy := none }

/-- A call whose follow-up message was sent. -/
def sentDatabase : Database where
  calls := [(['c'], plainCall)]
  turns := []
  memoryJobs := []
  postprocessJobs := []
  followupJobs := [{ id := 1, callId := ['c'], status := .sent, nextRetryAt := none
                     leaseOwner := none, leaseExpiresAt := none, failReason := none, createdAt := 0
                     content := ['m'], cancelReason := none, agentMessageId := some 7 }]
  crisisRecords := []
  messages := [⟨7, ['m']⟩]
  traces := []
  operationLog := []
  linked := by simp [Tables.Linked]
  turnKeys := List.nodup_nil

/-- The message of a follow-up job of the call. -/
def LinkedMessage (s : Tables) (callId : Ident) (m : AgentMessage) : Prop :=
  m ∈ s.messages ∧ ∃ j ∈ s.followupJobs, j.callId = callId ∧ j.agentMessageId = some m.id

/-- A deletion keeps the message that was sent, its repetition writes to the log, and a purge whose
commit fails has already dropped the cached context. -/
theorem deletion_keeps_message :
    (∃ w' report, purgeCall ⟨sentDatabase.toTables, [['c']]⟩ ['c'] 0 0 (some ⟨1⟩) none =
        (w', .ok report) ∧
      (∃ m, LinkedMessage w'.tables ['c'] m ∧ m.content ≠ []) ∧
      (purgeCall w' ['c'] 0 0 (some ⟨1⟩) none).1.tables.operationLog ≠ w'.tables.operationLog) ∧
    ∃ w' e, purgeCall ⟨sentDatabase.toTables, [['c']]⟩ ['c'] 0 0 (some ⟨1⟩) (some .commit) =
        (w', .error e) ∧ w'.contexts ≠ [['c']] := by
  refine ⟨⟨_, _, rfl, ⟨⟨7, ['m']⟩, ⟨?_, ?_⟩, by decide⟩, by decide⟩, _, _, rfl, by decide⟩
  · exact List.mem_singleton.mpr rfl
  · exact ⟨_, List.mem_singleton.mpr rfl, rfl, rfl⟩

end Examples

end CompanionBackend.VoiceRetention
