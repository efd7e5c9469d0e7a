import CompanionBackend.SummaryResults

/-!
# Storing a summary

A summary is stored together with the job of its follow-up message. The moment of the message is
reckoned with datetimes, and a delay that leads beyond the calendar raises: then the whole summary is
given up.
-/
namespace CompanionBackend.SummaryResults

open Runs ProviderEvents Dictionaries CapabilityRules DailyWindows FollowupSchedules
open FollowupJobs (dayMicros shanghaiOffset)

/-- `call_fields()`. -/
structure CallFields where
  callSummary : Text
  unfinishedTopics : List Text
  userEmotion : Text
  assistantEmotion : Text
  deriving DecidableEq

def SummaryResult.callFields (r : SummaryResult) : CallFields :=
  ⟨r.callSummary, r.unfinishedTopics, r.userEmotion, r.assistantEmotion⟩

/-- What is staged with a call. -/
structure Staged where
  job : Option StagedJob
  fields : CallFields

/-- `stage_summary_followup`; `existing` is the call's job of a kind, if it has one. -/
def stageSummaryFollowup (P : Platform) (existing : Text → Option StagedJob) (call : Call)
    (candidate : Candidate) (level : Option ℤ) (drawn : ℤ) : Except Raised StagedJob :=
  match existing candidate.contentType with
  | some job => .ok job
  | none => stageFollowup P call candidate level false none drawn

/-- The part of `process` that stages a result. -/
def stageResult (P : Platform) (existing : Text → Option StagedJob) (call : Call)
    (result : SummaryResult) (level : Option ℤ) (drawn : ℤ) : Except Raised Staged := do
  let job ← match result.followup with
    | some candidate => (stageSummaryFollowup P existing call candidate level drawn).map some
    | none => .ok none
  .ok ⟨job, result.callFields⟩

/-- The decimal digits of ASCII are read as what they are. -/
def ReadsDigits (P : Platform) : Prop :=
  ∀ c, c.isDigit = true → P.service.decimal c = some (c.toNat - '0'.toNat)

theorem windowMinutes_digits {P : Platform} (h : ReadsDigits P) {h₁ h₂ m₁ m₂ : Char}
    (hh : h₂.isDigit = true) (hm : m₂.isDigit = true) :
    windowMinutes P (.str [h₁, h₂, ':', m₁, m₂]) =
      windowMinutes samplePlatform (.str [h₁, h₂, ':', m₁, m₂]) := by
  have hsample : ∀ c : Char, c.isDigit = true →
      samplePlatform.service.decimal c = some (c.toNat - '0'.toNat) := fun c hc => if_pos hc
  simp only [windowMinutes, FollowupJobs.clockMinutes, h h₂ hh, h m₂ hm, hsample h₂ hh, hsample m₂ hm]

/-- A stage with one window that is longer than the jitter. -/
theorem stageIssues_single {P : Platform} {start stop : String} {a b : ℕ} {stages : Json}
    {stage : RelationshipStage} (hstages : stages.field stage.name = stageDocument start stop)
    (hstart : windowMinutes P (.str start.toList) = some a)
    (hstop : windowMinutes P (.str stop.toList) = some b) (hlong : (a : ℤ) + 20 < b) :
    stageIssues P (.int 20) stages stage = [] := by
  have hwindow : ∀ field index, checkWindow P (.int 20) field (windowDocument start stop) index =
      ([], some (a, b, index)) := by
    intro field index
    have hexact : CapabilityEvidence.exactDict (windowDocument start stop) ["start", "end"] = true := rfl
    have h₁ : (windowDocument start stop).field "start" = .str start.toList := rfl
    have h₂ : (windowDocument start stop).field "end" = .str stop.toList := rfl
    unfold checkWindow
    rw [if_pos hexact, h₁, h₂, hstart, hstop]
    simp only
    rw [if_neg (by omega), if_neg (by omega)]
  have hwindows : (stageDocument start stop).field "windows" = .arr [windowDocument start stop] := rfl
  unfold stageIssues
  rw [hstages]
  simp only [hwindows, checkWindows, List.zipIdx_cons, List.zipIdx_nil, List.map_cons, List.map_nil,
    hwindow]
  rfl

theorem default_valid {P : Platform} (h : ReadsDigits P) :
    validateFollowupSchedule P defaultFollowupSchedule = [] := by
  have h0900 : windowMinutes P (.str ['0', '9', ':', '0', '0']) = some 540 :=
    (windowMinutes_digits h rfl rfl).trans (by decide)
  have h0930 : windowMinutes P (.str ['0', '9', ':', '3', '0']) = some 570 :=
    (windowMinutes_digits h rfl rfl).trans (by decide)
  have h1000 : windowMinutes P (.str ['1', '0', ':', '0', '0']) = some 600 :=
    (windowMinutes_digits h rfl rfl).trans (by decide)
  have h2100 : windowMinutes P (.str ['2', '1', ':', '0', '0']) = some 1260 :=
    (windowMinutes_digits h rfl rfl).trans (by decide)
  have h2200 : windowMinutes P (.str ['2', '2', ':', '0', '0']) = some 1320 :=
    (windowMinutes_digits h rfl rfl).trans (by decide)
  have h2230 : windowMinutes P (.str ['2', '2', ':', '3', '0']) = some 1350 :=
    (windowMinutes_digits h rfl rfl).trans (by decide)
  have h2300 : windowMinutes P (.str ['2', '3', ':', '0', '0']) = some 1380 :=
    (windowMinutes_digits h rfl rfl).trans (by decide)
  have hstages : ∀ stage ∈ RelationshipStage.all,
      stageIssues P (.int 20) (defaultFollowupSchedule.field "stages") stage = [] := by
    intro stage _
    cases stage with
    | stranger => exact stageIssues_single rfl h1000 h2100 (by decide)
    | friend => exact stageIssues_single rfl h0930 h2200 (by decide)
    | intimate => exact stageIssues_single rfl h0900 h2230 (by decide)
    | soulmate => exact stageIssues_single rfl h0900 h2300 (by decide)
  have hall : (RelationshipStage.all.flatMap fun stage =>
      stageIssues P (.int 20) (defaultFollowupSchedule.field "stages") stage) = [] :=
    List.flatMap_eq_nil_iff.mpr hstages
  exact (List.append_nil _).trans hall

/-! ### A message within the calendar -/

/-- The candidate of a message. -/
def candidateAt (call : Call) (candidate : Candidate) : Instant :=
  call.endedAt.1 + candidate.delayMinutes * minuteMicros

/-- A day behind the candidate is in the calendar, and the resolver needs no days beyond it. -/
def Roomy (ws : List Window) (t : ℤ) : Prop := t + dayMicros ≤ maxWall ∧ Foreseen ws (t + shanghaiOffset)

/-- The job is what the resolver says of its candidate. -/
def Follows (P : Platform) (call : Call) (candidate : Candidate) (stage : RelationshipStage)
    (drawn : ℤ) (job : StagedJob) : Prop :=
  ∃ low high r, jitterRange (scheduleInForce P call).1 = some (low, high) ∧
    job.candidateDueAt = candidateAt call candidate ∧
    resolveFollowupPreview P (scheduleInForce P call).1
      (previewOf P stage (candidateAt call candidate) (low + drawn)) = .ok r ∧
    job.pending = r.cancelReason.isNone ∧ job.cancelReason = r.cancelReason

/-- What is drawn is one of the jitters of the schedule in force. -/
def Drawn (P : Platform) (call : Call) (drawn : ℤ) : Prop :=
  ∀ low high, jitterRange (scheduleInForce P call).1 = some (low, high) →
    0 ≤ drawn ∧ drawn ≤ high - low

section Staging

variable {P : Platform} {call : Call} {candidate : Candidate} {stage : RelationshipStage}

/-- The schedule in force is an accepted one. -/
theorem inForce_accepted (hdigits : ReadsDigits P) (call : Call) :
    ∃ low high, Accepted P (scheduleInForce P call).1 low high := by
  unfold scheduleInForce
  split_ifs with hown
  · exact accepted_of_validate (List.isEmpty_iff.mp hown)
  · exact accepted_of_validate (default_valid hdigits)

theorem stageFollowup_inForce {low high drawn : ℤ} (h : Accepted P (scheduleInForce P call).1 low high)
    {level : ℤ} (hlevel : RelationshipStage.ofLevel level = some stage)
    (hdrawn : Drawn P call drawn) :
    stageFollowup P call candidate (some level) false none drawn =
      stageCandidate P call candidate stage (scheduleInForce P call).1 (scheduleInForce P call).2
        (low + drawn) := by
  obtain ⟨hpos, hmost⟩ := hdrawn low high h.jitter
  have hstage : stageOf (some level) false = .ok stage := by
    rw [stageOf, hlevel]
    rfl
  unfold stageFollowup
  rw [hstage]
  simp only [bind, Except.bind, h.jitter, Option.getD_none]
  rw [if_neg (by omega)]

/-- Exactly a candidate with room behind it is staged, and its job follows the resolver. -/
theorem stageFollowup_iff (hdigits : ReadsDigits P) (hdelay : 0 ≤ candidate.delayMinutes) {level drawn : ℤ}
    (hlevel : RelationshipStage.ofLevel level = some stage) (hdrawn : Drawn P call drawn) :
    (∃ job, stageFollowup P call candidate (some level) false none drawn = .ok job ∧
      Follows P call candidate stage drawn job) ↔
    Roomy (dailyWindows P (scheduleInForce P call).1 stage) (candidateAt call candidate) := by
  obtain ⟨low, high, h⟩ := inForce_accepted hdigits call
  obtain ⟨hpos, hmost⟩ := hdrawn low high h.jitter
  obtain ⟨-, hnonneg, -, hlimit⟩ := jitterRange_eq h.jitter
  have hjitter : 0 ≤ low + drawn ∧ low + drawn ≤ 20 := by omega
  rw [stageFollowup_inForce h hlevel hdrawn]
  set t := candidateAt call candidate with ht
  have hfirst : minWall ≤ t := by
    have hended : InRange call.endedAt.1 := call.endedAt.2
    have hmicros : 0 ≤ candidate.delayMinutes * minuteMicros :=
      mul_nonneg hdelay (by decide)
    simp only [ht, candidateAt, InRange] at *
    omega
  constructor
  · rintro ⟨job, hjob, -⟩
    have hin : InRange t := by
      by_contra hin
      rw [stageCandidate_overflow ht.symm hin] at hjob
      cases hjob
    have hhere : InRange (t + shanghaiOffset) := by
      by_contra hhere
      have hresolve := resolve_previewOf P (scheduleInForce P call).1 stage hin hjitter
      rw [if_neg hhere] at hresolve
      rw [stageCandidate_of_error ht.symm hin hresolve] at hjob
      cases hjob
    have hforeseen : Foreseen (dailyWindows P (scheduleInForce P call).1 stage) (t + shanghaiOffset) := by
      by_contra hforeseen
      have hover := (resolveCandidate_answers h
        ⟨stage, P.isoformat ⟨t, some 0⟩, t, 0, low + drawn⟩ hjitter hhere).2 hforeseen
      have hresolve := resolve_previewOf P (scheduleInForce P call).1 stage hin hjitter
      rw [if_pos hhere, hover] at hresolve
      rw [stageCandidate_of_error ht.symm hin hresolve] at hjob
      cases hjob
    obtain ⟨windows, -, hwindows, -⟩ := h.stages stage
    obtain ⟨r, due, -, -, -, hstaged⟩ := stageCandidate_foreseen (scheduleInForce P call).2 h hjitter
      (by omega) hwindows ht.symm hin hhere hforeseen
    rw [hstaged, checked] at hjob
    split_ifs at hjob with hlatest
    · exact ⟨hlatest.2, hforeseen⟩
    · cases hjob
  · rintro ⟨hroom, hforeseen⟩
    have hin : InRange t ∧ InRange (t + shanghaiOffset) ∧ InRange (t + dayMicros) := by
      simp only [InRange, maxWall, minWall, dayMicros, shanghaiOffset] at *
      omega
    obtain ⟨hin, hhere, hlatest⟩ := hin
    obtain ⟨r, due, hr, hduein, hdue, hanswer⟩ := (resolveCandidate_answers h
      ⟨stage, P.isoformat ⟨t, some 0⟩, t, 0, low + drawn⟩ hjitter hhere).1 hforeseen
    obtain ⟨-, hle, hlt⟩ := due_open h hjitter.1 (by omega) hdue
    rw [Answers, if_pos hlt.le] at hanswer
    have hutc : InRange (due - shanghaiOffset) := by
      simp only [InRange, minWall, maxWall, shanghaiOffset] at *
      omega
    have hresolve : resolveFollowupPreview P (scheduleInForce P call).1
        (previewOf P stage t (low + drawn)) = .ok r := by
      rw [resolve_previewOf P (scheduleInForce P call).1 stage hin hjitter, if_pos hhere, hr]
    obtain ⟨windows, -, hwindows, -⟩ := h.stages stage
    refine ⟨jobRow call candidate stage (scheduleInForce P call).1 (scheduleInForce P call).2 windows
      r t (due - shanghaiOffset) (t + dayMicros), ?_, low, high, r, h.jitter, rfl, hresolve, rfl, rfl⟩
    rw [stageCandidate_of_resolved h hwindows ht.symm hin hresolve, dueOf_some hanswer.1 hduein,
      checked, if_pos hutc, checked, if_pos hlatest]
    rfl

end Staging

/-! ### Accepted summaries -/

/-- The result is staged, and the job of its message, where the call has none of its kind yet, follows
the resolver. -/
def Storable (P : Platform) (existing : Text → Option StagedJob) (call : Call)
    (result : SummaryResult) (level drawn : ℤ) : Prop :=
  ∃ staged, stageResult P existing call result (some level) drawn = .ok staged ∧
    staged.fields = result.callFields ∧
    ∀ candidate, result.followup = some candidate → existing candidate.contentType = none →
      ∃ job stage, staged.job = some job ∧ RelationshipStage.ofLevel level = some stage ∧
        Follows P call candidate stage drawn job

/-- The message of the result has room in the calendar, if its job is still to be made. -/
def HasRoom (P : Platform) (existing : Text → Option StagedJob) (call : Call)
    (result : SummaryResult) (level : ℤ) : Prop :=
  ∀ candidate, result.followup = some candidate → existing candidate.contentType = none →
    ∀ stage, RelationshipStage.ofLevel level = some stage →
      Roomy (dailyWindows P (scheduleInForce P call).1 stage) (candidateAt call candidate)

theorem storable_iff {P : Platform} (hdigits : ReadsDigits P) {existing : Text → Option StagedJob}
    {call : Call} {result : SummaryResult}
    (hdelay : ∀ candidate, result.followup = some candidate → 0 ≤ candidate.delayMinutes)
    {level drawn : ℤ} (hlevel : 0 ≤ level ∧ level ≤ 3) (hdrawn : Drawn P call drawn) :
    Storable P existing call result level drawn ↔ HasRoom P existing call result level := by
  obtain ⟨stage, hstage⟩ : ∃ stage, RelationshipStage.ofLevel level = some stage := by
    obtain rfl | rfl | rfl | rfl : level = 0 ∨ level = 1 ∨ level = 2 ∨ level = 3 := by omega
    all_goals exact ⟨_, rfl⟩
  unfold Storable HasRoom stageResult
  cases hfollowup : result.followup with
  | none => simp [bind, Except.bind]
  | some candidate =>
    simp only [Option.some.injEq, forall_eq']
    unfold stageSummaryFollowup
    cases hexisting : existing candidate.contentType with
    | some job => simp [bind, Except.bind, Except.map]
    | none =>
      have hiff := @stageFollowup_iff P call candidate stage hdigits (hdelay candidate hfollowup) _ _
        hstage hdrawn
      constructor
      · rintro ⟨staged, hstaged, -, hjob⟩ - stage' hstage'
        obtain rfl : stage = stage' := Option.some.inj (hstage.symm.trans hstage')
        obtain ⟨job, stage'', hjob', hstage'', hfollows⟩ := hjob rfl
        obtain rfl : stage = stage'' := Option.some.inj (hstage.symm.trans hstage'')
        refine hiff.mp ⟨job, ?_, hfollows⟩
        cases hresult : stageFollowup P call candidate (some level) false none drawn with
        | error e =>
          rw [hresult] at hstaged
          cases hstaged
        | ok job₀ =>
          rw [hresult] at hstaged
          obtain rfl := Except.ok.inj hstaged
          rw [Option.some.inj hjob']
      · intro hroom
        obtain ⟨job, hjob, hfollows⟩ := hiff.mpr (hroom rfl stage hstage)
        refine ⟨⟨some job, result.callFields⟩, ?_, rfl, fun _ => ⟨job, stage, rfl, hstage, hfollows⟩⟩
        rw [hjob]
        rfl

/-- A summary's text raises nothing but `ValueError` exactly if it is readable, and what is accepted can
be stored exactly if its message has room in the calendar. -/
theorem summary_storable_iff (P : Platform) (hdigits : ReadsDigits P)
    (loads : Text → Except LoadError Json) (raw : Text) :
    ((∀ e, parseSummary loads raw = .error e → e = .valueError) ↔ Readable loads raw) ∧
    ∀ result, parseSummary loads raw = .ok result →
      ∀ (existing : Text → Option StagedJob) (call : Call) (level drawn : ℤ),
        0 ≤ level ∧ level ≤ 3 → Drawn P call drawn →
        (Storable P existing call result level drawn ↔ HasRoom P existing call result level) :=
  ⟨parseSummary_refuses_iff loads raw, fun _ hresult _ _ _ _ hlevel hdrawn =>
    storable_iff hdigits (fun _ hcandidate => parseSummary_delay hresult hcandidate) hlevel hdrawn⟩

/-! ### An answer -/

/-- An answer that asks for a message after this many minutes, of this kind. -/
def sampleAnswer (minutes : ℤ) (kind : Json) : Json :=
  .obj [("call_summary".toList, .str "聊了散步".toList),
    ("unfinished_topics".toList, .arr [.str "散步".toList]),
    ("user_emotion".toList, .str "平静".toList), ("assistant_emotion".toList, .str "温柔".toList),
    ("should_send_followup".toList, .bool true), ("followup_delay_minutes".toList, .int minutes),
    ("followup_content".toList, .str "散步怎么样了？".toList), ("content_type".toList, kind)]

def answerText (minutes kind : String) : Text :=
  ("\x7b\"call_summary\": \"聊了散步\", \"unfinished_topics\": [\"散步\"], \"user_emotion\": \"平静\", " ++
    "\"assistant_emotion\": \"温柔\", \"should_send_followup\": true, \"followup_delay_minutes\": " ++
    minutes ++ ", \"followup_content\": \"散步怎么样了？\", \"content_type\": " ++ kind ++ "\x7d").toList

/-- What `json.loads` makes of three such answers. -/
def sampleLoads (raw : Text) : Except LoadError Json :=
  if raw = answerText "60" "\"topic_continuation\"" then
    .ok (sampleAnswer 60 (.str "topic_continuation".toList))
  else if raw = answerText "9999999999999" "\"topic_continuation\"" then
    .ok (sampleAnswer 9999999999999 (.str "topic_continuation".toList))
  else if raw = answerText "60" "[]" then .ok (sampleAnswer 60 (.arr []))
  else .error .valueError

theorem sampleLoads_hour : sampleLoads (answerText "60" "\"topic_continuation\"") =
    .ok (sampleAnswer 60 (.str "topic_continuation".toList)) := if_pos rfl

/-- Answers differ in the first letter of the minutes or of the kind. -/
theorem answerText_ne {minutes minutes' kind kind' : String} {a b : Char} {s t : Text}
    (h : minutes.toList = a :: s ∧ minutes'.toList = b :: t ∨
      minutes = minutes' ∧ kind.toList = a :: s ∧ kind'.toList = b :: t) (hne : a ≠ b) :
    answerText minutes kind ≠ answerText minutes' kind' := by
  intro hsame
  simp only [answerText, String.toList_append, List.append_assoc, List.append_cancel_left_eq] at hsame
  rcases h with ⟨hm, hm'⟩ | ⟨rfl, hk, hk'⟩
  · rw [hm, hm', List.cons_append, List.cons_append] at hsame
    exact hne (List.cons.inj hsame).1
  · rw [List.append_cancel_left_eq, List.append_cancel_left_eq, hk, hk', List.cons_append,
      List.cons_append] at hsame
    exact hne (List.cons.inj hsame).1

theorem sampleLoads_far : sampleLoads (answerText "9999999999999" "\"topic_continuation\"") =
    .ok (sampleAnswer 9999999999999 (.str "topic_continuation".toList)) := by
  rw [sampleLoads, if_neg (answerText_ne (.inl ⟨rfl, rfl⟩) (by decide)), if_pos rfl]

theorem sampleLoads_list : sampleLoads (answerText "60" "[]") = .ok (sampleAnswer 60 (.arr [])) := by
  rw [sampleLoads, if_neg (answerText_ne (.inr ⟨rfl, rfl, rfl⟩) (by decide)),
    if_neg (answerText_ne (.inl ⟨rfl, rfl⟩) (by decide)), if_pos rfl]

def sampleCall : Call := ⟨"c1".toList, 7, ⟨1772415000000000, by decide⟩, .null⟩

theorem sample_digits : ReadsDigits samplePlatform := fun _ hc => if_pos hc

theorem sampleCall_drawn : Drawn samplePlatform sampleCall 7 := by
  intro low high hrange
  have hdefault : jitterRange (scheduleInForce samplePlatform sampleCall).1 = some (0, 20) := by
    decide
  obtain ⟨rfl, rfl⟩ := Prod.mk.inj (Option.some.inj (hdefault.symm.trans hrange))
  decide

/-- A message an hour after a call is stored with its summary. -/
theorem summary_storable_hour : ∃ result,
    parseSummary sampleLoads (answerText "60" "\"topic_continuation\"") = .ok result ∧
      Storable samplePlatform (fun _ => none) sampleCall result 1 7 := by
  have hparse : parseSummary sampleLoads (answerText "60" "\"topic_continuation\"") =
      .ok ⟨"聊了散步".toList, ["散步".toList], "平静".toList, "温柔".toList, none,
        some ⟨"topic_continuation".toList, "散步怎么样了？".toList, 60⟩⟩ := by
    rw [parseSummary, sampleLoads_hour]
    decide
  refine ⟨_, hparse, ((summary_storable_iff samplePlatform sample_digits sampleLoads _).2 _ hparse
    (fun _ => none) sampleCall 1 7 (by decide) sampleCall_drawn).mpr ?_⟩
  intro candidate hcandidate _ stage _
  obtain rfl := Option.some.inj hcandidate
  exact ⟨by decide, .inr (by decide)⟩

def farMessage : Candidate := ⟨"topic_continuation".toList, "散步怎么样了？".toList, 9999999999999⟩

/-- A message after ten million million minutes loses its summary, and a kind that is a list raises
what is no `ValueError`. -/
theorem summary_lost :
    (∃ result, parseSummary sampleLoads (answerText "9999999999999" "\"topic_continuation\"") =
        .ok result ∧
      stageResult samplePlatform (fun _ => none) sampleCall result (some 1) 7 = .error .overflowError) ∧
    parseSummary sampleLoads (answerText "60" "[]") = .error .typeError := by
  have hparse : parseSummary sampleLoads (answerText "9999999999999" "\"topic_continuation\"") =
      .ok ⟨"聊了散步".toList, ["散步".toList], "平静".toList, "温柔".toList, none, some farMessage⟩ := by
    rw [parseSummary, sampleLoads_far]
    decide
  refine ⟨⟨_, hparse, ?_⟩, by rw [parseSummary, sampleLoads_list]; decide⟩
  obtain ⟨low, high, h⟩ := inForce_accepted sample_digits sampleCall
  have hbeyond : ¬InRange (candidateAt sampleCall farMessage) := by decide
  have hover : stageCandidate samplePlatform sampleCall farMessage .friend
      (scheduleInForce samplePlatform sampleCall).1 (scheduleInForce samplePlatform sampleCall).2
      (low + 7) = .error .overflowError := stageCandidate_overflow rfl hbeyond
  have hlevel : RelationshipStage.ofLevel 1 = some .friend := rfl
  have hstaged : stageFollowup samplePlatform sampleCall farMessage (some 1) false none 7 =
      .error .overflowError := (stageFollowup_inForce h hlevel sampleCall_drawn).trans hover
  simp only [stageResult, stageSummaryFollowup, hstaged]
  rfl

end CompanionBackend.SummaryResults
