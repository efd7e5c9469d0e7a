import CompanionBackend.CapabilityEvidence
import CompanionBackend.FollowupJobs

/-!
# Schedules of follow-up messages

A schedule has windows for each stage of a relationship, in minutes of Shanghai time. The moment of
a message is resolved when its job is staged, with a jitter behind an opening, and its worker
looks for a window of its own accord when the message is due. A datetime
beyond the calendar raises. Instants are microseconds; Shanghai is eight hours ahead of UTC.
-/
namespace CompanionBackend.FollowupSchedules

open Runs ProviderEvents Dictionaries CapabilityRules
open CapabilityEvidence (PyDatetime replaceZ exactDict)
open FollowupJobs (Service clockMinutes dayMicros shanghaiOffset)

abbrev Instant := ℤ

def minuteMicros : ℤ := 60000000

/-- `datetime.min` and `datetime.max`. -/
def minWall : ℤ := -62135596800000000
def maxWall : ℤ := 253402300799999999

/-- A reading of a clock that `datetime` can hold. -/
def InRange (wall : ℤ) : Prop := minWall ≤ wall ∧ wall ≤ maxWall

instance (wall : ℤ) : Decidable (InRange wall) := inferInstanceAs (Decidable (_ ∧ _))

/-- A naive `datetime`. -/
abbrev Naive := {wall : ℤ // InRange wall}

/-- What the code uses of its platform. The texts that `isoformat` writes are read back as they
were. -/
structure Platform where
  service : Service
  fromisoformat : Text → Option PyDatetime
  isoformat : PyDatetime → Text
  /-- `str(value)` of the version of a configuration. -/
  str : Json → Text
  decimal_lt : ∀ {c n}, service.decimal c = some n → n < 10
  read_back : ∀ {wall : ℤ} (offset : ℤ), InRange wall →
    fromisoformat (isoformat ⟨wall, some offset⟩) = some ⟨wall, some offset⟩
  plain : ∀ t, 'Z' ∉ isoformat t

inductive RelationshipStage
  | stranger | friend | intimate | soulmate
  deriving DecidableEq, Repr

namespace RelationshipStage

/-- `RELATIONSHIP_STAGES`. -/
def all : List RelationshipStage := [stranger, friend, intimate, soulmate]

def name : RelationshipStage → String
  | stranger => "stranger"
  | friend => "friend"
  | intimate => "intimate"
  | soulmate => "soulmate"

@[simp] theorem mem_all (s : RelationshipStage) : s ∈ all := by
  cases s <;> simp [all]

/-- `STAGES`, by the level of the relationship. -/
def ofLevel : ℤ → Option RelationshipStage
  | 0 => some stranger
  | 1 => some friend
  | 2 => some intimate
  | 3 => some soulmate
  | _ => none

end RelationshipStage

/-! ### Accepting a schedule -/

/-- `_window_minutes`. -/
def windowMinutes (P : Platform) : Json → Option ℕ
  | .str text => clockMinutes P.service text
  | _ => none

def rangeIssue (field message : String) (allowed : Json) : Issue :=
  ⟨.windowRangeInvalid, field, message, allowed⟩

def scheduleFields : List String :=
  ["jitter_max_minutes", "jitter_min_minutes", "max_delay_hours", "stages", "timezone"]

/-- A window of a stage whose minutes were read, with its place in the list. -/
abbrev Normalized := ℕ × ℕ × ℕ

/-- Tuples are compared from the left. -/
def Normalized.le (a b : Normalized) : Bool :=
  decide (a.1 < b.1) || (decide (a.1 = b.1) &&
    (decide (a.2.1 < b.2.1) || (decide (a.2.1 = b.2.1) && decide (a.2.2 ≤ b.2.2))))

/-- One turn of the loop over the windows of a stage. -/
def checkWindow (P : Platform) (jitterMax : Json) (field : String) (window : Json) (index : ℕ) :
    List Issue × Option Normalized :=
  if exactDict window ["start", "end"] then
    match windowMinutes P (window.field "start"), windowMinutes P (window.field "end") with
    | some start, some stop =>
      if stop ≤ start then
        ([rangeIssue field "窗口必须为 HH:mm、start < end 且不跨日" .null], none)
      else
        ((match jitterMax with
          | .int j =>
            if (stop : ℤ) - start ≤ j then
              [⟨.windowTooShortForJitter, field, "窗口时长必须严格大于 jitter_max_minutes",
                .obj [("strictly_greater_than_minutes".toList, .int j)]⟩]
            else []
          | _ => []), some (start, stop, index))
    | _, _ => ([rangeIssue field "窗口必须为 HH:mm、start < end 且不跨日" .null], none)
  else ([rangeIssue field "窗口只接受 start/end 分钟精度字段" .null], none)

def checkWindows (P : Platform) (jitterMax : Json) (field : String) (windows : List Json) :
    List (List Issue × Option Normalized) :=
  windows.zipIdx.map fun e =>
    checkWindow P jitterMax (field ++ "[" ++ toString e.2 ++ "]") e.1 e.2

/-- Two windows next to each other in the order of their starts. -/
def overlapping : List Normalized → Bool
  | a :: b :: rest => decide (b.1 < a.2.1) || overlapping (b :: rest)
  | _ => false

def stageIssues (P : Platform) (jitterMax stages : Json) (stage : RelationshipStage) : List Issue :=
  let value := stages.field stage.name
  let path := "followup.schedule.stages." ++ stage.name
  let field := path ++ ".windows"
  (match value with
    | .obj fields => (unknownKeys fields ["windows"]).map fun key =>
        rangeIssue (path ++ "." ++ String.ofList key) "关系阶段只接受 windows 字段" .null
    | _ => []) ++
  match value.field "windows" with
  | .arr (window :: windows) =>
    let checked := checkWindows P jitterMax field (window :: windows)
    let normalized := (checked.filterMap Prod.snd).insertionSort fun a b => Normalized.le a b = true
    checked.flatMap Prod.fst ++
      if overlapping normalized then
        [⟨.windowOverlap, field, "同一关系阶段窗口不得重叠；首尾相邻合法", .null⟩]
      else []
  | _ => [rangeIssue field "每个关系阶段必须配置非空 windows" .null]

/-- `jitter` of a schedule: the least and the greatest number of minutes. -/
def jitterRange (schedule : Json) : Option (ℤ × ℤ) :=
  match schedule.field "jitter_min_minutes", schedule.field "jitter_max_minutes" with
  | .int low, .int high => if 0 ≤ low ∧ low ≤ high ∧ high ≤ 20 then some (low, high) else none
  | _, _ => none

def validateFollowupSchedule (P : Platform) (schedule : Json) : List Issue :=
  match schedule with
  | .obj fields =>
    let stages := schedule.field "stages"
    ((scheduleFields.filter fun key => !schedule.has key).map fun key =>
        rangeIssue ("followup.schedule." ++ key) "缺少必填字段" .null) ++
    ((unknownKeys fields scheduleFields).map fun key =>
        rangeIssue ("followup.schedule." ++ String.ofList key) "窗口 schema 不接受该字段" .null) ++
    (if (schedule.field "timezone").isStr "Asia/Shanghai" then []
      else [rangeIssue "followup.schedule.timezone" "本期只允许 Asia/Shanghai"
        (.arr [.str "Asia/Shanghai".toList])]) ++
    (if (jitterRange schedule).isSome then []
      else [rangeIssue "followup.schedule.jitter" "jitter 必须满足 0 <= min <= max <= 20"
        (.obj [("min".toList, .int 0), ("max".toList, .int 20)])]) ++
    (match schedule.field "max_delay_hours" with
      | .int 24 => []
      | _ => [rangeIssue "followup.schedule.max_delay_hours" "最大顺延必须为 24 小时"
          (.arr [.int 24])]) ++
    match stages with
    | .obj stageFields =>
      (RelationshipStage.all.flatMap fun stage =>
        stageIssues P (schedule.field "jitter_max_minutes") stages stage) ++
      (unknownKeys stageFields (RelationshipStage.all.map RelationshipStage.name)).map fun stage =>
        rangeIssue ("followup.schedule.stages." ++ String.ofList stage) "未知关系阶段"
          (.arr (RelationshipStage.all.map fun s => .str s.name.toList))
    | _ => [rangeIssue "followup.schedule.stages" "stages 必须包含四个关系阶段" .null]
  | _ => [rangeIssue "followup.schedule" "followup.schedule 必须是对象" .null]

def windowDocument (start stop : String) : Json :=
  .obj [("start".toList, .str start.toList), ("end".toList, .str stop.toList)]

/-- One window for each stage. -/
def stageDocument (start stop : String) : Json :=
  .obj [("windows".toList, .arr [windowDocument start stop])]

/-- `DEFAULT_FOLLOWUP_SCHEDULE`. -/
def defaultFollowupSchedule : Json :=
  .obj [("timezone".toList, .str "Asia/Shanghai".toList), ("jitter_min_minutes".toList, .int 0),
    ("jitter_max_minutes".toList, .int 20), ("max_delay_hours".toList, .int 24),
    ("stages".toList, .obj [("stranger".toList, stageDocument "10:00" "21:00"),
      ("friend".toList, stageDocument "09:30" "22:00"),
      ("intimate".toList, stageDocument "09:00" "22:30"),
      ("soulmate".toList, stageDocument "09:00" "23:00")])]

/-! ### Resolving the moment of a message -/

/-- What ends a call of these functions. A schedule of another shape raises one of the language's
own errors: callers have checked it. -/
inductive Raised
  | voiceConfigError (code message field detail : String)
  | valueError (text : String)
  | overflowError
  | shapeError
  deriving DecidableEq

/-- The result of datetime arithmetic. -/
def checked (wall : ℤ) : Except Raised ℤ :=
  if InRange wall then .ok wall else .error .overflowError

/-- A day of the calendar, by its number. -/
def checkedDay (day : ℤ) : Except Raised ℤ :=
  if InRange (day * dayMicros) then .ok day else .error .overflowError

/-- `parsed.astimezone(_SHANGHAI)`, by way of UTC. -/
def toShanghai (wall offset : ℤ) : Except Raised ℤ := do
  let utc ← checked (wall - offset)
  checked (utc + shanghaiOffset)

/-- A preview whose form is right. Its candidate has an offset from UTC. -/
structure PreviewInput where
  stage : RelationshipStage
  candidateText : Text
  wall : ℤ
  offset : ℤ
  jitter : ℤ
  deriving DecidableEq

/-- The checks of `_validate_preview_input`. -/
def readPreview (P : Platform) (value : Json) : Option PreviewInput :=
  if exactDict value ["stage", "candidate_at", "jitter_minutes"] then
    match RelationshipStage.all.find? fun s => (value.field "stage").isStr s.name,
      value.field "jitter_minutes", value.field "candidate_at" with
    | some stage, .int jitter, .str text =>
      if 0 ≤ jitter ∧ jitter ≤ 20 then
        match P.fromisoformat (replaceZ text) with
        | some ⟨wall, some offset⟩ => some ⟨stage, text, wall, offset, jitter⟩
        | _ => none
      else none
    | _, _, _ => none
  else none

/-- `_validate_preview_input`: what was read, and the candidate in Shanghai. -/
def validatePreviewInput (P : Platform) (value : Json) :
    Except Raised (Option (PreviewInput × ℤ)) :=
  match readPreview P value with
  | some input => do
    let candidate ← toShanghai input.wall input.offset
    .ok (some (input, candidate))
  | none => .ok none

inductive Outcome
  | inWindow | nextWindow | cancelled
  deriving DecidableEq, Repr

/-- The answer to a preview. Datetimes stand as what they are in Shanghai. -/
structure Resolution where
  stage : RelationshipStage
  candidateAt : Text
  resolution : Outcome
  inWindow : Bool
  resolvedWindow : Option (ℤ × ℤ)
  jitterAppliedMinutes : ℤ
  resolvedDueAt : Option ℤ
  delaySeconds : Option ℤ
  cancelReason : Option String
  deriving DecidableEq

/-- `value[key]`. -/
def item (value : Json) (key : String) : Except Raised Json :=
  match value.get key with
  | some v => .ok v
  | none => .error .shapeError

def readWindow (P : Platform) (window : Json) : Except Raised (ℕ × ℕ) := do
  let start ← item window "start"
  let stop ← item window "end"
  match windowMinutes P start, windowMinutes P stop with
  | some s, some e => .ok (s, e)
  | _, _ => .error .shapeError

/-- `schedule["stages"][stage]["windows"]`. -/
def stageWindows (schedule : Json) (stage : RelationshipStage) : Except Raised (List Json) := do
  let stages ← item schedule "stages"
  let entry ← item stages stage.name
  match ← item entry "windows" with
  | .arr windows => .ok windows
  | _ => .error .shapeError

def pairLe (a b : ℕ × ℕ) : Bool := decide (a.1 < b.1) || (decide (a.1 = b.1) && decide (a.2 ≤ b.2))

/-- `bounds(day, start_minute, end_minute)`: the minutes of a day stay in the calendar. -/
def bounds (day : ℤ) (window : ℕ × ℕ) : ℤ × ℤ :=
  (day * dayMicros + window.1 * minuteMicros, day * dayMicros + window.2 * minuteMicros)

/-- The windows of three days that begin after the candidate. -/
def futureWindows (normalized : List (ℕ × ℕ)) (candidate : ℤ) : Except Raised (List (ℤ × ℤ)) := do
  let days ← ([0, 1, 2] : List ℤ).mapM fun offset => checkedDay (candidate / dayMicros + offset)
  .ok ((days.flatMap fun day => normalized.map (bounds day)).filter fun w => candidate < w.1)

/-- `followup_delay_within_limit`. -/
def followupDelayWithinLimit (candidate due hours : ℤ) : Bool :=
  decide (due - candidate ≤ hours * (60 * minuteMicros))

/-- `schedule["max_delay_hours"]`, an integer. -/
def maxDelayHours (schedule : Json) : Except Raised ℤ := do
  match ← item schedule "max_delay_hours" with
  | .int hours => .ok hours
  | _ => .error .shapeError

/-- `resolve_followup_preview`, for an input that was read. -/
def resolveCandidate (P : Platform) (schedule : Json) (input : PreviewInput) (candidate : ℤ) :
    Except Raised Resolution := do
  let windows ← stageWindows schedule input.stage
  let minutes ← windows.mapM (readWindow P)
  let normalized := minutes.insertionSort fun a b => pairLe a b = true
  match (normalized.map (bounds (candidate / dayMicros))).find? fun w =>
      decide (w.1 ≤ candidate ∧ candidate < w.2) with
  | some window =>
    .ok ⟨input.stage, input.candidateText, .inWindow, true, some window, 0, some candidate, some 0,
      none⟩
  | none =>
    let future ← futureWindows normalized candidate
    match future.insertionSort fun a b => a.1 ≤ b.1 with
    | window :: _ =>
      let due ← checked (window.1 + input.jitter * minuteMicros)
      let delay := (due - candidate) / 1000000
      if followupDelayWithinLimit candidate due (← maxDelayHours schedule) then
        .ok ⟨input.stage, input.candidateText, .nextWindow, false, some window, input.jitter,
          some due, some delay, none⟩
      else
        .ok ⟨input.stage, input.candidateText, .cancelled, false, some window, input.jitter, none,
          some delay, some "max_delay_exceeded"⟩
    | [] =>
      .ok ⟨input.stage, input.candidateText, .cancelled, false, none, input.jitter, none, none,
        some "max_delay_exceeded"⟩

/-- The `VoiceConfigError` for a preview whose form is wrong. -/
def previewInvalid : Raised :=
  .voiceConfigError "FOLLOWUP_PREVIEW_INPUT_INVALID" "follow-up 预览输入不合法" "followup_preview"
    "stage、带时区 candidate_at 或 0–20 整数 jitter_minutes 不合法"

def resolveFollowupPreview (P : Platform) (schedule preview : Json) : Except Raised Resolution := do
  match ← validatePreviewInput P preview with
  | none => .error previewInvalid
  | some (input, candidate) => resolveCandidate P schedule input candidate

/-! ### Staging and dispatching a job -/

structure Call where
  callId : Ident
  userId : ℕ
  endedAt : Naive
  configSnapshot : Json

structure Candidate where
  contentType : Text
  content : Text
  delayMinutes : ℤ

/-- A row of the follow-up jobs, as it is staged. -/
structure StagedJob where
  callId : Ident
  userId : ℕ
  candidateDueAt : Instant
  dueAt : Instant
  latestDueAt : Instant
  content : Text
  contentType : Text
  pending : Bool
  cancelReason : Option String
  relationshipStageSnapshot : RelationshipStage
  scheduleConfigVersion : Text
  timezoneSnapshot : Json
  allowedWindowSnapshot : List Json
  jitterMinutes : ℤ

/-- The level of the relationship, where there is one. -/
def stageOf (level : Option ℤ) (allowNewRelationship : Bool) : Except Raised RelationshipStage :=
  match level with
  | none =>
    if allowNewRelationship then .ok .stranger
    else .error (.valueError "summary_relationship_snapshot_missing")
  | some l => orRaise (RelationshipStage.ofLevel l)
      (.valueError "summary_relationship_snapshot_missing")

/-- `resolved_config.followup.schedule` of the call. -/
def scheduleOf (call : Call) : Json :=
  ((call.configSnapshot.field "resolved_config").field "followup").field "schedule"

/-- The schedule in force: the call's own where it is accepted. -/
def scheduleInForce (P : Platform) (call : Call) : Json × Text :=
  if (validateFollowupSchedule P (scheduleOf call)).isEmpty then
    (scheduleOf call, P.str ((call.configSnapshot.get "config_version").getD
      (.str "code-default".toList)))
  else (defaultFollowupSchedule, "code-default".toList)

/-- `timedelta(minutes=…)`, which holds less than a thousand million days. -/
def minutesDelta (minutes : ℤ) : Except Raised ℤ :=
  if -999999999 * dayMicros ≤ minutes * minuteMicros ∧
      minutes * minuteMicros < 1000000000 * dayMicros then
    .ok (minutes * minuteMicros)
  else .error .overflowError

/-- `dict(stage=…, candidate_at=…, jitter_minutes=…)`. -/
def previewOf (P : Platform) (stage : RelationshipStage) (candidate jitter : ℤ) : Json :=
  .obj [("stage".toList, .str stage.name.toList),
    ("candidate_at".toList, .str (P.isoformat ⟨candidate, some 0⟩)),
    ("jitter_minutes".toList, .int jitter)]

/-- The moment of the job: what was resolved is read back and taken to UTC. -/
def dueOf (P : Platform) (candidate : ℤ) (resolution : Resolution) : Except Raised ℤ :=
  match resolution.resolvedDueAt with
  | some due =>
    match P.fromisoformat (P.isoformat ⟨due, some shanghaiOffset⟩) with
    | some t => checked (t.wall - t.utcoffset.getD 0)
    | none => .error (.valueError "Invalid isoformat string")
  | none => .ok candidate

/-- The row that is added. -/
def jobRow (call : Call) (candidate : Candidate) (stage : RelationshipStage)
    (schedule : Json) (version : Text) (windows : List Json) (resolution : Resolution)
    (candidateAt due latest : Instant) : StagedJob where
  callId := call.callId
  userId := call.userId
  candidateDueAt := candidateAt
  dueAt := due
  latestDueAt := latest
  content := candidate.content
  contentType := candidate.contentType
  pending := resolution.cancelReason.isNone
  cancelReason := resolution.cancelReason
  relationshipStageSnapshot := stage
  scheduleConfigVersion := version
  timezoneSnapshot := schedule.field "timezone"
  allowedWindowSnapshot := windows
  jitterMinutes := resolution.jitterAppliedMinutes

/-- The part of `_stage_followup` behind the choice of the jitter. -/
def stageCandidate (P : Platform) (call : Call) (candidate : Candidate) (stage : RelationshipStage)
    (schedule : Json) (version : Text) (jitter : ℤ) : Except Raised StagedJob := do
  let delta ← minutesDelta candidate.delayMinutes
  let candidateAt ← checked (call.endedAt.1 + delta)
  let resolution ← resolveFollowupPreview P schedule (previewOf P stage candidateAt jitter)
  let due ← dueOf P candidateAt resolution
  let hours ← maxDelayHours schedule
  let latest ← checked (candidateAt + hours * (60 * minuteMicros))
  let windows ← stageWindows schedule stage
  .ok (jobRow call candidate stage schedule version windows resolution candidateAt due latest)

/-- `_stage_followup`, where the call has no job of this kind yet; `drawn` is what `randbelow` gives
if no jitter is asked for. -/
def stageFollowup (P : Platform) (call : Call) (candidate : Candidate) (level : Option ℤ)
    (allowNewRelationship : Bool) (jitterMinutes : Option ℤ) (drawn : ℤ) :
    Except Raised StagedJob := do
  let stage ← stageOf level allowNewRelationship
  let (schedule, version) := scheduleInForce P call
  match jitterRange schedule with
  | none => .error .shapeError
  | some (minimum, maximum) =>
    let jitter := jitterMinutes.getD (minimum + drawn)
    if jitter < minimum ∨ maximum < jitter then
      .error (.valueError "summary_followup_jitter_out_of_range")
    else stageCandidate P call candidate stage schedule version jitter

/-- The opening of today that is ahead, or tomorrow's. -/
def nextOf (here opening : ℤ) : Except Raised ℤ :=
  if here < opening then .ok opening else checked (opening + dayMicros)

/-- The loop of `_next_window` for a reading of the clock in Shanghai, within the calendar. -/
def nextWindowLoop (P : Platform) (here : ℤ) : List Json → List ℤ → Except Raised (Option Instant)
  | [], future => orRaise (future.min?.map some) (.valueError "min() arg is an empty sequence")
  | window :: windows, future =>
    match FollowupJobs.windowBounds P.service window with
    | none => .error (.valueError "invalid_window_snapshot")
    | some (start, stop) =>
      let midnight := here - here % dayMicros
      let opening := midnight + start * minuteMicros
      if opening ≤ here ∧ here < midnight + stop * minuteMicros then .ok none
      else do
        let next ← nextOf here opening
        let utc ← checked (next - shanghaiOffset)
        nextWindowLoop P here windows (future ++ [utc])

/-- `_next_window`, of a zone, windows and a naive datetime. -/
def nextWindow (P : Platform) (zone : Json) (windows : List Json) (now : Instant) :
    Except Raised (Option Instant) :=
  if zone.isStr "Asia/Shanghai" = true ∧ windows ≠ [] then do
    let here ← checked (now + shanghaiOffset)
    nextWindowLoop P here windows []
  else .error (.valueError "invalid_window_snapshot")

end CompanionBackend.FollowupSchedules
