import Mathlib.Data.List.Basic
import CompanionBackend.CapabilityEvidence
import CompanionBackend.TaskSystems

/-!
# The life planner

A run of `generate_week_outline` asks a model for the days of a week and stores them in one
transaction. A run of `generate_daily_scenes` looks whether the plan of its date is ready, asks a
model for scenes and then writes the row of the date, found or new. Runs begin at any time, and each
of their queries and commits is a step. Dates are ordinals; prompts and the rhythm of a month are
left out.
-/
namespace CompanionBackend.LifePlanner

open Runs TaskSystems ProviderEvents Dictionaries
open CapabilityEvidence (strip)

/-- What the language does to texts: `json.loads`, `str` of a value that is no string,
`strptime(.., "%Y-%m-%d")`, `isoformat` of a date, and the digits that `\d` matches. -/
structure Formats where
  loads : Text → Option Json
  repr : Json → Text
  strptime : Text → Option ℕ
  isoformat : ℕ → Text
  decimal : Char → Option ℕ

/-! ### What the model answers -/

inductive PlannerError
  | emptyText | invalidJson | notObject
  | missingDays
  | daysCount (found : ℕ) (wanted : ℤ)
  | dayNotObject (i : ℕ)
  | dayDate (i : ℕ) (text : Text)
  | dayCity (i : ℕ)
  | dayCategories (i : ℕ)
  | dayCategory (i : ℕ) (category : Text)
  | dayOrder (i found wanted : ℕ)
  /-- Anything the model, the prompts, the settings or the database raise. -/
  | other
  deriving DecidableEq, Repr

inductive SceneError
  | missingScenes
  | sceneCount (n : ℕ)
  | notObject (i : ℕ)
  | timeFormat (i : ℕ) (timeRange : Text)
  | invalidTime (hh mm : ℕ)
  | timeOrder (i : ℕ)
  | timeBounds (i : ℕ)
  | cityMismatch (i : ℕ) (city outline : Text)
  | categoryUnknown (i : ℕ) (category : Text)
  | venueEmpty (i : ℕ)
  | descriptionShort (i length : ℕ)
  deriving DecidableEq, Repr

def fence : Text := List.replicate 3 (Char.ofNat 96)

/-- `_strip_markdown_fence`. -/
def stripMarkdownFence (text : Text) : Text :=
  let stripped := strip text
  let stripped := if fence.isPrefixOf stripped then strip ((stripped.drop 3).dropWhile Char.isAlpha)
    else stripped
  if fence.isSuffixOf stripped then strip (stripped.take (stripped.length - 3)) else stripped

/-- `_parse_llm_json`. -/
def parseLlmJson (F : Formats) (raw : Text) : Except PlannerError Json := do
  let text := stripMarkdownFence raw
  require (text ≠ []) .emptyText
  let data ← orRaise (F.loads text) .invalidJson
  require (data.isObj = true) .notObject
  return data

/-- `str(item.get(key, "")).strip()`. -/
def textField (F : Formats) (item : Json) (key : String) : Text :=
  strip (match item.get key with
    | none => []
    | some (.str t) => t
    | some value => F.repr value)

/-- `[c.strip() for c in text.split("\n") if c.strip()]`. -/
def splitLines (text : Text) : List Text :=
  ((text.splitOn '\n').map strip).filter fun c => !c.isEmpty

/-! ### Week outlines -/

/-- A row of `life_plan_outline`. -/
structure OutlineRow where
  weekStartDate : ℕ
  planDate : ℕ
  city : Text
  categories : Text
  manual : Bool
  deriving DecidableEq, Repr

/-- The arguments of `generate_week_outline`. -/
structure WeekCall where
  daysCount : ℤ
  weekStartDate : ℕ
  isManual : Bool
  planStartDate : ℕ
  deriving DecidableEq, Repr

/-- One of the days: its date, city and categories. -/
def validateDay (F : Formats) (vocab : List Text) (i : ℕ) (item : Json) :
    Except PlannerError (ℕ × Text × Text) := do
  require (item.isObj = true) (.dayNotObject i)
  let date ← orRaise (F.strptime (textField F item "date")) (.dayDate i (textField F item "date"))
  let city := textField F item "city"
  require (city ≠ []) (.dayCity i)
  let categories := textField F item "categories"
  require (categories ≠ []) (.dayCategories i)
  let items := splitLines categories
  require (items ≠ []) (.dayCategories i)
  match items.find? fun c => c ∉ vocab with
  | some c => throw (.dayCategory i c)
  | none => return (date, city, List.intercalate ['\n'] items)

/-- The days have to follow each other from the first one on. -/
def checkDates (planStartDate : ℕ) : ℕ → List (ℕ × Text × Text) → Except PlannerError Unit
  | _, [] => .ok ()
  | i, day :: days => do
    require (day.1 = planStartDate + i) (.dayOrder i day.1 (planStartDate + i))
    checkDates planStartDate (i + 1) days

/-- `_validate_outline`. -/
def validateOutline (F : Formats) (data : Json) (daysCount : ℤ) (planStartDate : ℕ)
    (vocab : List Text) : Except PlannerError (List (ℕ × Text × Text)) :=
  match data.get "days" with
  | some (.arr days) => do
    require ((days.length : ℤ) = daysCount) (.daysCount days.length daysCount)
    let normalized ← days.zipIdx.mapM fun p => validateDay F vocab p.2 p.1
    checkDates planStartDate 0 normalized
    return normalized
  | _ => .error .missingDays

/-- The rows of a week. -/
def WeekCall.rows (c : WeekCall) (days : List (ℕ × Text × Text)) : List OutlineRow :=
  days.map fun day => ⟨c.weekStartDate, day.1, day.2.1, day.2.2, c.isManual⟩

/-! ### Scenes -/

structure Scene where
  sceneId : Text
  timeRange : Text
  city : Text
  category : Text
  venueType : Text
  description : Text
  deriving DecidableEq, Repr

/-- `^(\d{2}):(\d{2})-(\d{2}):(\d{2})$`, with the four numbers. -/
def timeRange (F : Formats) : Text → Option ((ℕ × ℕ) × (ℕ × ℕ))
  | [a, b, ':', c, d, '-', e, f, ':', g, h] => do
    let two := fun (x y : Char) => (F.decimal x).bind fun m => (F.decimal y).map fun n => 10 * m + n
    return ((← two a b, ← two c d), (← two e f, ← two g h))
  | _ => none

/-- `_parse_hhmm`. -/
def parseHhmm (p : ℕ × ℕ) : Except SceneError ℕ := do
  require (p.1 ≤ 23 ∧ p.2 ≤ 59) (.invalidTime p.1 p.2)
  return p.1 * 60 + p.2

/-- `scene_{plan_date}_{seq:03d}`. -/
def sceneId (F : Formats) (planDate seq : ℕ) : Text :=
  "scene_".toList ++ F.isoformat planDate ++ '_' :: (Nat.toDigits 10 seq).leftpad 3 '0'

def validateScene (F : Formats) (planDate : ℕ) (outlineCity : Text) (outlineCategories : List Text)
    (i : ℕ) (item : Json) : Except SceneError Scene := do
  require (item.isObj = true) (.notObject i)
  let range := textField F item "time_range"
  let times ← orRaise (timeRange F range) (.timeFormat i range)
  let start ← parseHhmm times.1
  let stop ← parseHhmm times.2
  require (start < stop) (.timeOrder i)
  require (6 * 60 ≤ start ∧ stop ≤ 20 * 60) (.timeBounds i)
  let city := textField F item "city"
  require (city = outlineCity) (.cityMismatch i city outlineCity)
  let category := textField F item "category"
  require (category ∈ outlineCategories) (.categoryUnknown i category)
  let venueType := textField F item "venue_type"
  require (venueType ≠ []) (.venueEmpty i)
  let description := textField F item "description"
  require (200 ≤ description.length) (.descriptionShort i description.length)
  return ⟨sceneId F planDate (i + 1), range, city, category, venueType, description⟩

/-- `_validate_scenes`. -/
def validateScenes (F : Formats) (data : Json) (planDate : ℕ) (outlineCity : Text)
    (outlineCategories : List Text) : Except SceneError (List Scene) :=
  match data.get "scenes" with
  | some (.arr items) => do
    require (2 ≤ items.length ∧ items.length ≤ 5) (.sceneCount items.length)
    items.zipIdx.mapM fun p => validateScene F planDate outlineCity outlineCategories p.2 p.1
  | _ => .error .missingScenes

/-! ### Runs -/

inductive GenStatus
  | generating | ready | failed
  deriving DecidableEq, Repr

/-- A row of `life_plan`. -/
structure PlanRow where
  planDate : ℕ
  scenes : List Scene
  genStatus : GenStatus
  deriving DecidableEq, Repr

inductive DayReason
  | planner (e : PlannerError)
  | scene (e : SceneError)
  deriving DecidableEq, Repr

inductive DayResult
  | skippedNoOutline
  | skippedReady
  | failed (reason : DayReason)
  | ready (scenes : ℕ)
  deriving DecidableEq, Repr

/-- Where a run of `generate_daily_scenes` stands. -/
inductive DayPhase
  | starting
  | outlined (outline : OutlineRow)
  | asking (outline : OutlineRow)
  | upserting (scenes : List Scene) (status : GenStatus) (result : DayResult)
  /-- The row that the transaction has found, and the columns it is to get. -/
  | saving (found : Option PlanRow) (scenes : List Scene) (status : GenStatus) (result : DayResult)
  | done (result : DayResult)
  | raised
  deriving DecidableEq, Repr

inductive WeekPhase
  | starting
  | asking
  | saving (rows : List OutlineRow)
  | skipped
  | success (rows : List OutlineRow)
  | raised (e : PlannerError)
  deriving DecidableEq, Repr

inductive PlannerTask
  | day (planDate : ℕ) (phase : DayPhase)
  | week (call : WeekCall) (phase : WeekPhase)
  deriving DecidableEq, Repr

/-- The two tables, and the weeks whose transaction has been committed. -/
structure PlannerData where
  plans : List PlanRow
  outlines : List OutlineRow
  weeks : List (WeekCall × List OutlineRow)
  deriving DecidableEq

inductive PlannerInput
  | generateDailyScenes (planDate : ℕ)
  | generateWeekOutline (call : WeekCall)
  /-- The next query. -/
  | read
  /-- What the model has written, unless something has raised; `vocab` is the setting. -/
  | answer (vocab : List Text) (raw : Option Text)
  | commit
  | raise

/-- The scenes of an answer. -/
def dayAnswer (F : Formats) (planDate : ℕ) (outline : OutlineRow) (raw : Option Text) :
    Except DayReason (List Scene) := do
  let raw ← orRaise raw (.planner .other)
  let data ← (parseLlmJson F raw).mapError .planner
  (validateScenes F data planDate outline.city (splitLines outline.categories)).mapError .scene

def dayPhaseOf : Except DayReason (List Scene) → DayPhase
  | .ok scenes => .upserting scenes .ready (.ready scenes.length)
  | .error reason => .upserting [] .failed (.failed reason)

def weekAnswer (F : Formats) (c : WeekCall) (vocab : List Text) (raw : Option Text) :
    Except PlannerError (List OutlineRow) := do
  let raw ← orRaise raw .other
  let data ← parseLlmJson F raw
  let days ← validateOutline F data c.daysCount c.planStartDate vocab
  return c.rows days

def weekPhaseOf : Except PlannerError (List OutlineRow) → WeekPhase
  | .ok rows => .saving rows
  | .error e => .raised e

namespace PlannerData

def planOf (d : PlannerData) (planDate : ℕ) : Option PlanRow :=
  d.plans.find? fun p => p.planDate = planDate

def outlineOf (d : PlannerData) (planDate : ℕ) : Option OutlineRow :=
  d.outlines.find? fun o => o.planDate = planDate

/-- The columns that differ from what the session has read are written. -/
def written (found : PlanRow) (scenes : List Scene) (status : GenStatus) (row : PlanRow) : PlanRow :=
  { row with
    scenes := if scenes = found.scenes then row.scenes else scenes
    genStatus := if status = found.genStatus then row.genStatus else status }

/-- The commit of `_upsert_life_plan`; a second row of a date is refused. -/
def upsert (d : PlannerData) (planDate : ℕ) (found : Option PlanRow) (scenes : List Scene)
    (status : GenStatus) : Option PlannerData :=
  match found with
  | some row =>
    some { d with
      plans := d.plans.map fun p => if p.planDate = planDate then written row scenes status p else p }
  | none =>
    if (d.planOf planDate).isSome then none
    else some { d with plans := d.plans ++ [⟨planDate, scenes, status⟩] }

/-- The commit of a week; a second row of a date is refused, and a text too long for its column. -/
def storeWeek (d : PlannerData) (c : WeekCall) (rows : List OutlineRow) : Option PlannerData :=
  if (∀ row ∈ rows, (d.outlineOf row.planDate).isNone ∧ row.city.length ≤ 50 ∧
      row.categories.length ≤ 200) ∧ (rows.map (·.planDate)).Nodup then
    some { d with outlines := d.outlines ++ rows, weeks := d.weeks ++ [(c, rows)] }
  else none

end PlannerData

/-- `generate_daily_scenes` and `generate_week_outline`, one await after the other. -/
def advancePlanner (F : Formats) (d : PlannerData) : PlannerTask → PlannerInput →
    Option (PlannerData × PlannerTask)
  | .day date .starting, .read =>
    some (d, .day date (match d.outlineOf date with
      | none => .done .skippedNoOutline
      | some outline => .outlined outline))
  | .day date (.outlined outline), .read =>
    some (d, .day date (if (d.planOf date).any fun p => p.genStatus = .ready then .done .skippedReady
      else .asking outline))
  | .day date (.asking outline), .answer _ raw =>
    some (d, .day date (dayPhaseOf (dayAnswer F date outline raw)))
  | .day date (.upserting scenes status result), .read =>
    some (d, .day date (.saving (d.planOf date) scenes status result))
  | .day date (.saving found scenes status result), .commit =>
    match d.upsert date found scenes status with
    | some d => some (d, .day date (.done result))
    | none => some (d, .day date .raised)
  | .day _ (.done _), .raise => none
  | .day _ .raised, .raise => none
  | .day date _, .raise => some (d, .day date .raised)
  | .week c .starting, .read =>
    some (d, .week c (if d.outlines.any fun o => o.weekStartDate = c.weekStartDate then .skipped
      else .asking))
  | .week c .asking, .answer vocab raw => some (d, .week c (weekPhaseOf (weekAnswer F c vocab raw)))
  | .week c (.saving rows), .commit =>
    match d.storeWeek c rows with
    | some d => some (d, .week c (.success rows))
    | none => some (d, .week c (.raised .other))
  | .week c .starting, .raise | .week c .asking, .raise | .week c (.saving _), .raise =>
    some (d, .week c (.raised .other))
  | _, _ => none

/-- Runs of any dates and weeks. -/
def planner (F : Formats) : TaskSystem PlannerData PlannerTask PlannerInput where
  initial d := d = ⟨[], [], []⟩
  accept _
    | .generateDailyScenes date => some [.day date .starting]
    | .generateWeekOutline c => some [.week c .starting]
    | _ => none
  advance d t i := (advancePlanner F d t i).map fun p => (p.1, [p.2])

end CompanionBackend.LifePlanner
