import CompanionBackend.VoiceLifecycle

/-!
# Growth of a finished call

`add_voice_growth` files one growth entry for a call and raises the relationship
by its points. The entry is keyed by the call, so a second request finds it and
writes nothing but the relationship row itself.
-/
namespace CompanionBackend.VoiceGrowth

open Runs ShanghaiClock VoiceModels VoiceLifecycle

/-- The growth section of `get_default_voice_call_config`. -/
def defaultGrowth : GrowthConfig := ⟨30, 5, 100, "Asia/Shanghai"⟩

/-- `_calc_level`. -/
def calcLevel (growth : ℤ) : ℤ :=
  if 2000 ≤ growth then 3 else if 800 ≤ growth then 2 else if 200 ≤ growth then 1 else 0

/-- The relationship row, or the one `_get_or_create_relationship` inserts. -/
def relationshipOf (db : VoiceDb) (user : UserId) : Relationship :=
  (db.relationships.lookup user).getD ⟨0, 0, 0, none⟩

/-- The growth entries of one call. -/
def growthOf (db : VoiceDb) (id : CallId) : List RelationshipGrowthLog :=
  db.growthLogs.filter fun log => decide (log.source = .voiceCall id)

/-- The source is a voice call. -/
def GrowthSource.isVoice : GrowthSource → Bool
  | .voiceCall _ => true
  | .other _ => false

/-- Voice points of the user filed under one business date. -/
def awardedOn (db : VoiceDb) (user : UserId) (day : ℤ) : ℤ :=
  ((db.growthLogs.filter fun log => decide (log.userId = user) && GrowthSource.isVoice log.source &&
    decide (log.businessDate = day)).map (·.points)).sum

/-- Some answered turn carries meaningful user text. -/
def meaningful (turns : List VoiceCallTurn) : Bool :=
  turns.any fun t => VoiceCallTurn.answered t && meaningfulUserText t.userTextFinal

/-- `qualifies`, short of `meaningful`. -/
def completed (call : VoiceCall) : Bool :=
  call.connectedAt.isSome && decide (call.status = .ended) &&
    decide (call.endReason ≠ some .systemError ∧ call.endReason ≠ some .providerError ∧
      call.endReason ≠ some .reconnectTimeout)

/-- `actual_points`. -/
def actualPoints (cfg : GrowthConfig) (eligible awarded : ℤ) : ℤ :=
  min (eligible / cfg.segmentSeconds * cfg.pointsPerSegment) (max 0 (cfg.dailyLimitPoints - awarded))

/-- The relationship after a call that ended at `ended` brought `points`. -/
def raised (rel : Relationship) (call : VoiceCall) (ended points : ℤ) : Relationship :=
  let growth := rel.growthValue + points
  let level := if rel.level < calcLevel growth then calcLevel growth else rel.level
  if call.connectedAt.isSome then
    ⟨level, growth, 0, some (max (rel.lastInteractionAt.getD ended) ended)⟩
  else ⟨level, growth, rel.proactiveTimes, rel.lastInteractionAt⟩

/-- The growth columns of the call. -/
def withGrowth (call : VoiceCall) (eligible points : ℤ) : VoiceCall :=
  { call with growthEligibleSeconds := eligible, growthPoints := points }

structure GrowthResult where
  points : ℤ
  leveledUp : Bool
  currentGrowth : ℤ
  newLevel : ℤ
  deriving DecidableEq, Repr

/-- `RelationshipService.add_voice_growth`, inside the caller's transaction. -/
def addVoiceGrowth (user : UserId) (eligible : ℤ) (id : CallId) :
    Transaction CallError VoiceDb GrowthResult := fun db => do
  require (0 ≤ eligible) .growthSecondsInvalid
  let call ← orRaise (db.call id) .growthCallNotTerminal
  require (call.userId = user) .growthCallNotTerminal
  let ended ← orRaise call.endedAt .growthCallNotTerminal
  require (call.status.terminal = true) .growthCallNotTerminal
  let rel := relationshipOf db user
  if growthOf db id ≠ [] then
    pure ({ db with relationships := db.relationships.insert user rel },
      ⟨0, false, rel.growthValue, rel.level⟩)
  else do
    require (eligible = call.growthEligibleSeconds) .growthSecondsMismatch
    let cfg := call.growthConfig.getD defaultGrowth
    require (0 < cfg.segmentSeconds ∧ 0 < cfg.pointsPerSegment ∧ 0 ≤ cfg.dailyLimitPoints ∧
      cfg.timezone = "Asia/Shanghai") .growthConfigInvalid
    let day := shanghaiDay ended
    let spoke := meaningful (db.turns id)
    let eligible := if spoke then eligible else 0
    let points := if completed call && spoke then actualPoints cfg eligible (awardedOn db user day)
      else 0
    let rel' := raised rel call ended points
    let history := if rel.level < rel'.level then [⟨user, rel.level, rel'.level⟩] else []
    pure ({ db.putCall id (withGrowth call eligible points) with
        relationships := db.relationships.insert user rel'
        growthLogs := db.growthLogs ++ [⟨user, points, .voiceCall id, eligible, day⟩]
        levelHistory := db.levelHistory ++ history },
      ⟨points, decide (rel.level < rel'.level), rel'.growthValue, rel'.level⟩)

@[simp] theorem raised_growthValue (rel : Relationship) (call : VoiceCall) (ended points : ℤ) :
    (raised rel call ended points).growthValue = rel.growthValue + points := by
  simp only [raised, apply_ite Relationship.growthValue, ite_self]

/-- Points are between zero and what the daily limit leaves. -/
theorem actualPoints_bounds {cfg : GrowthConfig} {eligible awarded : ℤ}
    (hsegment : 0 < cfg.segmentSeconds) (hpoints : 0 < cfg.pointsPerSegment)
    (heligible : 0 ≤ eligible) :
    0 ≤ actualPoints cfg eligible awarded ∧
      actualPoints cfg eligible awarded ≤ max 0 (cfg.dailyLimitPoints - awarded) := by
  constructor
  · apply le_min
    · exact mul_nonneg (Int.ediv_nonneg heligible hsegment.le) hpoints.le
    · exact le_max_left 0 _
  · exact min_le_right _ _

/-- A growth request that filed the entry of its call. -/
structure Filed (db db' : VoiceDb) (user : UserId) (id : CallId) : Prop where
  fresh : growthOf db id = []
  filed : ∃ log : RelationshipGrowthLog, log.source = .voiceCall id ∧ log.userId = user ∧
    0 ≤ log.points ∧ db'.growthLogs = db.growthLogs ++ [log] ∧
    (relationshipOf db' user).growthValue = (relationshipOf db user).growthValue + log.points ∧
    ∃ call, db.call id = some call ∧
      db'.call id = some (withGrowth call log.eligibleSeconds log.points)
  relationships_of_other : ∀ user', user' ≠ user →
    relationshipOf db' user' = relationshipOf db user'
  calls_of_other : ∀ id', id' ≠ id → db'.call id' = db.call id'
  rest : db' = { db with
    calls := db'.calls, relationships := db'.relationships
    growthLogs := db'.growthLogs, levelHistory := db'.levelHistory }

theorem relationshipOf_insert (db : VoiceDb) (user user' : UserId) (rel : Relationship)
    (logs : List RelationshipGrowthLog) (history : List RelationshipLevelHistory)
    (calls : Table CallId VoiceCall) :
    relationshipOf { db with
      calls := calls, relationships := db.relationships.insert user rel
      growthLogs := logs, levelHistory := history } user' =
      if user' = user then rel else relationshipOf db user' := by
  unfold relationshipOf
  split_ifs with h
  · subst h
    simp
  · simp [AList.lookup_insert_ne h]

/-- Without an entry for the call, a committed request files exactly one. -/
theorem addVoiceGrowth_filed {db db' : VoiceDb} {user : UserId} {eligible : ℤ} {id : CallId}
    {r : GrowthResult} (hfresh : growthOf db id = [])
    (h : addVoiceGrowth user eligible id db = .ok (db', r)) : Filed db db' user id := by
  obtain ⟨_, heligible, h⟩ := bind_eq_ok.mp h
  obtain ⟨call, hcall, h⟩ := bind_eq_ok.mp h
  obtain ⟨_, _, h⟩ := bind_eq_ok.mp h
  obtain ⟨ended, _, h⟩ := bind_eq_ok.mp h
  obtain ⟨_, _, h⟩ := bind_eq_ok.mp h
  rw [if_neg (not_not.mpr hfresh)] at h
  obtain ⟨_, _, h⟩ := bind_eq_ok.mp h
  obtain ⟨_, hcfg, h⟩ := bind_eq_ok.mp h
  obtain ⟨rfl, -⟩ := Prod.mk.inj (pure_eq_ok.mp h)
  rw [require_eq_ok] at heligible hcfg
  refine ⟨hfresh, ⟨⟨user, _, .voiceCall id, _, _⟩, rfl, rfl, ?_, rfl, ?_, call,
    orRaise_eq_ok.mp hcall, ?_⟩, ?_, ?_, rfl⟩
  · simp only
    split_ifs
    · exact (actualPoints_bounds hcfg.1 hcfg.2.1 heligible).1
    · exact (actualPoints_bounds hcfg.1 hcfg.2.1 le_rfl).1
    · exact le_rfl
  · simp only [VoiceDb.putCall, relationshipOf_insert, if_true, raised_growthValue]
  · exact VoiceDb.call_putCall_self _ _ _
  · intro user' huser
    simp only [VoiceDb.putCall, relationshipOf_insert, if_neg huser]
  · intro id' hid
    exact (VoiceDb.call_putCall _ _ _ _).trans (if_neg hid)

/-- A request for a call that has its entry leaves growth values and entries alone. -/
theorem addVoiceGrowth_replayed {db db' : VoiceDb} {user : UserId} {eligible : ℤ} {id : CallId}
    {r : GrowthResult} (hold : growthOf db id ≠ [])
    (h : addVoiceGrowth user eligible id db = .ok (db', r)) :
    r.points = 0 ∧ db' = { db with relationships := db'.relationships } ∧
      ∀ user', relationshipOf db' user' = relationshipOf db user' := by
  obtain ⟨_, _, h⟩ := bind_eq_ok.mp h
  obtain ⟨call, _, h⟩ := bind_eq_ok.mp h
  obtain ⟨_, _, h⟩ := bind_eq_ok.mp h
  obtain ⟨ended, _, h⟩ := bind_eq_ok.mp h
  obtain ⟨_, _, h⟩ := bind_eq_ok.mp h
  rw [if_pos hold] at h
  obtain ⟨rfl, rfl⟩ := Prod.mk.inj (pure_eq_ok.mp h)
  refine ⟨rfl, rfl, fun user' => ?_⟩
  rw [relationshipOf_insert]
  split_ifs with huser
  · rw [huser]
  · rfl

end CompanionBackend.VoiceGrowth

/-!
## Growth from text actions

Each kind of action brings a few points, up to a limit for a day. What the day has brought
so far is kept in counters beside the database, so the database half of `add_growth`
takes it as it was read. The names and thresholds of levels that a caller shows are left out.
-/
namespace CompanionBackend.TextGrowth

open Runs VoiceModels VoiceLifecycle VoiceGrowth

/-- The keys of `GROWTH_ACTIONS`. -/
inductive GrowthAction
  | dialog | longSession | dailyLogin | replyAgent
  deriving DecidableEq, Repr

namespace GrowthAction

def name : GrowthAction → String
  | dialog => "dialog"
  | longSession => "long_session"
  | dailyLogin => "daily_login"
  | replyAgent => "reply_agent"

def points : GrowthAction → ℤ
  | dialog => 2
  | longSession => 20
  | dailyLogin => 5
  | replyAgent => 10

def dailyLimit : GrowthAction → ℤ
  | dialog => 50
  | longSession => 20
  | dailyLogin => 10
  | replyAgent => 20

end GrowthAction

/-- `points`: a login after more than seven days in a row counts double. -/
def pointsFor (action : GrowthAction) (consecutiveLoginDays : ℤ) : ℤ :=
  if action = .dailyLogin ∧ 7 < consecutiveLoginDays then 10 else action.points

/-- `actual_points`, on a day that has brought `current` so far. -/
def actualTextPoints (action : GrowthAction) (consecutiveLoginDays current : ℤ) : ℤ :=
  min (pointsFor action consecutiveLoginDays) (action.dailyLimit - current)

theorem pointsFor_bounds (action : GrowthAction) (consecutiveLoginDays : ℤ) :
    0 < pointsFor action consecutiveLoginDays ∧
      pointsFor action consecutiveLoginDays ≤ action.dailyLimit := by
  unfold pointsFor
  split_ifs with h
  · rw [h.1]
    decide
  · cases action <;> decide

/-- An action below its limit brings something, and stays within the limit. -/
theorem actualTextPoints_bounds {action : GrowthAction} {consecutiveLoginDays current : ℤ}
    (h : current < action.dailyLimit) :
    0 < actualTextPoints action consecutiveLoginDays current ∧
      actualTextPoints action consecutiveLoginDays current ≤ action.dailyLimit ∧
      current + actualTextPoints action consecutiveLoginDays current ≤ action.dailyLimit := by
  have hpoints := pointsFor_bounds action consecutiveLoginDays
  unfold actualTextPoints
  omega

/-- The relationship after `points` more at `now`. -/
def raisedByText (rel : Relationship) (points now : ℤ) : Relationship :=
  let growth := rel.growthValue + points
  let level := if rel.level < calcLevel growth then calcLevel growth else rel.level
  { rel with level := level, growthValue := growth, lastInteractionAt := some now }

/-- An entry of a text action: it has no source, no seconds and no business date. -/
def textLog (user : UserId) (action : GrowthAction) (points : ℤ) : RelationshipGrowthLog :=
  ⟨user, points, .other action.name, 0, 0⟩

/-- What `add_growth` does in the database once it has read that the day has brought
`current`. -/
def addGrowth (user : UserId) (action : GrowthAction) (consecutiveLoginDays current now : ℤ) :
    Transaction CallError VoiceDb GrowthResult := fun db =>
  let rel := relationshipOf db user
  if action.dailyLimit ≤ current then
    .ok ({ db with relationships := db.relationships.insert user rel },
      ⟨0, false, rel.growthValue, rel.level⟩)
  else
    let points := actualTextPoints action consecutiveLoginDays current
    let rel' := raisedByText rel points now
    let history := if rel.level < rel'.level then [⟨user, rel.level, rel'.level⟩] else []
    .ok ({ db with
        relationships := db.relationships.insert user rel'
        growthLogs := db.growthLogs ++ [textLog user action points]
        levelHistory := db.levelHistory ++ history },
      ⟨points, decide (rel.level < rel'.level), rel'.growthValue, rel'.level⟩)

end CompanionBackend.TextGrowth
