import CompanionBackend.KeyedSums
import CompanionBackend.VoiceGrowth

/-!
# The ledger of growth

Text actions and finished calls raise the same two numbers of a relationship and write to
the same tables. Whatever the order of the transactions, the growth value is the sum of the
entries, the level is the one for that value, and the history leads from the first level to
the present one.
-/
namespace CompanionBackend.GrowthLedger

open Runs KeyedSums ShanghaiClock VoiceModels VoiceLifecycle VoiceGrowth TextGrowth

/-- The limit in force for a call that was filed, and its business date. -/
structure Filing where
  userId : UserId
  businessDate : ℤ
  dailyLimitPoints : ℤ
  deriving DecidableEq, Repr

/-- The tables, and the filings of calls so far, the last one first. -/
structure GrowthWorld where
  db : VoiceDb
  filings : List Filing

/-- What filing the call goes by. -/
def filingOf (db : VoiceDb) (id : CallId) : Option Filing :=
  (db.call id).bind fun call => call.endedAt.map fun ended =>
    ⟨call.userId, shanghaiDay ended, (call.growthConfig.getD defaultGrowth).dailyLimitPoints⟩

/-- A transaction, which the database may refuse, or what other services write. -/
inductive GrowthInput
  | addGrowth (user : UserId) (action : GrowthAction) (consecutiveLoginDays current now : ℤ)
      (refused : Bool)
  | addVoiceGrowth (user : UserId) (eligibleSeconds : ℤ) (id : CallId) (refused : Bool)
  | callsWritten (calls : Table CallId VoiceCall) (turns : CallId → List VoiceCallTurn)

/-- The database after a transaction that may be refused. -/
def committed {α : Type} (tx : Transaction CallError VoiceDb α) (refused : Bool) (db : VoiceDb) :
    VoiceDb :=
  if refused then db else settled tx db

def GrowthWorld.step (w : GrowthWorld) : GrowthInput → GrowthWorld
  | .addGrowth user action days current now refused =>
    { w with db := committed (addGrowth user action days current now) refused w.db }
  | .addVoiceGrowth user eligible id refused =>
    let db := committed (addVoiceGrowth user eligible id) refused w.db
    let filed := if growthOf w.db id = [] ∧ growthOf db id ≠ [] then (filingOf w.db id).toList
      else []
    ⟨db, filed ++ w.filings⟩
  | .callsWritten calls turns => { w with db := { w.db with calls := calls, turns := turns } }

/-- No growth has been recorded, and every relationship is fresh. -/
def Fresh (db : VoiceDb) : Prop :=
  db.growthLogs = [] ∧ db.levelHistory = [] ∧ ∀ user,
    (relationshipOf db user).growthValue = 0 ∧ (relationshipOf db user).level = 0

def growthMachine : Machine GrowthWorld GrowthInput where
  start w := Fresh w.db ∧ w.filings = []
  step w i := some (w.step i)

/-- All points of the user. -/
def pointsOf (db : VoiceDb) (user : UserId) : ℤ :=
  sumWhere (fun log => decide (log.userId = user)) RelationshipGrowthLog.points db.growthLogs

def historyOf (db : VoiceDb) (user : UserId) : List RelationshipLevelHistory :=
  db.levelHistory.filter fun h => decide (h.userId = user)

/-- Each row begins where the one before it ended, and goes up. -/
def LevelChain : ℤ → List RelationshipLevelHistory → ℤ → Prop
  | a, [], b => a = b
  | a, h :: rest, b => h.fromLevel = a ∧ h.fromLevel < h.toLevel ∧ LevelChain h.toLevel rest b

/-- The largest limit in force for the filed calls of a date. -/
def largestLimit (filings : List Filing) (user : UserId) (day : ℤ) : ℤ :=
  ((filings.filter fun f => decide (f.userId = user ∧ f.businessDate = day)).map
    Filing.dailyLimitPoints).foldr max 0

/-- The tables of one user agree with each other. -/
structure LedgerKept (w : GrowthWorld) (user : UserId) : Prop where
  balance : (relationshipOf w.db user).growthValue = pointsOf w.db user
  level : (relationshipOf w.db user).level = calcLevel (relationshipOf w.db user).growthValue
  chain : LevelChain 0 (historyOf w.db user) (relationshipOf w.db user).level
  single : ∀ id, (growthOf w.db id).length ≤ 1
  capped : ∀ day, awardedOn w.db user day ≤ largestLimit w.filings user day
  rising : ∀ i w', growthMachine.step w i = some w' →
    (relationshipOf w.db user).level ≤ (relationshipOf w'.db user).level

/-! ### What a transaction does to the tables -/

/-- One entry, and the relationship raised by it. -/
structure Entered (db db' : VoiceDb) (log : RelationshipGrowthLog) : Prop where
  points : 0 ≤ log.points
  logs : db'.growthLogs = db.growthLogs ++ [log]
  growth : (relationshipOf db' log.userId).growthValue =
    (relationshipOf db log.userId).growthValue + log.points
  level : (relationshipOf db' log.userId).level =
    max (relationshipOf db log.userId).level
      (calcLevel (relationshipOf db' log.userId).growthValue)
  history : db'.levelHistory = db.levelHistory ++
    if (relationshipOf db log.userId).level < (relationshipOf db' log.userId).level then
      [⟨log.userId, (relationshipOf db log.userId).level, (relationshipOf db' log.userId).level⟩]
    else []
  others : ∀ user, user ≠ log.userId → relationshipOf db' user = relationshipOf db user

/-- The tables of growth say what they said. -/
structure Untouched (db db' : VoiceDb) : Prop where
  logs : db'.growthLogs = db.growthLogs
  history : db'.levelHistory = db.levelHistory
  relationships : ∀ user, relationshipOf db' user = relationshipOf db user

theorem untouched_refl (db : VoiceDb) : Untouched db db := ⟨rfl, rfl, fun _ => rfl⟩

theorem untouched_insert (db : VoiceDb) (user : UserId) :
    Untouched db { db with relationships := db.relationships.insert user (relationshipOf db user) } := by
  refine ⟨rfl, rfl, fun user' => ?_⟩
  rw [relationshipOf_insert]
  split_ifs with h
  · rw [h]
  · rfl

theorem max_eq_ite (a b : ℤ) : (if a < b then b else a) = max a b := by
  split_ifs <;> omega

theorem relationshipOf_of_insert {db db' : VoiceDb} {user : UserId} {rel : Relationship}
    (h : db'.relationships = db.relationships.insert user rel) (user' : UserId) :
    relationshipOf db' user' = if user' = user then rel else relationshipOf db user' := by
  unfold relationshipOf
  rw [h]
  split_ifs with huser
  · subst huser
    simp
  · simp [AList.lookup_insert_ne huser]

/-- The raised relationship is inserted beside the entry and its history row. -/
theorem entered_of_insert {db db' : VoiceDb} {log : RelationshipGrowthLog} {rel : Relationship}
    (hrel : db'.relationships = db.relationships.insert log.userId rel)
    (hlogs : db'.growthLogs = db.growthLogs ++ [log])
    (hhistory : db'.levelHistory = db.levelHistory ++
      if (relationshipOf db log.userId).level < rel.level then
        [⟨log.userId, (relationshipOf db log.userId).level, rel.level⟩] else [])
    (hpoints : 0 ≤ log.points)
    (hgrowth : rel.growthValue = (relationshipOf db log.userId).growthValue + log.points)
    (hlevel : rel.level = max (relationshipOf db log.userId).level (calcLevel rel.growthValue)) :
    Entered db db' log := by
  have hself : relationshipOf db' log.userId = rel :=
    (relationshipOf_of_insert hrel log.userId).trans (if_pos rfl)
  refine ⟨hpoints, hlogs, ?_, ?_, ?_, fun user huser => ?_⟩
  · rw [hself, hgrowth]
  · rw [hself, hlevel]
  · rw [hself, hhistory]
  · rw [relationshipOf_of_insert hrel, if_neg huser]

theorem addGrowth_cases {user : UserId} {action : GrowthAction} {days current now : ℤ}
    {db db' : VoiceDb} {r : GrowthResult}
    (h : addGrowth user action days current now db = .ok (db', r)) :
    Untouched db db' ∨ ∃ log, log.userId = user ∧ log.source = .other action.name ∧
      Entered db db' log := by
  unfold addGrowth at h
  dsimp only at h
  by_cases hlimit : action.dailyLimit ≤ current
  · rw [if_pos hlimit] at h
    obtain ⟨rfl, -⟩ := Prod.mk.inj (Except.ok.inj h)
    exact .inl (untouched_insert db user)
  · rw [if_neg hlimit] at h
    obtain ⟨rfl, -⟩ := Prod.mk.inj (Except.ok.inj h)
    refine .inr ⟨textLog user action _, rfl, rfl, entered_of_insert rfl rfl rfl ?_ rfl ?_⟩
    · exact (actualTextPoints_bounds (by omega)).1.le
    · exact max_eq_ite _ _

theorem raised_level (rel : Relationship) (call : VoiceCall) (ended points : ℤ) :
    (raised rel call ended points).level =
      max rel.level (calcLevel (raised rel call ended points).growthValue) := by
  rw [raised_growthValue]
  simp only [raised, apply_ite Relationship.level, ite_self]
  exact max_eq_ite _ _

/-- The points of a filed call, whatever was said in it. -/
theorem filedPoints_bounds {cfg : GrowthConfig} {eligible : ℤ} (spoke done : Bool) (awarded : ℤ)
    (hsegment : 0 < cfg.segmentSeconds) (hpoints : 0 < cfg.pointsPerSegment)
    (heligible : 0 ≤ eligible) :
    0 ≤ (if done then actualPoints cfg (if spoke then eligible else 0) awarded else 0) ∧
      (if done then actualPoints cfg (if spoke then eligible else 0) awarded else 0) ≤
        max 0 (cfg.dailyLimitPoints - awarded) := by
  cases done with
  | false => exact ⟨le_refl (0 : ℤ), le_max_left 0 _⟩
  | true =>
    refine actualPoints_bounds hsegment hpoints ?_
    cases spoke with
    | false => exact le_refl (0 : ℤ)
    | true => exact heligible

theorem addVoiceGrowth_cases {user : UserId} {eligible : ℤ} {id : CallId} {db db' : VoiceDb}
    {r : GrowthResult} (h : addVoiceGrowth user eligible id db = .ok (db', r)) :
    Untouched db db' ∨ growthOf db id = [] ∧ ∃ log filing, log.userId = user ∧
      log.source = .voiceCall id ∧ Entered db db' log ∧ filingOf db id = some filing ∧
      filing.userId = user ∧ filing.businessDate = log.businessDate ∧
      log.points ≤ max 0 (filing.dailyLimitPoints - awardedOn db user log.businessDate) := by
  obtain ⟨_, heligible, h⟩ := bind_eq_ok.mp h
  obtain ⟨call, hcall, h⟩ := bind_eq_ok.mp h
  obtain ⟨_, howner, h⟩ := bind_eq_ok.mp h
  obtain ⟨ended, hended, h⟩ := bind_eq_ok.mp h
  obtain ⟨_, _, h⟩ := bind_eq_ok.mp h
  by_cases hfresh : growthOf db id = []
  · rw [if_neg (not_not.mpr hfresh)] at h
    obtain ⟨_, _, h⟩ := bind_eq_ok.mp h
    obtain ⟨_, hcfg, h⟩ := bind_eq_ok.mp h
    obtain ⟨rfl, -⟩ := Prod.mk.inj (pure_eq_ok.mp h)
    rw [require_eq_ok] at heligible howner hcfg
    rw [orRaise_eq_ok] at hcall hended
    have hpoints := filedPoints_bounds (meaningful (db.turns id))
      (completed call && meaningful (db.turns id)) (awardedOn db user (shanghaiDay ended))
      hcfg.1 hcfg.2.1 heligible
    refine .inr ⟨hfresh, ⟨user, _, .voiceCall id, _, shanghaiDay ended⟩,
      ⟨call.userId, shanghaiDay ended, (call.growthConfig.getD defaultGrowth).dailyLimitPoints⟩,
      rfl, rfl, entered_of_insert rfl rfl rfl ?_ ?_ ?_,
      by simp [filingOf, hcall, hended], howner, rfl, ?_⟩
    · exact hpoints.1
    · exact raised_growthValue ..
    · exact raised_level ..
    · exact hpoints.2
  · rw [if_pos hfresh] at h
    obtain ⟨rfl, -⟩ := Prod.mk.inj (pure_eq_ok.mp h)
    exact .inl (untouched_insert db user)

/-! ### Levels and history -/

theorem calcLevel_mono {a b : ℤ} (h : a ≤ b) : calcLevel a ≤ calcLevel b := by
  unfold calcLevel
  split_ifs <;> omega

theorem LevelChain.append {a b c : ℤ} {rows : List RelationshipLevelHistory} {user : UserId}
    (h : LevelChain a rows b) (hbc : b < c) : LevelChain a (rows ++ [⟨user, b, c⟩]) c := by
  induction rows generalizing a with
  | nil =>
    obtain rfl : a = b := h
    exact ⟨rfl, hbc, rfl⟩
  | cons row rows ih => exact ⟨h.1, h.2.1, ih h.2.2⟩

/-- The invariant: what holds of every user between transactions. -/
structure Balanced (w : GrowthWorld) : Prop where
  balance : ∀ user, (relationshipOf w.db user).growthValue = pointsOf w.db user
  level : ∀ user,
    (relationshipOf w.db user).level = calcLevel (relationshipOf w.db user).growthValue
  chain : ∀ user, LevelChain 0 (historyOf w.db user) (relationshipOf w.db user).level
  single : ∀ id, (growthOf w.db id).length ≤ 1
  capped : ∀ user day, awardedOn w.db user day ≤ largestLimit w.filings user day

/-- The level after an entry. -/
theorem Entered.level_eq {db db' : VoiceDb} {log : RelationshipGrowthLog} (h : Entered db db' log)
    (hlevel : (relationshipOf db log.userId).level =
      calcLevel (relationshipOf db log.userId).growthValue) :
    (relationshipOf db' log.userId).level =
      calcLevel (relationshipOf db' log.userId).growthValue := by
  have hmono : calcLevel (relationshipOf db log.userId).growthValue ≤
      calcLevel (relationshipOf db' log.userId).growthValue :=
    calcLevel_mono (by rw [h.growth]; linarith [h.points])
  rw [h.level, hlevel, max_eq_right hmono]

theorem balanced_untouched {w : GrowthWorld} {db : VoiceDb} (h : Balanced w)
    (hsame : Untouched w.db db) : Balanced { w with db := db } := by
  refine ⟨fun user => ?_, fun user => ?_, fun user => ?_, fun id => ?_, fun user day => ?_⟩
  · simpa [hsame.relationships, pointsOf, hsame.logs] using h.balance user
  · simpa [hsame.relationships] using h.level user
  · simpa [hsame.relationships, historyOf, hsame.history] using h.chain user
  · simpa [growthOf, hsame.logs] using h.single id
  · simpa [awardedOn, hsame.logs] using h.capped user day

theorem awardedOn_append {db db' : VoiceDb} {log : RelationshipGrowthLog}
    (hlogs : db'.growthLogs = db.growthLogs ++ [log]) (user : UserId) (day : ℤ) :
    awardedOn db' user day = awardedOn db user day +
      if log.userId = user ∧ GrowthSource.isVoice log.source = true ∧ log.businessDate = day
        then log.points else 0 := by
  simp only [awardedOn, hlogs, List.filter_append, List.map_append, List.sum_append]
  congr 1
  by_cases h : log.userId = user ∧ GrowthSource.isVoice log.source = true ∧ log.businessDate = day
  · obtain ⟨h₁, h₂, h₃⟩ := h
    simp [h₁, h₂, h₃]
  · rw [if_neg h]
    rw [List.filter_cons_of_neg]
    · rfl
    · simpa [and_assoc] using h

/-- An entry keeps everything but the two facts about calls, which are its own. -/
theorem balanced_entered {w : GrowthWorld} {db : VoiceDb} {log : RelationshipGrowthLog}
    {filings : List Filing} (h : Balanced w) (hentered : Entered w.db db log)
    (hsingle : ∀ id, (growthOf db id).length ≤ 1)
    (hcapped : ∀ user day, awardedOn db user day ≤ largestLimit filings user day) :
    Balanced ⟨db, filings⟩ := by
  refine ⟨fun user => ?_, fun user => ?_, fun user => ?_, hsingle, hcapped⟩
  · simp only [pointsOf, hentered.logs, sumWhere_append, sumWhere_cons, sumWhere_nil, add_zero]
    by_cases huser : log.userId = user
    · subst huser
      rw [hentered.growth, h.balance]
      simp [pointsOf]
    · rw [hentered.others user (Ne.symm huser), h.balance]
      simp [pointsOf, huser]
  · by_cases huser : user = log.userId
    · rw [huser]
      exact hentered.level_eq (h.level _)
    · change (relationshipOf db user).level = calcLevel (relationshipOf db user).growthValue
      rw [hentered.others user huser]
      exact h.level user
  · change LevelChain 0 (historyOf db user) (relationshipOf db user).level
    rw [historyOf, hentered.history, List.filter_append, ← historyOf]
    by_cases huser : user = log.userId
    · subst huser
      have hold := h.chain log.userId
      split_ifs with hup
      · simpa using hold.append hup
      · have hsame : (relationshipOf db log.userId).level
            = (relationshipOf w.db log.userId).level := by
          have := hentered.level
          omega
        rw [hsame]
        simpa using hold
    · rw [hentered.others user huser]
      have hnone : (if (relationshipOf w.db log.userId).level < (relationshipOf db log.userId).level
          then [(⟨log.userId, (relationshipOf w.db log.userId).level,
            (relationshipOf db log.userId).level⟩ : RelationshipLevelHistory)] else []).filter
          (fun row => decide (row.userId = user)) = [] := by
        split_ifs <;> simp [Ne.symm huser]
      rw [hnone, List.append_nil]
      exact h.chain user

/-! ### Steps -/

theorem growthOf_entered {db db' : VoiceDb} {log : RelationshipGrowthLog}
    (hlogs : db'.growthLogs = db.growthLogs ++ [log]) (id : CallId) :
    growthOf db' id = growthOf db id ++ if log.source = .voiceCall id then [log] else [] := by
  simp only [growthOf, hlogs, List.filter_append]
  congr 1
  split_ifs with h <;> simp [h]

theorem growthOf_untouched {db db' : VoiceDb} (h : Untouched db db') (id : CallId) :
    growthOf db' id = growthOf db id := by
  simp [growthOf, h.logs]

theorem le_largestLimit_cons (f : Filing) (filings : List Filing) (user : UserId) (day : ℤ) :
    largestLimit filings user day ≤ largestLimit (f :: filings) user day := by
  by_cases h : f.userId = user ∧ f.businessDate = day
  · simp [largestLimit, h]
  · simp [largestLimit, h]

theorem limit_le_largestLimit (f : Filing) (filings : List Filing) :
    f.dailyLimitPoints ≤ largestLimit (f :: filings) f.userId f.businessDate := by
  simp [largestLimit]

theorem largestLimit_nonneg (filings : List Filing) (user : UserId) (day : ℤ) :
    0 ≤ largestLimit filings user day := by
  induction filings with
  | nil => exact le_rfl
  | cons f filings ih => exact ih.trans (le_largestLimit_cons f filings user day)

/-- A filed call takes what its own limit leaves. -/
theorem capped_filed {w : GrowthWorld} {db : VoiceDb} {log : RelationshipGrowthLog} {f : Filing}
    (h : Balanced w) (hlogs : db.growthLogs = w.db.growthLogs ++ [log])
    (huser : f.userId = log.userId) (hday : f.businessDate = log.businessDate)
    (hpoints : log.points ≤ max 0 (f.dailyLimitPoints - awardedOn w.db log.userId log.businessDate))
    (user : UserId) (day : ℤ) :
    awardedOn db user day ≤ largestLimit (f :: w.filings) user day := by
  have hold := (h.capped user day).trans (le_largestLimit_cons f w.filings user day)
  rw [awardedOn_append hlogs]
  split_ifs with hlog
  · obtain ⟨rfl, -, rfl⟩ := hlog
    have hlimit := limit_le_largestLimit f w.filings
    rw [huser, hday] at hlimit
    omega
  · omega

theorem balanced_addGrowth {w : GrowthWorld} {user : UserId} {action : GrowthAction}
    {days current now : ℤ} (h : Balanced w) :
    Balanced { w with db := settled (addGrowth user action days current now) w.db } := by
  refine settled_invariant (I := fun db => Balanced { w with db := db }) h fun db r hcommit => ?_
  rcases addGrowth_cases hcommit with hsame | ⟨log, -, hsource, hentered⟩
  · exact balanced_untouched h hsame
  · refine balanced_entered h hentered (fun id => ?_) fun user' day => ?_
    · rw [growthOf_entered hentered.logs, hsource, if_neg (by simp), List.append_nil]
      exact h.single id
    · rw [awardedOn_append hentered.logs, hsource, if_neg (by simp [GrowthSource.isVoice]), add_zero]
      exact h.capped user' day

theorem balanced_addVoiceGrowth {w : GrowthWorld} {user : UserId} {eligible : ℤ} {id : CallId}
    {refused : Bool} (h : Balanced w) :
    Balanced (w.step (.addVoiceGrowth user eligible id refused)) := by
  have hkept : ∀ db, Untouched w.db db → ¬(growthOf w.db id = [] ∧ growthOf db id ≠ []) := by
    rintro db hsame ⟨hnone, hsome⟩
    exact hsome ((growthOf_untouched hsame id).trans hnone)
  have hidle : ∀ db, Untouched w.db db → committed (addVoiceGrowth user eligible id) refused w.db
      = db → Balanced (w.step (.addVoiceGrowth user eligible id refused)) := by
    intro db hsame heq
    simp only [GrowthWorld.step, heq, if_neg (hkept db hsame), List.nil_append]
    exact balanced_untouched h hsame
  cases hrun : addVoiceGrowth user eligible id w.db with
  | error e => exact hidle w.db (untouched_refl _) (by simp [committed, settled, hrun])
  | ok result =>
    obtain ⟨db, r⟩ := result
    cases refused with
    | true => exact hidle w.db (untouched_refl _) rfl
    | false =>
      have heq : committed (addVoiceGrowth user eligible id) false w.db = db := by
        simp [committed, settled, hrun]
      rcases addVoiceGrowth_cases hrun with hsame | ⟨hnone, log, f, huser, hsource, hentered, hf,
        hfuser, hfday, hpoints⟩
      · exact hidle db hsame heq
      · subst huser
        have hfiled : growthOf db id = [log] := by
          rw [growthOf_entered hentered.logs, hnone, hsource, if_pos rfl, List.nil_append]
        simp only [GrowthWorld.step, heq, hnone, hfiled, hf, ne_eq, reduceCtorEq,
          not_false_eq_true, and_self, if_true, Option.toList_some]
        refine balanced_entered h hentered (fun id' => ?_)
          (capped_filed h hentered.logs hfuser hfday hpoints)
        by_cases hid : id' = id
        · rw [hid, hfiled, List.length_singleton]
        · rw [growthOf_entered hentered.logs, hsource, if_neg (by simpa using Ne.symm hid),
            List.append_nil]
          exact h.single id'

theorem balanced_step {w w' : GrowthWorld} {i : GrowthInput} (h : Balanced w)
    (hstep : growthMachine.step w i = some w') : Balanced w' := by
  obtain rfl := Option.some.inj hstep
  cases i with
  | addGrowth user action days current now refused =>
    cases refused with
    | true => exact h
    | false => exact balanced_addGrowth h
  | addVoiceGrowth user eligible id refused => exact balanced_addVoiceGrowth h
  | callsWritten calls turns => exact ⟨h.balance, h.level, h.chain, h.single, h.capped⟩

theorem balanced_start {w : GrowthWorld} (h : growthMachine.start w) : Balanced w := by
  obtain ⟨⟨hlogs, hhistory, hfresh⟩, hfilings⟩ := h
  refine ⟨fun user => ?_, fun user => ?_, fun user => ?_, fun id => ?_, fun user day => ?_⟩
  · simp [(hfresh user).1, pointsOf, hlogs]
  · rw [(hfresh user).1, (hfresh user).2]
    decide
  · simp [(hfresh user).2, historyOf, hhistory, LevelChain]
  · simp [growthOf, hlogs]
  · simpa [awardedOn, hlogs] using largestLimit_nonneg w.filings user day

/-! ### Levels never fall -/

theorem level_le_entered {db db' : VoiceDb} {log : RelationshipGrowthLog} (h : Entered db db' log)
    (user : UserId) : (relationshipOf db user).level ≤ (relationshipOf db' user).level := by
  by_cases huser : user = log.userId
  · rw [huser, h.level]
    exact le_max_left ..
  · rw [h.others user huser]

theorem level_le_committed {α : Type} {tx : Transaction CallError VoiceDb α} {db : VoiceDb}
    {user : UserId} {refused : Bool}
    (h : ∀ db' a, tx db = .ok (db', a) → Untouched db db' ∨ ∃ log, Entered db db' log) :
    (relationshipOf db user).level ≤ (relationshipOf (committed tx refused db) user).level := by
  unfold committed
  split_ifs
  · exact le_rfl
  · refine settled_invariant (I := fun db' => (relationshipOf db user).level ≤
      (relationshipOf db' user).level) le_rfl fun db' a hcommit => ?_
    rcases h db' a hcommit with hsame | ⟨log, hentered⟩
    · rw [hsame.relationships]
    · exact level_le_entered hentered user

theorem level_le_step (w : GrowthWorld) (i : GrowthInput) (user : UserId) :
    (relationshipOf w.db user).level ≤ (relationshipOf (w.step i).db user).level := by
  cases i with
  | addGrowth user' action days current now refused =>
    refine level_le_committed fun db' a hcommit => ?_
    rcases addGrowth_cases hcommit with hsame | ⟨log, -, -, hentered⟩
    · exact .inl hsame
    · exact .inr ⟨log, hentered⟩
  | addVoiceGrowth user' eligible id refused =>
    refine level_le_committed fun db' a hcommit => ?_
    rcases addVoiceGrowth_cases hcommit with hsame | ⟨-, log, -, -, -, hentered, -⟩
    · exact .inl hsame
    · exact .inr ⟨log, hentered⟩
  | callsWritten calls turns => exact le_rfl

/-- In every order of text actions and finished calls the ledger of each user is kept. -/
theorem growth_ledger_kept {w : GrowthWorld} (hw : growthMachine.Reachable w) (user : UserId) :
    LedgerKept w user := by
  have h := Machine.reachable_invariant (I := Balanced) (fun _ => balanced_start)
    (fun _ _ _ => balanced_step) hw
  refine ⟨h.balance user, h.level user, h.chain user, h.single, h.capped user, ?_⟩
  intro i w' hstep
  obtain rfl := Option.some.inj hstep
  exact level_le_step w i user

/-! ### A user with texts and a call -/

/-- A call of a minute and a half that ended as it should. -/
def endedCall : VoiceCall where
  userId := 7
  status := .ended
  call01Fallback := none
  endReason := some .userHangup
  connectedAt := some 0
  endedAt := some 90000000
  durationSeconds := 90
  freeSecondsUsed := 90
  extraSecondsUsed := 0
  graceSeconds := 0
  growthEligibleSeconds := 90
  growthPoints := 0
  sortSeq := none
  summaryStatus := .pending
  growthConfig := some ⟨30, 100, 250, "Asia/Shanghai"⟩
  deletionFenceAt := none
  deletedAt := none

def endedTurn : VoiceCallTurn where
  userTextFinal := some "weather today".toList
  assistantTextEffective := some "sunny".toList
  effectiveTextEvidence := .full
  turnStatus := .finalized
  allChecksPassed := true

def talkedDb : VoiceDb where
  users := [7]
  calls := AList.insert 3 endedCall ∅
  accounts := ∅
  ledger := []
  turns _ := [endedTurn]
  relationships := ∅
  growthLogs := []
  levelHistory := []
  timelineSeq := ∅

/-- A dialog, the call twice, and a second dialog that is rolled back. -/
def talkedRun : List GrowthInput :=
  [.addGrowth 7 .dialog 0 0 5 false, .addVoiceGrowth 7 90 3 false, .addVoiceGrowth 7 90 3 false,
    .addGrowth 7 .dialog 0 2 6 true]

theorem growth_ledger_kept_talked :
    pointsOf (growthMachine.after ⟨talkedDb, []⟩ talkedRun).db 7 = 252 ∧
      LedgerKept (growthMachine.after ⟨talkedDb, []⟩ talkedRun) 7 :=
  ⟨by decide, growth_ledger_kept (Machine.reachable_after
    ⟨⟨rfl, rfl, fun _ => ⟨rfl, rfl⟩⟩, rfl⟩ rfl) 7⟩

end CompanionBackend.GrowthLedger
