import Mathlib.Data.List.AList
import Mathlib.Data.Rat.Defs
import CompanionBackend.ShanghaiClock

/-!
# Rows of the voice tables

One record for each ORM row the voice services read or write, and the database
they share. A keyed table is an association list with distinct keys, so two
rows never share a primary key; the ledger and the logs are append-only lists.
Columns that no modelled function reads are left out.
-/
namespace CompanionBackend.VoiceModels

abbrev CallId := ℕ
abbrev UserId := ℕ

/-- A table with a unique key column. -/
abbrev Table (κ ν : Type*) := AList fun _ : κ => ν

/-- `VOICE_CALL_STATUSES`. -/
inductive CallStatus
  | deciding | ringing | connected | reconnecting | ending
  | ended | missed | failed | cancelled
  deriving DecidableEq, Repr

namespace CallStatus

/-- `TERMINAL`. -/
def terminal : CallStatus → Bool
  | ended | missed | failed | cancelled => true
  | _ => false

/-- `ACTIVE`. -/
def active : CallStatus → Bool
  | deciding | ringing | connected | reconnecting | ending => true
  | _ => false

@[simp] theorem active_eq_not_terminal (s : CallStatus) : s.active = !s.terminal := by
  cases s <;> rfl

end CallStatus

/-- `REASONS`, and the free text the column also admits. -/
inductive EndReason
  | userHangup | userCancel | exitIntent | silenceTimeout | quotaExhausted
  | hardLimit | reconnectTimeout | providerError | systemError | characterMissed
  | other (label : String)
  deriving DecidableEq, Repr

/-- `VOICE_SUMMARY_STATUSES`. -/
inductive SummaryStatus
  | pending | ready | failed | notApplicable
  deriving DecidableEq, Repr

/-- `usage_type` of a slice; the column itself is free text. -/
inductive UsageType
  | connected | grace
  | other (label : String)
  deriving DecidableEq, Repr

/-- The text stored for the type. -/
def UsageType.label : UsageType → String
  | .connected => "connected"
  | .grace => "grace"
  | .other label => label

/-- `resolved_config.growth` of the frozen call configuration. -/
structure GrowthConfig where
  segmentSeconds : ℤ
  pointsPerSegment : ℤ
  dailyLimitPoints : ℤ
  timezone : String
  deriving DecidableEq, Repr

structure VoiceCall where
  userId : UserId
  status : CallStatus
  call01Fallback : Option Bool
  endReason : Option EndReason
  connectedAt : Option ℤ
  endedAt : Option ℤ
  durationSeconds : ℤ
  freeSecondsUsed : ℤ
  extraSecondsUsed : ℤ
  graceSeconds : ℤ
  growthEligibleSeconds : ℤ
  growthPoints : ℤ
  sortSeq : Option ℤ
  summaryStatus : SummaryStatus
  growthConfig : Option GrowthConfig
  deletionFenceAt : Option ℤ
  deletedAt : Option ℤ
  deriving DecidableEq, Repr

structure VoiceQuotaAccount where
  freeQuotaDate : ℤ
  freeRemainingSeconds : ℤ
  extraRemainingSeconds : ℤ
  version : ℤ
  deriving DecidableEq, Repr

/-- A settled ledger segment. A null duration or date marks legacy evidence. -/
structure VoiceUsageLedger where
  callId : CallId
  segmentSeq : ℤ
  freeSecondsUsed : ℤ
  extraSecondsUsed : ℤ
  usageType : UsageType
  durationSeconds : Option ℤ
  quotaDate : Option ℤ
  deriving DecidableEq, Repr

/-- `turn_status`. -/
inductive TurnStatus
  | collecting | finalized | interrupted | aborted
  deriving DecidableEq, Repr

/-- `effective_text_evidence`. -/
inductive TextEvidence
  | full | exactPlayed | confirmedSentences | none
  deriving DecidableEq, Repr

/-- The columns of `voice_call_turn` that end-of-call bookkeeping reads. -/
structure VoiceCallTurn where
  userTextFinal : Option (List Char)
  assistantTextEffective : Option (List Char)
  effectiveTextEvidence : TextEvidence
  turnStatus : TurnStatus
  /-- Both content-safety and both crisis statuses are `passed`. -/
  allChecksPassed : Bool
  deriving DecidableEq, Repr

structure Relationship where
  level : ℤ
  growthValue : ℤ
  proactiveTimes : ℤ
  lastInteractionAt : Option ℤ
  deriving DecidableEq, Repr

/-- `source_type` of a growth entry. -/
inductive GrowthSource
  | voiceCall (callId : CallId)
  | other (label : String)
  deriving DecidableEq, Repr

structure RelationshipGrowthLog where
  userId : UserId
  points : ℤ
  source : GrowthSource
  eligibleSeconds : ℤ
  businessDate : ℤ
  deriving DecidableEq, Repr

structure RelationshipLevelHistory where
  userId : UserId
  fromLevel : ℤ
  toLevel : ℤ
  deriving DecidableEq, Repr

/-- The tables a voice call touches. -/
structure VoiceDb where
  users : List UserId
  calls : Table CallId VoiceCall
  accounts : Table UserId VoiceQuotaAccount
  ledger : List VoiceUsageLedger
  turns : CallId → List VoiceCallTurn
  relationships : Table UserId Relationship
  growthLogs : List RelationshipGrowthLog
  levelHistory : List RelationshipLevelHistory
  /-- `user_timeline_seq.next_seq`. -/
  timelineSeq : Table UserId ℤ

namespace VoiceDb

def call (db : VoiceDb) (id : CallId) : Option VoiceCall := db.calls.lookup id

def account (db : VoiceDb) (user : UserId) : Option VoiceQuotaAccount := db.accounts.lookup user

def putCall (db : VoiceDb) (id : CallId) (row : VoiceCall) : VoiceDb :=
  { db with calls := db.calls.insert id row }

def putAccount (db : VoiceDb) (user : UserId) (row : VoiceQuotaAccount) : VoiceDb :=
  { db with accounts := db.accounts.insert user row }

theorem call_putCall (db : VoiceDb) (id id' : CallId) (row : VoiceCall) :
    (db.putCall id row).call id' = if id' = id then some row else db.call id' := by
  unfold call putCall
  split_ifs with h
  · subst h; simp
  · simp [AList.lookup_insert_ne h]

@[simp] theorem call_putCall_self (db : VoiceDb) (id : CallId) (row : VoiceCall) :
    (db.putCall id row).call id = some row := by simp [call_putCall]

@[simp] theorem call_putAccount (db : VoiceDb) (user : UserId) (row : VoiceQuotaAccount)
    (id : CallId) : (db.putAccount user row).call id = db.call id := rfl

theorem account_putAccount (db : VoiceDb) (user user' : UserId) (row : VoiceQuotaAccount) :
    (db.putAccount user row).account user' =
      if user' = user then some row else db.account user' := by
  unfold account putAccount
  split_ifs with h
  · subst h; simp
  · simp [AList.lookup_insert_ne h]

@[simp] theorem account_putAccount_self (db : VoiceDb) (user : UserId)
    (row : VoiceQuotaAccount) : (db.putAccount user row).account user = some row := by
  simp [account_putAccount]

@[simp] theorem account_putCall (db : VoiceDb) (id : CallId) (row : VoiceCall)
    (user : UserId) : (db.putCall id row).account user = db.account user := rfl

@[simp] theorem ledger_putCall (db : VoiceDb) (id : CallId) (row : VoiceCall) :
    (db.putCall id row).ledger = db.ledger := rfl

@[simp] theorem ledger_putAccount (db : VoiceDb) (user : UserId) (row : VoiceQuotaAccount) :
    (db.putAccount user row).ledger = db.ledger := rfl

/-- The ledger rows of one call. -/
def ledgerOf (db : VoiceDb) (id : CallId) : List VoiceUsageLedger :=
  db.ledger.filter fun row => decide (row.callId = id)

/-- The call belongs to the user. -/
def owns (db : VoiceDb) (user : UserId) (id : CallId) : Bool :=
  match db.call id with
  | some row => decide (row.userId = user)
  | none => false

end VoiceDb

end CompanionBackend.VoiceModels
