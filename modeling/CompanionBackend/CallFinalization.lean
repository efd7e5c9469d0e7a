import CompanionBackend.QuotaSettlement
import CompanionBackend.VoiceGrowth

/-!
# The finalizer of a voice call

`_end_call_once` locks the call and, while its status is active, settles the
meter, flushes the turns, stages the terminal state with its card and files the
growth, all in one transaction. `Finalized` says once what a committed
finalization has written.
-/
namespace CompanionBackend.CallFinalization

open Runs VoiceModels VoiceQuota TimelineSequence VoiceLifecycle VoiceGrowth

/-- The process-local owner of a call: its meter, and the turns its final flush leaves. -/
structure LocalVoiceCall (id : CallId) where
  meter : ConnectedMeter
  finalFlush : Option (Except CallError (List VoiceCallTurn))
  meter_callId : meter.callId = id

/-- What the cache holds under `voice:quota:` for the call. -/
inductive Checkpoint
  | missing
  | invalid
  | stored (meter : ConnectedMeter)

/-- One invocation of `_end_call_once`: its arguments, the registry and the cache as it finds
them, the server time, and whether the follow-up staging and the commit go through. No owner
assigns `on_finalize`. -/
structure EndCall where
  callId : CallId
  userId : Option UserId
  reason : EndReason
  now : ℤ
  localCall : Option (LocalVoiceCall callId)
  checkpoint : Checkpoint
  followup : Except CallError Unit
  commit : Except CallError Unit

/-- `VoiceQuotaService.recover`, up to the settlement. -/
def recover (checkpoint : Checkpoint) (id : CallId) (user : UserId) :
    Except QuotaError ConnectedMeter :=
  match checkpoint with
  | .missing => .error .checkpointMissing
  | .invalid => .error .checkpointInvalid
  | .stored meter => do
    require (meter.callId = id ∧ meter.userId = user) .checkpointOwnerMismatch
    pure meter

/-- The meter that is settled: the local one, else the recovered checkpoint. -/
def finalMeter (e : EndCall) (owner : UserId) : Except QuotaError ConnectedMeter :=
  match e.localCall with
  | some l => .ok l.meter
  | none => recover e.checkpoint e.callId owner

/-- Settlement of a call that was connected. -/
def settleFinal (e : EndCall) (row : VoiceCall) (db : VoiceDb) : Except CallError VoiceDb :=
  if row.connectedAt.isSome then do
    let meter ← (finalMeter e row.userId).mapError .quota
    let (db, _) ← (settle meter db).mapError .quota
    pure db
  else pure db

/-- `local.final_flush`. -/
def flushTurns (e : EndCall) (db : VoiceDb) : Except CallError VoiceDb :=
  match e.localCall.bind (·.finalFlush) with
  | some flushed => do
    let turns ← flushed
    pure { db with turns := Function.update db.turns e.callId turns }
  | none => pure db

/-- Growth of a call that was connected. -/
def fileGrowth (id : CallId) (db : VoiceDb) : Except CallError VoiceDb := do
  let row ← orRaise (db.call id) .callNotFound
  if row.connectedAt.isSome then do
    let (db, _) ← addVoiceGrowth row.userId row.growthEligibleSeconds id db
    pure db
  else pure db

/-- `_end_call_once`; the result is `changed`. -/
def endCall (e : EndCall) : Transaction CallError VoiceDb Bool := fun db => do
  require (∀ l ∈ e.localCall, ∀ u ∈ e.userId, l.meter.userId = u) .callNotFound
  let row ← orRaise (db.call e.callId) .callNotFound
  require (∀ u ∈ e.userId, row.userId = u) .callNotFound
  if row.status.active then do
    let db ← settleFinal e row db
    let db ← flushTurns e db
    -- The row of the session shows what the settlement wrote.
    let row ← orRaise (db.call e.callId) .callNotFound
    let (staged, _) ← stageFinalState row e.reason e.now
    let db ← stageCallCard db e.callId staged
    stageMissedFollowup staged.status e.followup
    let db ← fileGrowth e.callId db
    e.commit
    pure (db, true)
  else do
    e.commit
    pure (db, false)

/-! ### The settlement inside a finalization -/

/-- The columns that decide a final state; bookkeeping columns may differ. -/
structure SameFacts (row row' : VoiceCall) : Prop where
  userId : row'.userId = row.userId
  status : row'.status = row.status
  connectedAt : row'.connectedAt = row.connectedAt
  sortSeq : row'.sortSeq = row.sortSeq
  deletionFenceAt : row'.deletionFenceAt = row.deletionFenceAt

namespace SameFacts

variable {row row' : VoiceCall}

theorem refl (row : VoiceCall) : SameFacts row row := ⟨rfl, rfl, rfl, rfl, rfl⟩

theorem settledCall (row : VoiceCall) (m : ConnectedMeter) : SameFacts row (settledCall row m) :=
  ⟨rfl, rfl, rfl, rfl, rfl⟩

theorem replayedCall (row : VoiceCall) (m : ConnectedMeter) :
    SameFacts row (replayedCall row m) := by
  unfold VoiceQuota.replayedCall
  split_ifs
  · exact ⟨rfl, rfl, rfl, rfl, rfl⟩
  · exact refl row

theorem finalStatus_eq (h : SameFacts row row') (reason : EndReason) :
    finalStatus row' reason = finalStatus row reason := by
  simp only [finalStatus, h.connectedAt]

theorem cardDue_finalRow (h : SameFacts row row') (reason : EndReason) (now : ℤ) :
    cardDue (finalRow row' reason now) ↔ cardDue (finalRow row reason now) := by
  simp only [cardDue, finalRow, h.sortSeq, h.deletionFenceAt, h.finalStatus_eq]

end SameFacts

/-- A settled meter belongs to the call and to its owner. -/
theorem finalMeter_callId {e : EndCall} {owner : UserId} {m : ConnectedMeter}
    (h : finalMeter e owner = .ok m) : m.callId = e.callId := by
  unfold finalMeter at h
  cases hlocal : e.localCall with
  | some l =>
    rw [hlocal] at h
    obtain rfl := Except.ok.inj h
    exact l.meter_callId
  | none =>
    rw [hlocal] at h
    cases hcheck : e.checkpoint with
    | missing => simp [recover, hcheck] at h
    | invalid => simp [recover, hcheck] at h
    | stored meter =>
      simp only [recover, hcheck] at h
      obtain ⟨_, howner, h⟩ := bind_eq_ok.mp h
      obtain rfl := pure_eq_ok.mp h
      exact (require_eq_ok.mp howner).1

/-- What the settlement of the call `id` leaves: its row keeps the deciding columns, and only
the row, the account and the ledger of this call are written. -/
structure SettleFrame (id : CallId) (row : VoiceCall) (db db' : VoiceDb) : Prop where
  call_eq : ∃ row', db'.call id = some row' ∧ SameFacts row row'
  calls_of_other : ∀ id', id' ≠ id → db'.call id' = db.call id'
  ledgerOf_other : ∀ id', id' ≠ id → db'.ledgerOf id' = db.ledgerOf id'
  rest : db' = { db with calls := db'.calls, accounts := db'.accounts, ledger := db'.ledger }

theorem SettleFrame.refl {id : CallId} {row : VoiceCall} {db : VoiceDb}
    (h : db.call id = some row) : SettleFrame id row db db :=
  ⟨⟨row, h, SameFacts.refl row⟩, fun _ _ => rfl, fun _ _ => rfl, rfl⟩

theorem settle_frame {m : ConnectedMeter} {db db' : VoiceDb} {r : Settlement} {row : VoiceCall}
    (hrow : db.call m.callId = some row) (h : settle m db = .ok (db', r)) :
    SettleFrame m.callId row db db' := by
  rcases settle_cases h with hreplayed | ⟨call, existing, ds, day, hdebited⟩
  · refine ⟨?_, fun _ => hreplayed.call_of_other, fun id' _ => ?_, ?_⟩
    · obtain ⟨call, hcall, -, rfl⟩ := hreplayed.call
      obtain rfl : row = call := Option.some.inj (hrow.symm.trans hcall)
      exact ⟨_, VoiceDb.call_putCall_self _ _ _, SameFacts.replayedCall _ _⟩
    · rw [VoiceDb.ledgerOf, hreplayed.ledger_eq]
      rfl
    · obtain ⟨call, -, -, rfl⟩ := hreplayed.call
      rfl
  · obtain rfl : row = call := Option.some.inj (hrow.symm.trans hdebited.call_eq)
    refine ⟨⟨_, hdebited.call_self, SameFacts.settledCall _ _⟩,
      fun _ => hdebited.call_of_other, fun _ => hdebited.ledgerOf_other, ?_⟩
    rw [hdebited.db_eq]
    rfl

theorem settleFinal_frame {e : EndCall} {row : VoiceCall} {db db' : VoiceDb}
    (hrow : db.call e.callId = some row) (h : settleFinal e row db = .ok db') :
    SettleFrame e.callId row db db' := by
  unfold settleFinal at h
  split_ifs at h
  · obtain ⟨m, hm, h⟩ := bind_eq_ok.mp h
    obtain ⟨⟨db₁, r⟩, hsettle, h⟩ := bind_eq_ok.mp h
    obtain rfl := pure_eq_ok.mp h
    rw [mapError_eq_ok] at hm hsettle
    rw [← finalMeter_callId hm] at hrow ⊢
    exact settle_frame hrow hsettle
  · obtain rfl := pure_eq_ok.mp h
    exact SettleFrame.refl hrow

theorem flushTurns_eq {e : EndCall} {db db' : VoiceDb} (h : flushTurns e db = .ok db') :
    db' = { db with turns := db'.turns } := by
  unfold flushTurns at h
  split at h
  · obtain ⟨turns, _, h⟩ := bind_eq_ok.mp h
    obtain rfl := pure_eq_ok.mp h
    rfl
  · obtain rfl := pure_eq_ok.mp h
    rfl

/-! ### The growth inside a finalization -/

/-- What the growth of the call `id` leaves: its row keeps all but the growth columns, and
only the growth tables are written besides. -/
structure GrowthFrame (id : CallId) (row : VoiceCall) (db db' : VoiceDb) : Prop where
  call_eq : ∃ eligible points, db'.call id = some (withGrowth row eligible points)
  calls_of_other : ∀ id', id' ≠ id → db'.call id' = db.call id'
  growthOf_other : ∀ id', id' ≠ id → growthOf db' id' = growthOf db id'
  rest : db' = { db with
    calls := db'.calls, relationships := db'.relationships
    growthLogs := db'.growthLogs, levelHistory := db'.levelHistory }
  filed : row.connectedAt.isSome = true → growthOf db id = [] → Filed db db' row.userId id
  skipped : row.connectedAt = none → db' = db

theorem growthOf_append_other {db db' : VoiceDb} {log : RelationshipGrowthLog} {id id' : CallId}
    (hlogs : db'.growthLogs = db.growthLogs ++ [log]) (hsource : log.source = .voiceCall id)
    (hid : id' ≠ id) : growthOf db' id' = growthOf db id' := by
  have hother : ¬ log.source = .voiceCall id' := by
    rw [hsource]
    intro h
    exact hid (GrowthSource.voiceCall.inj h).symm
  simp [growthOf, hlogs, List.filter_append, hother]

theorem growthOf_append_self {db db' : VoiceDb} {log : RelationshipGrowthLog} {id : CallId}
    (hlogs : db'.growthLogs = db.growthLogs ++ [log]) (hsource : log.source = .voiceCall id) :
    growthOf db' id = growthOf db id ++ [log] := by
  simp [growthOf, hlogs, List.filter_append, hsource]

theorem filed_frame {id : CallId} {row : VoiceCall} {db db' : VoiceDb}
    (hrow : db.call id = some row) (hconnected : row.connectedAt.isSome = true)
    (h : Filed db db' row.userId id) : GrowthFrame id row db db' := by
  obtain ⟨log, hsource, -, -, hlogs, -, call, hcall, hcall'⟩ := h.filed
  obtain rfl : row = call := Option.some.inj (hrow.symm.trans hcall)
  refine ⟨⟨_, _, hcall'⟩, h.calls_of_other, fun _ => growthOf_append_other hlogs hsource, h.rest,
    fun _ _ => h, fun hnone => ?_⟩
  rw [hnone] at hconnected
  exact absurd hconnected Bool.false_ne_true

theorem fileGrowth_frame {id : CallId} {row : VoiceCall} {db db' : VoiceDb}
    (hrow : db.call id = some row) (h : fileGrowth id db = .ok db') :
    GrowthFrame id row db db' := by
  rw [fileGrowth, hrow, orRaise_some, ok_bind] at h
  split_ifs at h with hconnected
  · obtain ⟨⟨db₁, r⟩, hgrowth, h⟩ := bind_eq_ok.mp h
    obtain rfl := pure_eq_ok.mp h
    by_cases hfresh : growthOf db id = []
    · exact filed_frame hrow hconnected (addVoiceGrowth_filed hfresh hgrowth)
    · obtain ⟨-, hrest, -⟩ := addVoiceGrowth_replayed hfresh hgrowth
      rw [hrest]
      refine ⟨⟨_, _, hrow⟩, fun _ _ => rfl, fun _ _ => rfl, rfl, fun _ h => absurd h hfresh, ?_⟩
      intro hnone
      rw [hnone] at hconnected
      exact absurd hconnected Bool.false_ne_true
  · obtain rfl := pure_eq_ok.mp h
    exact ⟨⟨_, _, hrow⟩, fun _ _ => rfl, fun _ _ => rfl, rfl, fun h => absurd h hconnected,
      fun _ => rfl⟩

/-! ### Committed finalizations -/

/-- The growth a finalization files for a connected call. -/
structure GrowthFiled (id : CallId) (row row' : VoiceCall) (db db' : VoiceDb)
    (log : RelationshipGrowthLog) : Prop where
  source : log.source = .voiceCall id
  userId : log.userId = row.userId
  nonneg : 0 ≤ log.points
  logs : db'.growthLogs = db.growthLogs ++ [log]
  raised : (relationshipOf db' row.userId).growthValue =
    (relationshipOf db row.userId).growthValue + log.points
  points : row'.growthPoints = log.points

/-- An invocation that committed with `changed`: `row` before it, `row'` after it. -/
structure Finalized (e : EndCall) (db db' : VoiceDb) (row row' : VoiceCall) : Prop where
  row_eq : db.call e.callId = some row
  active : row.status.active = true
  row_eq' : db'.call e.callId = some row'
  status : row'.status = finalStatus row e.reason
  endReason : row'.endReason =
    some (if finalStatus row e.reason = .cancelled then .userCancel else e.reason)
  endedAt : row'.endedAt = some e.now
  connectedAt : row'.connectedAt = row.connectedAt
  userId : row'.userId = row.userId
  fence : row'.deletionFenceAt = row.deletionFenceAt
  sortSeq : row'.sortSeq = if cardDue (finalRow row e.reason e.now)
    then some (nextSeq (db.timelineSeq.lookup row.userId)) else row.sortSeq
  counter : nextSeq (db'.timelineSeq.lookup row.userId) =
    nextSeq (db.timelineSeq.lookup row.userId) +
      if cardDue (finalRow row e.reason e.now) then 1 else 0
  settled : row.connectedAt.isSome = true → ∃ m db₁ r, finalMeter e row.userId = .ok m ∧
    settle m db = .ok (db₁, r) ∧ db'.ledger = db₁.ledger ∧ db'.accounts = db₁.accounts
  unsettled : row.connectedAt = none → db'.ledger = db.ledger ∧ db'.accounts = db.accounts
  growth : row.connectedAt.isSome = true → growthOf db e.callId = [] →
    ∃ log, GrowthFiled e.callId row row' db db' log
  no_growth : row.connectedAt = none →
    db'.growthLogs = db.growthLogs ∧ db'.relationships = db.relationships
  calls_of_other : ∀ id, id ≠ e.callId → db'.call id = db.call id
  ledgerOf_other : ∀ id, id ≠ e.callId → db'.ledgerOf id = db.ledgerOf id
  growthOf_other : ∀ id, id ≠ e.callId → growthOf db' id = growthOf db id

/-- The stages of a finalization, put together. -/
theorem finalized_of_stages {e : EndCall} {db db₁ db₂ db₃ db₄ : VoiceDb}
    {row row₂ staged : VoiceCall} {fresh : Bool} (hrow : db.call e.callId = some row)
    (hactive : row.status.active = true) (hsettle : settleFinal e row db = .ok db₁)
    (hflush : flushTurns e db₁ = .ok db₂) (hrow₂ : db₂.call e.callId = some row₂)
    (hstage : stageFinalState row₂ e.reason e.now = .ok (staged, fresh))
    (hcard : stageCallCard db₂ e.callId staged = .ok db₃)
    (hgrowth : fileGrowth e.callId db₃ = .ok db₄) :
    ∃ row', Finalized e db db₄ row row' := by
  have hs := settleFinal_frame hrow hsettle
  have hf := flushTurns_eq hflush
  obtain ⟨row₁, hrow₁, hsame⟩ := hs.call_eq
  obtain rfl : row₁ = row₂ := by
    rw [hf] at hrow₂
    exact Option.some.inj (hrow₁.symm.trans hrow₂)
  have hactive₁ : row₁.status.active = true := by rwa [hsame.status]
  rw [stageFinalState_of_active hactive₁] at hstage
  obtain ⟨rfl, -⟩ := Prod.mk.inj (Except.ok.inj hstage)
  have hc := stageCallCard_eq_ok hcard
  obtain ⟨summary, hrow₃⟩ := hc.row_eq
  have hg := fileGrowth_frame hrow₃ hgrowth
  obtain ⟨eligible, points, hrow₄⟩ := hg.call_eq
  have huser : (finalRow row₁ e.reason e.now).userId = row.userId := hsame.userId
  have hconnected : (finalRow row₁ e.reason e.now).connectedAt = row.connectedAt := hsame.connectedAt
  have hseq : db₂.timelineSeq = db.timelineSeq := by rw [hf, hs.rest]
  have hlogs : db₃.growthLogs = db.growthLogs := by rw [hc.rest, hf, hs.rest]
  have hrel : db₃.relationships = db.relationships := by rw [hc.rest, hf, hs.rest]
  have hledger : db₄.ledger = db₁.ledger := by rw [hg.rest, hc.rest, hf]
  have haccounts : db₄.accounts = db₁.accounts := by rw [hg.rest, hc.rest, hf]
  have hfresh : growthOf db e.callId = [] → growthOf db₃ e.callId = [] := by
    intro h
    rwa [growthOf, hlogs]
  have hdue := hsame.cardDue_finalRow e.reason e.now
  exact ⟨_, {
    row_eq := hrow
    active := hactive
    row_eq' := hrow₄
    status := hsame.finalStatus_eq _
    endReason := by
      change some (if finalStatus row₁ e.reason = .cancelled then _ else _) = _
      rw [hsame.finalStatus_eq]
    endedAt := rfl
    connectedAt := hsame.connectedAt
    userId := hsame.userId
    fence := hsame.deletionFenceAt
    sortSeq := by
      change (if _ then some (nextSeq (db₂.timelineSeq.lookup row₁.userId)) else row₁.sortSeq) = _
      rw [hsame.userId, hsame.sortSeq, hseq]
      exact if_congr hdue rfl rfl
    counter := by
      have hcounter := hc.counter
      rw [huser, hseq] at hcounter
      rw [hg.rest]
      simpa only [hdue] using hcounter
    settled := by
      intro hsome
      rw [settleFinal, if_pos hsome] at hsettle
      obtain ⟨m, hm, hsettle⟩ := bind_eq_ok.mp hsettle
      obtain ⟨⟨db', r⟩, hr, hsettle⟩ := bind_eq_ok.mp hsettle
      obtain rfl := pure_eq_ok.mp hsettle
      exact ⟨m, db', r, mapError_eq_ok.mp hm, mapError_eq_ok.mp hr, hledger, haccounts⟩
    unsettled := by
      intro hnone
      have hclosed : ¬ row.connectedAt.isSome = true := by simp [hnone]
      rw [settleFinal, if_neg hclosed] at hsettle
      obtain rfl := pure_eq_ok.mp hsettle
      exact ⟨hledger, haccounts⟩
    growth := by
      intro hsome hnew
      rw [← hconnected] at hsome
      obtain ⟨log, hsource, hlog, hnonneg, happend, hraised, call, hcall, hcall'⟩ :=
        (hg.filed hsome (hfresh hnew)).filed
      have hpoints := congrArg (Option.map (·.growthPoints)) (hrow₄.symm.trans hcall')
      refine ⟨log, hsource, hlog.trans huser, hnonneg, ?_, ?_, Option.some.inj hpoints⟩
      · rw [happend, hlogs]
      · rw [withCard_userId, huser] at hraised
        simpa only [relationshipOf, hrel] using hraised
    no_growth := by
      intro hnone
      obtain rfl := hg.skipped (hconnected.trans hnone)
      exact ⟨hlogs, hrel⟩
    calls_of_other := by
      intro id hid
      rw [hg.calls_of_other id hid, hc.others id hid, hf]
      exact hs.calls_of_other id hid
    ledgerOf_other := by
      intro id hid
      rw [VoiceDb.ledgerOf, hledger]
      exact hs.ledgerOf_other id hid
    growthOf_other := by
      intro id hid
      rw [hg.growthOf_other id hid, growthOf, hlogs]
      rfl }⟩

/-- The inversion of `endCall`: a replay on a terminal row, or a finalization. -/
theorem endCall_cases {e : EndCall} {db db' : VoiceDb} {changed : Bool}
    (h : endCall e db = .ok (db', changed)) :
    (changed = false ∧ db' = db ∧ ∃ row, db.call e.callId = some row ∧ row.status.terminal = true) ∨
      (changed = true ∧ ∃ row row', Finalized e db db' row row') := by
  obtain ⟨_, _, h⟩ := bind_eq_ok.mp h
  obtain ⟨row, hrow, h⟩ := bind_eq_ok.mp h
  obtain ⟨_, _, h⟩ := bind_eq_ok.mp h
  rw [orRaise_eq_ok] at hrow
  by_cases hactive : row.status.active = true
  · rw [if_pos hactive] at h
    obtain ⟨db₁, hsettle, h⟩ := bind_eq_ok.mp h
    obtain ⟨db₂, hflush, h⟩ := bind_eq_ok.mp h
    obtain ⟨row₂, hrow₂, h⟩ := bind_eq_ok.mp h
    obtain ⟨⟨staged, _⟩, hstage, h⟩ := bind_eq_ok.mp h
    obtain ⟨db₃, hcard, h⟩ := bind_eq_ok.mp h
    obtain ⟨_, _, h⟩ := bind_eq_ok.mp h
    obtain ⟨db₄, hgrowth, h⟩ := bind_eq_ok.mp h
    obtain ⟨_, _, h⟩ := bind_eq_ok.mp h
    obtain ⟨rfl, rfl⟩ := Prod.mk.inj (pure_eq_ok.mp h)
    refine .inr ⟨rfl, row, ?_⟩
    exact finalized_of_stages hrow hactive hsettle hflush (orRaise_eq_ok.mp hrow₂) hstage hcard hgrowth
  · rw [if_neg hactive] at h
    obtain ⟨_, _, h⟩ := bind_eq_ok.mp h
    obtain ⟨rfl, rfl⟩ := Prod.mk.inj (pure_eq_ok.mp h)
    exact .inl ⟨rfl, rfl, row, hrow, by simpa using hactive⟩

end CompanionBackend.CallFinalization
