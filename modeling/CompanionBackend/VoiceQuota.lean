import Mathlib.Data.List.Sort
import CompanionBackend.Runs
import CompanionBackend.KeyedSums
import CompanionBackend.VoiceModels

/-!
# Connected meter and quota settlement

`VoiceQuotaService`, statement by statement. Observation reads the account and
the ledger and returns a new meter; only a grant, the allowance of a new call
and a settlement write. Exact rational seconds stand in for floats. Row locks
make each transaction atomic and a raised one is rolled back.
-/
namespace CompanionBackend.VoiceQuota

open Runs KeyedSums ShanghaiClock VoiceModels

/-- The messages of `QuotaError`, and the `TypeError` of parsing an absent instant. -/
inductive QuotaError
  | dailyQuotaInvalid | quotaClockReversed
  | quotaAdminAmountInvalid | quotaAdminVersionInvalid | quotaAdminUserMissing
  | quotaAdminVersionConflict | quotaAdminActiveCall | quotaAdminBalanceOverflow
  | observationCheckpointStale | observationOutOfOrder
  | callOwnerMissing | legacyUsageNotReconstructable
  | settlementCheckpointConflict | usageSliceInvalid | quotaChangedBeforeSettlement
  | checkpointMissing | checkpointInvalid | checkpointOwnerMismatch
  | lastWallMissing
  deriving DecidableEq, Repr

structure Balance where
  free : ℤ
  extra : ℤ
  deriving DecidableEq, Repr

def Balance.total (b : Balance) : ℤ := b.free + b.extra

/-- One entry of `ConnectedMeter.slices`. -/
structure UsageSlice where
  quotaDate : ℤ
  usageType : UsageType
  durationSeconds : ℤ
  freeSecondsUsed : ℤ
  extraSecondsUsed : ℤ
  deriving DecidableEq, Repr

/-- Both server clocks, read together. -/
structure Reading where
  monotonic : ℚ
  wall : ℤ
  deriving DecidableEq, Repr

/-- `ConnectedMeter`. `lastSeen` joins `last_monotonic` with `last_wall` and
`grace` joins `grace_started` with `grace_wall`: the source sets each pair
together. The checks of `__post_init__` are the types and the last field. -/
structure ConnectedMeter where
  callId : CallId
  userId : UserId
  dailySeconds : ℕ
  graceLimit : ℕ
  lastSeen : Option Reading
  connected : Bool
  remainder : ℚ
  grace : Option Reading
  graceSeconds : ℤ
  slices : List UsageSlice
  muted : Bool
  growthSeconds : ℚ
  graceLimit_le : graceLimit ≤ 30
  deriving DecidableEq

namespace ConnectedMeter

/-- The meter the gateway builds for a new call. -/
def fresh (callId : CallId) (userId : UserId) (dailySeconds graceLimit : ℕ)
    (h : graceLimit ≤ 30) : ConnectedMeter where
  callId := callId
  userId := userId
  dailySeconds := dailySeconds
  graceLimit := graceLimit
  lastSeen := none
  connected := false
  remainder := 0
  grace := none
  graceSeconds := 0
  slices := []
  muted := false
  growthSeconds := 0
  graceLimit_le := h

def graceStarted (m : ConnectedMeter) : Option ℚ := m.grace.map (·.monotonic)

/-- Fifteen seconds, an admissible limit. -/
theorem fifteen_le : 15 ≤ 30 := by decide

end ConnectedMeter

/-! ### Balance, grants and the allowance of a new call -/

/-- Ledger rows of the user's calls dated `day`. -/
def usedOn (db : VoiceDb) (user : UserId) (day : ℤ) : List VoiceUsageLedger :=
  db.ledger.filter fun row => db.owns user row.callId && decide (row.quotaDate = some day)

def freeUsedOn (db : VoiceDb) (user : UserId) (day : ℤ) : ℤ :=
  ((usedOn db user day).map (·.freeSecondsUsed)).sum

/-- `VoiceQuotaService.balance`. -/
def balance (db : VoiceDb) (user : UserId) (dailySeconds now : ℤ) (publishedConfig : Bool) :
    Except QuotaError Balance := do
  require (0 ≤ dailySeconds) .dailyQuotaInvalid
  match db.account user with
  | none => pure ⟨dailySeconds, 0⟩
  | some account =>
    require (account.freeQuotaDate ≤ shanghaiDay now) .quotaClockReversed
    let today := decide (account.freeQuotaDate = shanghaiDay now)
    let free := if today then account.freeRemainingSeconds else dailySeconds
    -- An empty account without ledger entries never turns into fresh free time.
    let republished := publishedConfig && today &&
      (decide (usedOn db user (shanghaiDay now) ≠ []) || decide (free ≠ 0))
    pure ⟨if republished then max 0 (dailySeconds - freeUsedOn db user (shanghaiDay now)) else free,
      account.extraRemainingSeconds⟩

structure GrantResult where
  freeRemainingSeconds : ℤ
  extraRemainingSeconds : ℤ
  remainingSeconds : ℤ
  version : ℤ
  deriving DecidableEq, Repr

/-- Some call of the user is in an active status. -/
def hasActiveCall (db : VoiceDb) (user : UserId) : Bool :=
  db.calls.entries.any fun e => decide (e.2.userId = user) && e.2.status.active

/-- The account row a grant writes to, created from the day's ledger when absent. -/
def accountForGrant (db : VoiceDb) (user : UserId) (dailySeconds now : ℤ) :
    Except QuotaError VoiceQuotaAccount :=
  match db.account user with
  | none => do
    require (hasActiveCall db user = false) .quotaAdminActiveCall
    pure ⟨shanghaiDay now, max 0 (dailySeconds - freeUsedOn db user (shanghaiDay now)), 0, 0⟩
  | some account => do
    require (account.freeQuotaDate ≤ shanghaiDay now) .quotaClockReversed
    pure account

/-- `VoiceQuotaService.grant_extra`. -/
def grantExtra (user : UserId) (secondsGranted expectedVersion dailySeconds now : ℤ) :
    Transaction QuotaError VoiceDb GrantResult := fun db => do
  require (1 ≤ secondsGranted ∧ secondsGranted ≤ 86400) .quotaAdminAmountInvalid
  require (0 ≤ expectedVersion) .quotaAdminVersionInvalid
  require (0 ≤ dailySeconds) .dailyQuotaInvalid
  require (user ∈ db.users) .quotaAdminUserMissing
  require (((db.account user).map (·.version)).getD 0 = expectedVersion) .quotaAdminVersionConflict
  let account ← accountForGrant db user dailySeconds now
  require (account.extraRemainingSeconds ≤ 2147483647 - secondsGranted) .quotaAdminBalanceOverflow
  let granted := { account with
    extraRemainingSeconds := account.extraRemainingSeconds + secondsGranted
    version := account.version + 1 }
  let written := db.putAccount user granted
  let result ← balance written user dailySeconds now true
  pure (written, ⟨result.free, result.extra, result.total, granted.version⟩)

/-- `VoiceQuotaService.apply_published_balance`; the caller passes a computed
balance, a number of seconds. -/
def applyPublishedBalance (user : UserId) (now : ℤ) (freeRemaining : ℕ) :
    Transaction QuotaError VoiceDb Unit := fun db =>
  match db.account user with
  | none => .ok (db, ())
  | some account =>
    if account.freeQuotaDate = shanghaiDay now ∧ account.freeRemainingSeconds ≠ freeRemaining then
      .ok (db.putAccount user { account with
        freeRemainingSeconds := freeRemaining
        version := account.version + 1 }, ())
    else .ok (db, ())

/-! ### Observation -/

def freeOn (slices : List UsageSlice) (day : ℤ) : ℤ :=
  sumWhere (fun s => decide (s.quotaDate = day)) (·.freeSecondsUsed) slices

def extraTotal (slices : List UsageSlice) : ℤ := (slices.map (·.extraSecondsUsed)).sum

/-- Seconds a set of ledger rows settled out of the allowance of one day. -/
def committedFreeOn (committed : List VoiceUsageLedger) (day : ℤ) : ℤ :=
  sumWhere (fun r => decide (r.quotaDate = some day)) (·.freeSecondsUsed) committed

def committedExtra (committed : List VoiceUsageLedger) : ℤ :=
  (committed.map (·.extraSecondsUsed)).sum

/-- What is left for this call on a day: the balance less its unsettled usage. -/
def unreserved (balance : Balance) (slices : List UsageSlice) (committed : List VoiceUsageLedger)
    (day : ℤ) : Except QuotaError Balance := do
  let free := freeOn slices day - committedFreeOn committed day
  let extra := extraTotal slices - committedExtra committed
  require (0 ≤ free ∧ 0 ≤ extra) .observationCheckpointStale
  pure ⟨max 0 (balance.free - free), max 0 (balance.extra - extra)⟩

/-- The balance and reservations of the day of `now`. -/
def availableOn (db : VoiceDb) (m : ConnectedMeter) (now : ℤ) : Except QuotaError Balance := do
  let b ← balance db m.userId m.dailySeconds now false
  unreserved b m.slices (db.ledgerOf m.callId) (shanghaiDay now)

/-- `VoiceQuotaService.remaining`. -/
def remaining (db : VoiceDb) (m : ConnectedMeter) (now : ℤ) : Except QuotaError ℤ := do
  let b ← availableOn db m now
  pure b.total

/-- `VoiceQuotaService._append`: extend the last slice or open a new one. -/
def append (slices : List UsageSlice) (day : ℤ) (kind : UsageType)
    (secs free extra : ℤ) : List UsageSlice :=
  if secs = 0 then slices
  else
    match slices.getLast? with
    | some row =>
      if row.quotaDate = day ∧ row.usageType = kind then
        slices.dropLast ++ [{ row with
          durationSeconds := row.durationSeconds + secs
          freeSecondsUsed := row.freeSecondsUsed + free
          extraSecondsUsed := row.extraSecondsUsed + extra }]
      else slices ++ [⟨day, kind, secs, free, extra⟩]
    | none => slices ++ [⟨day, kind, secs, free, extra⟩]

/-- The variables of the connected-time loop of `observe`. -/
structure Charging where
  candidate : ConnectedMeter
  cursor : ℤ
  left : ℚ
  elapsed : ℚ

/-- One pass of the loop: the rest of the day of `cursor`, or what is left. -/
def chargePortion (db : VoiceDb) (last : ℚ) (c : Charging) : Except QuotaError Charging := do
  let m := c.candidate
  let toBoundary := seconds (nextMidnight c.cursor - c.cursor)
  let portion := min c.left toBoundary
  let b ← availableOn db m c.cursor
  let available := b.total
  let whole := ⌊portion + m.remainder + tolerance⌋
  let charged := min whole available
  let fromFree := min charged b.free
  let slices := append m.slices (shanghaiDay c.cursor) .connected charged fromFree (charged - fromFree)
  let offset := max 0 (available - m.remainder)
  -- Exhaustion exactly at midnight meets the next day's allowance instead.
  let resets := 0 < m.dailySeconds ∧ |offset - toBoundary| < tolerance
  let exhausted := available ≤ whole ∧ ¬ resets
  pure {
    candidate := { m with
      slices := slices
      remainder := if exhausted then 0 else portion + m.remainder - whole
      grace := if exhausted then some ⟨last + c.elapsed + offset, c.cursor + timedelta offset⟩
        else m.grace }
    cursor := c.cursor + timedelta portion
    left := c.left - portion
    elapsed := c.elapsed + portion }

/-- The loop, with at most `fuel` passes. -/
def chargeLoop (db : VoiceDb) (last : ℚ) : ℕ → Charging → Except QuotaError Charging
  | 0, c => pure c
  | fuel + 1, c =>
    if tolerance < c.left ∧ c.candidate.grace = none then do
      let c' ← chargePortion db last c
      chargeLoop db last fuel c'
    else pure c

/-- One pass for each calendar day the interval touches. -/
def daysTouched (cursor : ℤ) (left : ℚ) : ℕ :=
  (shanghaiDay (cursor + timedelta left) - shanghaiDay cursor).toNat + 1

/-- Connected time since the last reading, charged to the account. -/
def chargeConnected (db : VoiceDb) (m : ConnectedMeter) (monotonic : ℚ) :
    Except QuotaError ConnectedMeter :=
  match m.lastSeen with
  | some seen =>
    if m.connected = true ∧ m.grace = none then do
      let left := monotonic - seen.monotonic
      let c ← chargeLoop db seen.monotonic (daysTouched seen.wall left) ⟨m, seen.wall, left, 0⟩
      pure c.candidate
    else pure m
  | none => pure m

/-- The grace loop: every second of grace is filed under the day it begins in. -/
def fileGrace (slices : List UsageSlice) (cursor left : ℤ) : List UsageSlice :=
  if left = 0 then slices
  else
    let secs := min left (max 1 ⌈seconds (nextMidnight cursor - cursor)⌉)
    fileGrace (append slices (shanghaiDay cursor) .grace secs 0 0) (cursor + secs * 1000000)
      (left - secs)
termination_by left.natAbs
decreasing_by
  have hsecs : 1 ≤ max 1 ⌈seconds (nextMidnight cursor - cursor)⌉ := le_max_left _ _
  omega

/-- Seconds of closing grace passed by `monotonic`, up to the limit. -/
def gracePassed (m : ConnectedMeter) (started monotonic : ℚ) : ℤ :=
  min m.graceLimit (max 0 (pyInt (monotonic - started + tolerance)))

def extendGrace (m : ConnectedMeter) (monotonic : ℚ) : ConnectedMeter :=
  match m.grace with
  | some g =>
    let total := gracePassed m g.monotonic monotonic
    { m with
      slices := fileGrace m.slices (g.wall + m.graceSeconds * 1000000) (total - m.graceSeconds)
      graceSeconds := total }
  | none => m

def growthEnd (m : ConnectedMeter) (monotonic : ℚ) : ℚ :=
  match m.grace with
  | some g => min monotonic g.monotonic
  | none => monotonic

/-- Growth has its own clock: mute stops it, and it ends where grace begins. -/
def extendGrowth (m : ConnectedMeter) (monotonic : ℚ) : ConnectedMeter :=
  match m.lastSeen with
  | some seen =>
    if m.connected = true ∧ m.muted = false then
      { m with
        growthSeconds := m.growthSeconds + max 0 (growthEnd m monotonic - seen.monotonic) }
    else m
  | none => m

/-- The candidate meter that `observe` builds before it updates the caller's. -/
def observeCandidate (db : VoiceDb) (m : ConnectedMeter) (connected : Bool) (monotonic : ℚ)
    (now : ℤ) (muted : Bool) : Except QuotaError ConnectedMeter := do
  require (∀ seen ∈ m.lastSeen, seen.monotonic ≤ monotonic) .observationOutOfOrder
  let charged ← chargeConnected db m monotonic
  let grown := extendGrowth (extendGrace charged monotonic) monotonic
  pure { grown with
    muted := muted
    lastSeen := some ⟨monotonic, now⟩
    connected := connected }

structure Observed where
  inGrace : Bool
  graceSeconds : ℤ
  mustEnd : Bool
  deriving DecidableEq, Repr

/-- `VoiceQuotaService.observe`: the caller's meter afterwards, and the outcome. -/
def observe (db : VoiceDb) (m : ConnectedMeter) (connected : Bool) (monotonic : ℚ)
    (now : ℤ) (muted : Bool) : ConnectedMeter × Except QuotaError Observed :=
  match observeCandidate db m connected monotonic now muted with
  | .error e => (m, .error e)
  | .ok m' =>
    (m', .ok ⟨m'.grace.isSome, m'.graceSeconds,
      (m'.graceStarted.any fun g => decide (g + m'.graceLimit ≤ monotonic))⟩)

/-! ### Settlement -/

/-- `(quota_date, usage_type)`. -/
abbrev UsageKey := ℤ × UsageType

def UsageSlice.key (s : UsageSlice) : UsageKey := (s.quotaDate, s.usageType)

/-- A defaultdict entry `[duration, free, extra]`. -/
structure Totals where
  duration : ℤ
  free : ℤ
  extra : ℤ
  deriving DecidableEq, Repr

def totalsAt (slices : List UsageSlice) (k : UsageKey) : Totals where
  duration := sumAt UsageSlice.key (·.durationSeconds) k slices
  free := sumAt UsageSlice.key (·.freeSecondsUsed) k slices
  extra := sumAt UsageSlice.key (·.extraSecondsUsed) k slices

def deltaAt (desired existing : List UsageSlice) (k : UsageKey) : Totals where
  duration := (totalsAt desired k).duration - (totalsAt existing k).duration
  free := (totalsAt desired k).free - (totalsAt existing k).free
  extra := (totalsAt desired k).extra - (totalsAt existing k).extra

/-- Keys are sorted by ISO date, then by type text. -/
def keyLe (k l : UsageKey) : Prop := k.1 < l.1 ∨ (k.1 = l.1 ∧ ¬ l.2.label < k.2.label)

instance : DecidableRel keyLe := fun _ _ => inferInstanceAs (Decidable (_ ∨ _))

/-- `sorted(desired.keys() | existing.keys())`. -/
def usageKeys (desired existing : List UsageSlice) : List UsageKey :=
  ((desired ++ existing).map UsageSlice.key).dedup.insertionSort keyLe

/-- Equality of the two dictionaries: the same keys with the same entries. -/
def sameUsage (desired existing : List UsageSlice) : Prop :=
  (∀ k, k ∈ desired.map UsageSlice.key ↔ k ∈ existing.map UsageSlice.key) ∧
    ∀ k ∈ usageKeys desired existing, totalsAt desired k = totalsAt existing k

instance (desired existing : List UsageSlice) : Decidable (sameUsage desired existing) :=
  have : Decidable (∀ k, k ∈ desired.map UsageSlice.key ↔ k ∈ existing.map UsageSlice.key) :=
    decidable_of_iff ((∀ k ∈ desired.map UsageSlice.key, k ∈ existing.map UsageSlice.key) ∧
        ∀ k ∈ existing.map UsageSlice.key, k ∈ desired.map UsageSlice.key)
      ⟨fun h k => ⟨h.1 k, h.2 k⟩, fun h => ⟨fun k => (h k).mp, fun k => (h k).mpr⟩⟩
  inferInstanceAs (Decidable (_ ∧ _))

/-- A ledger row read back as usage; legacy evidence cannot be. -/
def asUsage (row : VoiceUsageLedger) : Except QuotaError UsageSlice :=
  match row.durationSeconds, row.quotaDate with
  | some duration, some day =>
    .ok ⟨day, row.usageType, duration, row.freeSecondsUsed, row.extraSecondsUsed⟩
  | _, _ => .error .legacyUsageNotReconstructable

/-- The nonzero differences, in key order; a meter behind its ledger conflicts. -/
def usageDeltas (desired existing : List UsageSlice) :
    Except QuotaError (List (UsageKey × Totals)) := do
  let ds := (usageKeys desired existing).map fun k => (k, deltaAt desired existing k)
  require (∀ d ∈ ds, 0 ≤ d.2.duration ∧ 0 ≤ d.2.free ∧ 0 ≤ d.2.extra) .settlementCheckpointConflict
  pure (ds.filter fun d => decide (d.2 ≠ ⟨0, 0, 0⟩))

/-- The test behind `usage_slice_invalid`. -/
def validDelta (d : UsageKey × Totals) : Prop :=
  0 ≤ d.2.duration ∧ (d.1.2 = .connected ∧ d.2.duration = d.2.free + d.2.extra ∨
    d.1.2 = .grace ∧ d.2.free = 0 ∧ d.2.extra = 0)

instance : DecidablePred validDelta := fun _ => inferInstanceAs (Decidable (_ ∧ _))

/-- `free_by_day[day]`. -/
def freeByDay (deltas : List (UsageKey × Totals)) (day : ℤ) : ℤ :=
  sumWhere (fun d => decide (d.1.1 = day)) (·.2.free) deltas

def extraDelta (deltas : List (UsageKey × Totals)) : ℤ := (deltas.map (·.2.extra)).sum

/-- The account a settlement debits, created for the day when absent. -/
def accountForSettlement (db : VoiceDb) (m : ConnectedMeter) (day : ℤ) : VoiceQuotaAccount :=
  (db.account m.userId).getD ⟨day, m.dailySeconds, 0, 0⟩

/-- What a day's free usage may still be debited. -/
def freeLimit (account : VoiceQuotaAccount) (m : ConnectedMeter) (day : ℤ) : ℤ :=
  if day = account.freeQuotaDate then account.freeRemainingSeconds else m.dailySeconds

/-- Roll the free quota to the day of the meter, then debit the differences. -/
def debit (account : VoiceQuotaAccount) (m : ConnectedMeter) (day : ℤ)
    (deltas : List (UsageKey × Totals)) : VoiceQuotaAccount :=
  let rolled := if account.freeQuotaDate < day then
      { account with freeQuotaDate := day, freeRemainingSeconds := m.dailySeconds }
    else account
  { rolled with
    freeRemainingSeconds := rolled.freeRemainingSeconds - freeByDay deltas day
    extraRemainingSeconds := rolled.extraRemainingSeconds - extraDelta deltas
    version := rolled.version + 1 }

/-- `max((r.segment_seq for r in rows), default=0)`. -/
def lastSegment (rows : List VoiceUsageLedger) : ℤ := ((rows.map (·.segmentSeq)).max?).getD 0

/-- The new ledger rows, numbered after the last segment. -/
def segments (callId : CallId) : ℤ → List (UsageKey × Totals) → List VoiceUsageLedger
  | _, [] => []
  | seq, d :: ds =>
    ⟨callId, seq + 1, d.2.free, d.2.extra, d.1.2, some d.2.duration, some d.1.1⟩ ::
      segments callId (seq + 1) ds

def billed (kind : UsageType) (slices : List UsageSlice) : ℤ :=
  sumWhere (fun s => decide (s.usageType = kind)) (·.durationSeconds) slices

/-- Whole growth seconds, at most the billed connected seconds. -/
def eligibleSeconds (m : ConnectedMeter) : ℤ :=
  min (billed .connected m.slices) ⌊m.growthSeconds + tolerance⌋

/-- A replay may still advance the growth clock of an active call. -/
def replayedCall (call : VoiceCall) (m : ConnectedMeter) : VoiceCall :=
  if call.status.active then
    { call with growthEligibleSeconds := max call.growthEligibleSeconds (eligibleSeconds m) }
  else call

def settledCall (call : VoiceCall) (m : ConnectedMeter) : VoiceCall :=
  { call with
    freeSecondsUsed := (m.slices.map (·.freeSecondsUsed)).sum
    extraSecondsUsed := extraTotal m.slices
    graceSeconds := billed .grace m.slices
    growthEligibleSeconds := eligibleSeconds m
    durationSeconds := billed .connected m.slices + billed .grace m.slices }

structure Settlement where
  idempotent : Bool
  freeSecondsUsed : ℤ
  extraSecondsUsed : ℤ
  deriving DecidableEq, Repr

/-- `VoiceQuotaService._settle`. -/
def settle (m : ConnectedMeter) : Transaction QuotaError VoiceDb Settlement := fun db => do
  require (m.userId ∈ db.users) .callOwnerMissing
  match db.call m.callId with
  | none => .error .callOwnerMissing
  | some call =>
    require (call.userId = m.userId) .callOwnerMissing
    let rows := db.ledgerOf m.callId
    let existing ← rows.mapM asUsage
    if sameUsage m.slices existing then
      pure (db.putCall m.callId (replayedCall call m),
        ⟨true, call.freeSecondsUsed, call.extraSecondsUsed⟩)
    else do
      let deltas ← usageDeltas m.slices existing
      match m.lastSeen with
      | none => .error .lastWallMissing
      | some seen =>
        let day := shanghaiDay seen.wall
        let account := accountForSettlement db m day
        require (account.freeQuotaDate ≤ day) .quotaClockReversed
        require (∀ d ∈ deltas, validDelta d) .usageSliceInvalid
        require (∀ d ∈ deltas, freeByDay deltas d.1.1 ≤ freeLimit account m d.1.1)
          .quotaChangedBeforeSettlement
        require (extraDelta deltas ≤ account.extraRemainingSeconds) .quotaChangedBeforeSettlement
        let written := (db.putAccount m.userId (debit account m day deltas)).putCall m.callId
          (settledCall call m)
        let call' := settledCall call m
        pure ({ written with ledger := db.ledger ++ segments m.callId (lastSegment rows) deltas },
          ⟨false, call'.freeSecondsUsed, call'.extraSecondsUsed⟩)

end CompanionBackend.VoiceQuota
