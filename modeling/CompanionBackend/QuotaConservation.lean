import CompanionBackend.QuotaSettlement

/-!
# Conservation of granted seconds over whole histories

Histories interleave grants, allowances of new calls, observations and
settlements of any meter copy ever held: the live meter, an older checkpoint,
or a copy that was already settled. Every operation is one transaction; a raised
one is rolled back. Extra seconds are neither created nor lost, and the ledger
of a call is the last meter settled for it.
-/
namespace CompanionBackend.QuotaConservation

open Runs KeyedSums ShanghaiClock VoiceModels VoiceQuota

/-- The database, every meter copy held so far, and two ghost records: the
seconds granted to each user and the last meter settled for each call. -/
structure QuotaWorld where
  db : VoiceDb
  meters : List ConnectedMeter
  granted : UserId → ℤ
  lastSettled : CallId → Option ConnectedMeter

inductive QuotaOp
  | grantExtra (user : UserId) (secondsGranted expectedVersion dailySeconds now : ℤ)
  | applyPublishedBalance (user : UserId) (now : ℤ) (freeRemaining : ℕ)
  | observe (copy : ℕ) (connected : Bool) (monotonic : ℚ) (now : ℤ) (muted : Bool)
  | settle (copy : ℕ)
  /-- Another writer stores a call row: a new call, or a lifecycle change. -/
  | storeCall (id : CallId) (row : VoiceCall)

/-- A call keeps its owner, and a new call id has no ledger rows. -/
def storable (db : VoiceDb) (id : CallId) (row : VoiceCall) : Bool :=
  match db.call id with
  | some old => decide (old.userId = row.userId)
  | none => (db.ledgerOf id).isEmpty

def quotaStep (w : QuotaWorld) : QuotaOp → Option QuotaWorld
  | .grantExtra user secondsGranted expectedVersion dailySeconds now =>
    match grantExtra user secondsGranted expectedVersion dailySeconds now w.db with
    | .ok (db, _) => some { w with
        db := db
        granted := Function.update w.granted user (w.granted user + secondsGranted) }
    | .error _ => some w
  | .applyPublishedBalance user now freeRemaining =>
    some { w with db := settled (applyPublishedBalance user now freeRemaining) w.db }
  | .observe copy connected monotonic now muted =>
    w.meters[copy]?.map fun m =>
      { w with meters := w.meters ++ [(observe w.db m connected monotonic now muted).1] }
  | .settle copy =>
    w.meters[copy]?.map fun m =>
      match settle m w.db with
      | .ok (db, _) => { w with
          db := db
          lastSettled := Function.update w.lastSettled m.callId (some m) }
      | .error _ => w
  | .storeCall id row =>
    if storable w.db id row then some { w with db := w.db.putCall id row } else none

/-- Histories of one user begin without an account, a ledger or a settlement. -/
def quotaMachine (user : UserId) : Machine QuotaWorld QuotaOp where
  start w := w.db.account user = none ∧ w.db.ledger = [] ∧ w.granted user = 0 ∧
    ∀ id, w.lastSettled id = none
  step := quotaStep

def extraRemaining (db : VoiceDb) (user : UserId) : ℤ :=
  ((db.account user).map (·.extraRemainingSeconds)).getD 0

/-- Extra seconds over all ledger rows of the user's calls. -/
def extraSettled (db : VoiceDb) (user : UserId) : ℤ :=
  sumWhere (fun row => db.owns user row.callId) (·.extraSecondsUsed) db.ledger

/-- What every history of the user keeps. -/
structure Conserved (user : UserId) (w : QuotaWorld) : Prop where
  balanced : extraRemaining w.db user + extraSettled w.db user = w.granted user
  nonneg : ∀ account, w.db.account user = some account →
    0 ≤ account.freeRemainingSeconds ∧ 0 ≤ account.extraRemainingSeconds
  unsettled : ∀ id, w.lastSettled id = none → w.db.ledgerOf id = []
  agrees : ∀ id m, w.lastSettled id = some m →
    ∀ k, rowTotals (w.db.ledgerOf id) k = totalsAt m.slices k
  known : ∀ id m, w.lastSettled id = some m → (w.db.call id).isSome = true

/-! ### Ownership -/

/-- Rewriting a call row under the same owner changes nobody's calls. -/
theorem owns_of_sameOwner {db db' : VoiceDb} {id : CallId} {old row : VoiceCall}
    (hold : db.call id = some old) (hrow : db'.call id = some row)
    (howner : row.userId = old.userId) (hother : ∀ id', id' ≠ id → db'.call id' = db.call id')
    (user : UserId) (id' : CallId) : db'.owns user id' = db.owns user id' := by
  by_cases h : id' = id
  · subst h; simp [VoiceDb.owns, hold, hrow, howner]
  · simp [VoiceDb.owns, hother id' h]

theorem extraSettled_congr {db db' : VoiceDb} {user : UserId} (hledger : db'.ledger = db.ledger)
    (howns : ∀ row ∈ db.ledger, db'.owns user row.callId = db.owns user row.callId) :
    extraSettled db' user = extraSettled db user := by
  unfold extraSettled
  rw [hledger]
  exact sumWhere_congr howns fun _ _ _ => rfl

/-! ### One step -/

theorem accountForGrant_spec {db : VoiceDb} {user : UserId} {dailySeconds now : ℤ}
    {account : VoiceQuotaAccount} (h : accountForGrant db user dailySeconds now = .ok account) :
    account.extraRemainingSeconds = extraRemaining db user ∧
      (0 ≤ account.freeRemainingSeconds ∨ db.account user = some account) := by
  unfold accountForGrant at h
  cases hacc : db.account user with
  | none =>
    simp only [hacc] at h
    obtain ⟨_, _, h⟩ := bind_eq_ok.mp h
    obtain rfl := pure_eq_ok.mp h
    exact ⟨by simp [extraRemaining, hacc], .inl (le_max_left _ _)⟩
  | some a =>
    simp only [hacc] at h
    obtain ⟨_, _, h⟩ := bind_eq_ok.mp h
    obtain rfl := pure_eq_ok.mp h
    exact ⟨by simp [extraRemaining, hacc], .inr rfl⟩

/-- A committed grant adds its seconds to the extra pool and touches nothing else. -/
theorem grantExtra_spec {user : UserId} {secs version dailySeconds now : ℤ} {db db' : VoiceDb}
    {r : GrantResult} (h : grantExtra user secs version dailySeconds now db = .ok (db', r)) :
    1 ≤ secs ∧ ∃ account, accountForGrant db user dailySeconds now = .ok account ∧
      db' = db.putAccount user { account with
        extraRemainingSeconds := account.extraRemainingSeconds + secs
        version := account.version + 1 } := by
  obtain ⟨_, hsecs, h⟩ := bind_eq_ok.mp h
  obtain ⟨_, _, h⟩ := bind_eq_ok.mp h
  obtain ⟨_, _, h⟩ := bind_eq_ok.mp h
  obtain ⟨_, _, h⟩ := bind_eq_ok.mp h
  obtain ⟨_, _, h⟩ := bind_eq_ok.mp h
  obtain ⟨account, haccount, h⟩ := bind_eq_ok.mp h
  obtain ⟨_, _, h⟩ := bind_eq_ok.mp h
  obtain ⟨_, _, h⟩ := bind_eq_ok.mp h
  obtain ⟨rfl, _⟩ := Prod.mk.inj (pure_eq_ok.mp h)
  exact ⟨(require_eq_ok.mp hsecs).1, account, haccount, rfl⟩

theorem grant_conserved {user target : UserId} {w : QuotaWorld} {secs version daily now : ℤ}
    {db' : VoiceDb} {r : GrantResult} (hw : Conserved user w)
    (h : grantExtra target secs version daily now w.db = .ok (db', r)) :
    Conserved user { w with
      db := db'
      granted := Function.update w.granted target (w.granted target + secs) } := by
  obtain ⟨hsecs, account, haccount, rfl⟩ := grantExtra_spec h
  obtain ⟨hextra, hfree⟩ := accountForGrant_spec haccount
  refine ⟨?_, ?_, hw.unsettled, hw.agrees, hw.known⟩
  · have hbal := hw.balanced
    change extraRemaining _ user + extraSettled w.db user = _
    by_cases hu : user = target
    · subst hu
      simp only [extraRemaining, VoiceDb.account_putAccount_self, Option.map_some,
        Option.getD_some, Function.update_self]
      omega
    · have : extraRemaining (w.db.putAccount target { account with
          extraRemainingSeconds := account.extraRemainingSeconds + secs
          version := account.version + 1 }) user = extraRemaining w.db user := by
        simp [extraRemaining, VoiceDb.account_putAccount, hu]
      change _ = Function.update w.granted target _ user
      rw [this, Function.update_of_ne hu]
      exact hbal
  · intro a ha
    simp only [VoiceDb.account_putAccount] at ha
    split_ifs at ha with hu
    · subst hu
      obtain rfl := Option.some.inj ha
      have hpool : 0 ≤ extraRemaining w.db user := by
        cases hacc : w.db.account user with
        | none => simp [extraRemaining, hacc]
        | some b => simpa [extraRemaining, hacc] using (hw.nonneg b hacc).2
      refine ⟨?_, by simp only; omega⟩
      rcases hfree with hfree | hacc
      · exact hfree
      · exact (hw.nonneg account hacc).1
    · exact hw.nonneg a ha

theorem publish_conserved {user target : UserId} {w : QuotaWorld} {now : ℤ} {freeRemaining : ℕ}
    (hw : Conserved user w) :
    Conserved user { w with db := settled (applyPublishedBalance target now freeRemaining) w.db } := by
  cases hacc : w.db.account target with
  | none => simpa [settled, applyPublishedBalance, hacc] using hw
  | some account =>
    by_cases hstale : account.freeQuotaDate = shanghaiDay now ∧
        account.freeRemainingSeconds ≠ freeRemaining
    · simp only [settled, applyPublishedBalance, hacc, if_pos hstale]
      refine ⟨?_, ?_, hw.unsettled, hw.agrees, hw.known⟩
      · have hbal := hw.balanced
        have hsame : ∀ a : VoiceQuotaAccount, a.extraRemainingSeconds = account.extraRemainingSeconds →
            extraRemaining (w.db.putAccount target a) user = extraRemaining w.db user := by
          intro a ha
          unfold extraRemaining
          rw [VoiceDb.account_putAccount]
          split_ifs with hu
          · subst hu; simp [hacc, ha]
          · rfl
        change extraRemaining (w.db.putAccount target _) user + extraSettled w.db user =
          w.granted user
        rw [hsame { account with
          freeRemainingSeconds := freeRemaining
          version := account.version + 1 } rfl]
        exact hbal
      · intro a ha
        simp only [VoiceDb.account_putAccount] at ha
        split_ifs at ha with hu
        · subst hu
          obtain rfl := Option.some.inj ha
          exact ⟨Int.natCast_nonneg _, (hw.nonneg account hacc).2⟩
        · exact hw.nonneg a ha
    · simpa [settled, applyPublishedBalance, hacc, if_neg hstale] using hw

/-- A debit never takes the account below zero. -/
theorem debit_nonneg {m : ConnectedMeter} {account : VoiceQuotaAccount} {day : ℤ}
    {ds : List (UsageKey × Totals)}
    (hclock : account.freeQuotaDate ≤ day) (hfree : 0 ≤ account.freeRemainingSeconds)
    (hlimit : ∀ d ∈ ds, freeByDay ds d.1.1 ≤ freeLimit account m d.1.1)
    (hextra : extraDelta ds ≤ account.extraRemainingSeconds) :
    0 ≤ (debit account m day ds).freeRemainingSeconds ∧
      0 ≤ (debit account m day ds).extraRemainingSeconds := by
  -- A day without differences is debited nothing; another one is within its limit.
  have hday : freeByDay ds day ≤ freeLimit account m day := by
    by_cases hex : ∃ d ∈ ds, d.1.1 = day
    · obtain ⟨d, hd, rfl⟩ := hex
      exact hlimit d hd
    · have hzero : freeByDay ds day = 0 :=
        sumWhere_eq_zero fun d hd hdd => absurd ⟨d, hd, of_decide_eq_true hdd⟩ hex
      rw [hzero]
      unfold freeLimit
      split_ifs
      · exact hfree
      · exact Int.natCast_nonneg _
  unfold debit freeLimit at *
  split_ifs at hday ⊢ with h1 h2 h2
  all_goals simp only
  all_goals constructor <;> omega

theorem settle_conserved {user : UserId} {w : QuotaWorld} {m : ConnectedMeter} {db' : VoiceDb}
    {r : Settlement} (hw : Conserved user w) (h : settle m w.db = .ok (db', r)) :
    Conserved user { w with
      db := db'
      lastSettled := Function.update w.lastSettled m.callId (some m) } := by
  have hcases := settle_cases h
  have hcall : ∃ old row, w.db.call m.callId = some old ∧ db'.call m.callId = some row ∧
      row.userId = old.userId ∧ old.userId = m.userId := by
    rcases hcases with hrep | ⟨call, existing, ds, day, hdeb⟩
    · obtain ⟨call, hc, ho, rfl⟩ := hrep.call
      exact ⟨call, _, hc, VoiceDb.call_putCall_self _ _ _, replayedCall_userId call m, ho⟩
    · exact ⟨call, _, hdeb.call_eq, hdeb.call_self, rfl, hdeb.owner⟩
  have hother : ∀ id, id ≠ m.callId → db'.call id = w.db.call id := by
    rcases hcases with hrep | ⟨call, existing, ds, day, hdeb⟩
    · exact fun id hid => hrep.call_of_other hid
    · exact fun id hid => hdeb.call_of_other hid
  obtain ⟨old, row, hold, hrow, hsame, howner⟩ := hcall
  have howns := owns_of_sameOwner hold hrow hsame hother
  have hledgerOf : ∀ id, id ≠ m.callId → db'.ledgerOf id = w.db.ledgerOf id := by
    rcases hcases with hrep | ⟨call, existing, ds, day, hdeb⟩
    · intro id _
      simp [VoiceDb.ledgerOf, hrep.ledger_eq]
    · exact fun id hid => hdeb.ledgerOf_other hid
  have hself : ∀ k, rowTotals (db'.ledgerOf m.callId) k = totalsAt m.slices k := by
    rcases hcases with hrep | ⟨call, existing, ds, day, hdeb⟩
    · exact hrep.rowTotals_self
    · exact hdeb.rowTotals_self
  refine ⟨?_, ?_, ?_, ?_, ?_⟩
  · have hbal := hw.balanced
    change extraRemaining db' user + extraSettled db' user = w.granted user
    rcases hcases with hrep | ⟨call, existing, ds, day, hdeb⟩
    · rw [extraSettled_congr hrep.ledger_eq fun row _ => howns user row.callId, extraRemaining,
        hrep.account_eq]
      exact hbal
    · have hold : sumWhere (fun row => db'.owns user row.callId) (·.extraSecondsUsed) w.db.ledger =
          extraSettled w.db user := sumWhere_congr (fun row _ => howns user row.callId) fun _ _ _ => rfl
      have hnew : sumWhere (fun row => db'.owns user row.callId) (·.extraSecondsUsed)
          (segments m.callId (lastSegment (w.db.ledgerOf m.callId)) ds) =
          if user = m.userId then extraDelta ds else 0 := by
        have hid := segments_callId m.callId (lastSegment (w.db.ledgerOf m.callId)) ds
        have hmine : db'.owns user m.callId = decide (m.userId = user) := by
          simp [VoiceDb.owns, hrow, hsame, howner]
        split_ifs with hu
        · rw [← extra_segments m.callId (lastSegment (w.db.ledgerOf m.callId)) ds, ← sumWhere_true]
          exact sumWhere_congr (fun row hr => by rw [hid row hr, hmine]; simp [hu]) fun _ _ _ => rfl
        · refine sumWhere_eq_zero fun row hr hp => ?_
          rw [hid row hr, hmine] at hp
          exact absurd (of_decide_eq_true hp).symm hu
      have hsum : extraSettled db' user =
          extraSettled w.db user + if user = m.userId then extraDelta ds else 0 := by
        rw [← hold, ← hnew, extraSettled, hdeb.ledger_eq, sumWhere_append]
      have hpool : extraRemaining db' user =
          extraRemaining w.db user - if user = m.userId then extraDelta ds else 0 := by
        unfold extraRemaining
        rw [hdeb.account_eq]
        split_ifs with hu
        · subst hu
          unfold accountForSettlement debit
          cases w.db.account m.userId <;> simp only [Option.getD] <;> split_ifs <;> rfl
        · simp
      rw [hsum, hpool]
      omega
  · intro account hacc
    rcases hcases with hrep | ⟨call, existing, ds, day, hdeb⟩
    · exact hw.nonneg account (by rw [← hrep.account_eq]; exact hacc)
    · rw [hdeb.account_eq] at hacc
      split_ifs at hacc with hu
      · obtain rfl := Option.some.inj hacc
        refine debit_nonneg hdeb.clock ?_ hdeb.free_le hdeb.extra_le
        unfold accountForSettlement
        cases hm : w.db.account m.userId with
        | none => exact Int.natCast_nonneg _
        | some a => exact (hw.nonneg a (hu ▸ hm)).1
      · exact hw.nonneg account hacc
  · intro id hid
    by_cases h' : id = m.callId
    · subst h'; simp at hid
    · change Function.update w.lastSettled m.callId (some m) id = none at hid
      rw [Function.update_of_ne h'] at hid
      exact (hledgerOf id h').trans (hw.unsettled id hid)
  · intro id m' hid k
    by_cases h' : id = m.callId
    · subst h'
      obtain rfl : m = m' := by simpa using hid
      exact hself k
    · change Function.update w.lastSettled m.callId (some m) id = some m' at hid
      rw [Function.update_of_ne h'] at hid
      change rowTotals (db'.ledgerOf id) k = _
      rw [hledgerOf id h']
      exact hw.agrees id m' hid k
  · intro id m' hid
    by_cases h' : id = m.callId
    · subst h'; simp [hrow]
    · change Function.update w.lastSettled m.callId (some m) id = some m' at hid
      rw [Function.update_of_ne h'] at hid
      change (db'.call id).isSome = true
      rw [hother id h']
      exact hw.known id m' hid

theorem storeCall_conserved {user : UserId} {w : QuotaWorld} {id : CallId} {row : VoiceCall}
    (hw : Conserved user w) (h : storable w.db id row = true) :
    Conserved user { w with db := w.db.putCall id row } := by
  refine ⟨?_, hw.nonneg, hw.unsettled, hw.agrees, ?_⟩
  · have hsum : extraSettled (w.db.putCall id row) user = extraSettled w.db user := by
      refine extraSettled_congr rfl fun r hr => ?_
      unfold storable at h
      cases hold : w.db.call id with
      | some old =>
        rw [hold] at h
        exact owns_of_sameOwner hold (VoiceDb.call_putCall_self _ _ _) (of_decide_eq_true h).symm
          (fun id' hid' => (VoiceDb.call_putCall _ _ _ _).trans (if_neg hid')) user r.callId
      | none =>
        rw [hold] at h
        -- A new id owns no ledger row, so no row changes hands.
        have hne : r.callId ≠ id := by
          intro hid
          have hempty : w.db.ledgerOf id = [] := by simpa using h
          exact List.filter_eq_nil_iff.mp hempty r hr (by simp [hid])
        simp [VoiceDb.owns, VoiceDb.call_putCall, hne]
    change extraRemaining w.db user + extraSettled (w.db.putCall id row) user = _
    rw [hsum]
    exact hw.balanced
  · intro id' m hid
    change ((w.db.putCall id row).call id').isSome = true
    rw [VoiceDb.call_putCall]
    split_ifs
    · rfl
    · exact hw.known id' m hid

theorem step_conserved {user : UserId} (w : QuotaWorld) (op : QuotaOp) (w' : QuotaWorld)
    (hw : Conserved user w) (h : quotaStep w op = some w') : Conserved user w' := by
  cases op with
  | grantExtra target secs version daily now =>
    simp only [quotaStep] at h
    split at h
    · obtain rfl := Option.some.inj h
      exact grant_conserved hw (by assumption)
    · obtain rfl := Option.some.inj h
      exact hw
  | applyPublishedBalance target now freeRemaining =>
    obtain rfl := Option.some.inj h
    exact publish_conserved hw
  | observe copy connected monotonic now muted =>
    obtain ⟨m, -, rfl⟩ := Option.map_eq_some_iff.mp h
    exact ⟨hw.balanced, hw.nonneg, hw.unsettled, hw.agrees, hw.known⟩
  | settle copy =>
    obtain ⟨m, -, rfl⟩ := Option.map_eq_some_iff.mp h
    split
    · exact settle_conserved hw (by assumption)
    · exact hw
  | storeCall id row =>
    simp only [quotaStep] at h
    split_ifs at h with hs
    obtain rfl := Option.some.inj h
    exact storeCall_conserved hw hs

theorem start_conserved {user : UserId} {w : QuotaWorld} (h : (quotaMachine user).start w) :
    Conserved user w := by
  obtain ⟨hacc, hledger, hgranted, hsettled⟩ := h
  refine ⟨?_, ?_, ?_, ?_, ?_⟩
  · simp [extraRemaining, extraSettled, hacc, hledger, hgranted]
  · intro account ha
    rw [hacc] at ha
    cases ha
  · intro id _
    simp [VoiceDb.ledgerOf, hledger]
  · intro id m hid
    rw [hsettled] at hid
    cases hid
  · intro id m hid
    rw [hsettled] at hid
    cases hid

/-- Over every history: granted seconds are exactly the remaining and the settled
ones, the account never goes below zero, the ledger of each call is the last meter
settled for it, and a settlement that replays or raises moves no money. -/
theorem granted_seconds_conserved (user : UserId) (w : QuotaWorld)
    (h : (quotaMachine user).Reachable w) :
    extraRemaining w.db user + extraSettled w.db user = w.granted user ∧
    (∀ account, w.db.account user = some account →
      0 ≤ account.freeRemainingSeconds ∧ 0 ≤ account.extraRemainingSeconds) ∧
    (∀ id, w.lastSettled id = none → w.db.ledgerOf id = []) ∧
    (∀ id m, w.lastSettled id = some m →
      ∀ k, rowTotals (w.db.ledgerOf id) k = totalsAt m.slices k) ∧
    (∀ m e, settle m w.db = .error e → settled (settle m) w.db = w.db) ∧
    (∀ m db' r, settle m w.db = .ok (db', r) → r.idempotent = true →
      (∀ u, db'.account u = w.db.account u) ∧ db'.ledger = w.db.ledger) := by
  have hinv : Conserved user w :=
    Machine.reachable_invariant (fun _ => start_conserved) step_conserved h
  refine ⟨hinv.balanced, hinv.nonneg, hinv.unsettled, hinv.agrees,
    fun m e he => settled_of_error he, fun m db' r hok hidem => ?_⟩
  rcases settle_cases hok with hrep | ⟨call, existing, ds, day, hdeb⟩
  · exact ⟨hrep.account_eq, hrep.ledger_eq⟩
  · rw [hdeb.fresh] at hidem
    cases hidem

/-- A user with a checkpoint of ninety connected seconds of call 7. -/
def checkpointWorld : QuotaWorld where
  db := ⟨[1], ∅, ∅, [], fun _ => [], ∅, [], [], ∅⟩
  meters := [{ ConnectedMeter.fresh 7 1 60 15 ConnectedMeter.fifteen_le with
    lastSeen := some ⟨90, 90000000⟩
    slices := [⟨0, .connected, 90, 60, 30⟩] }]
  granted := fun _ => 0
  lastSettled := fun _ => none

def connectedCall : VoiceCall :=
  ⟨1, .connected, none, none, some 0, none, 0, 0, 0, 0, 0, 0, none, .pending, none, none, none⟩

/-- A grant, the call, and its settlement twice. -/
def settledWorld : QuotaWorld :=
  (quotaMachine 1).after checkpointWorld
    [.grantExtra 1 100 0 60 0, .storeCall 7 connectedCall, .settle 0, .settle 0]

theorem granted_seconds_conserved_settledWorld :
    extraRemaining settledWorld.db 1 = 70 ∧ extraSettled settledWorld.db 1 = 30 ∧
      extraRemaining settledWorld.db 1 + extraSettled settledWorld.db 1 = settledWorld.granted 1 :=
  ⟨by decide, by decide,
    (granted_seconds_conserved 1 settledWorld
      (Machine.reachable_after ⟨rfl, rfl, rfl, fun _ => rfl⟩ (by decide))).1⟩

end CompanionBackend.QuotaConservation
