import CompanionBackend.CallFinalization
import Mathlib.Tactic.SplitIfs

/-!
# Runs of transitions and finalizations

Gateway, reconciler and hard stop interleave `transition_call` with the finalizer.
The user row lock makes each of them one step, and a raised one is rolled back.
Two histories are kept beside the database: whether a call was ever seen
connected, and the finalizations that committed with `changed`.
-/
namespace CompanionBackend.CallLifecycle

open Runs VoiceModels VoiceQuota TimelineSequence VoiceLifecycle VoiceGrowth CallFinalization

/-- A finalization that committed with `changed`, between the two databases. -/
structure Finalization where
  request : EndCall
  before : VoiceDb
  after : VoiceDb

structure CallWorld where
  db : VoiceDb
  everConnected : CallId → Bool
  finalizations : CallId → List Finalization

/-- What the owners of calls do; the gateway also saves turns of its own. -/
inductive CallInput
  | transition (t : TransitionRequest)
  | endCall (e : EndCall)
  | saveTurns (id : CallId) (turns : List VoiceCallTurn)

/-- The status of the call is `connected`. -/
def connectedNow (db : VoiceDb) (id : CallId) : Bool :=
  match db.call id with
  | some row => decide (row.status = .connected)
  | none => false

/-- The world after a committed database, with the first history brought up to date. -/
def committed (w : CallWorld) (db : VoiceDb) (finalizations : CallId → List Finalization) :
    CallWorld :=
  ⟨db, fun id => w.everConnected id || connectedNow db id, finalizations⟩

/-- The second history after `_end_call_once` left `db`. -/
def recorded (w : CallWorld) (e : EndCall) (db : VoiceDb) (changed : Bool) :
    CallId → List Finalization :=
  if changed then
    Function.update w.finalizations e.callId (w.finalizations e.callId ++ [⟨e, w.db, db⟩])
  else w.finalizations

def callStep (w : CallWorld) : CallInput → CallWorld
  | .transition t => committed w (settled (transitionCall t) w.db) w.finalizations
  | .endCall e =>
    match endCall e w.db with
    | .ok (db, changed) => committed w db (recorded w e db changed)
    | .error _ => w
  | .saveTurns id turns =>
    committed w { w.db with turns := Function.update w.db.turns id turns } w.finalizations

/-- Runs from a database in which the call `id` was just created. -/
def callMachine (id : CallId) : Machine CallWorld CallInput where
  start w := (∃ row, w.db.call id = some row ∧ row.status = .deciding ∧ row.connectedAt = none ∧
      row.sortSeq = none) ∧
    w.db.ledgerOf id = [] ∧ growthOf w.db id = [] ∧ w.everConnected id = false ∧
    w.finalizations id = []
  step w i := some (callStep w i)

/-! ### What one step does to one call -/

/-- The call's own rows are as they were. -/
structure Untouched (id : CallId) (db db' : VoiceDb) : Prop where
  call : db'.call id = db.call id
  ledgerOf : db'.ledgerOf id = db.ledgerOf id
  growthOf : growthOf db' id = growthOf db id

theorem Untouched.refl (id : CallId) (db : VoiceDb) : Untouched id db db := ⟨rfl, rfl, rfl⟩

theorem Untouched.of_rest {id : CallId} {db db' : VoiceDb} (hcall : db'.call id = db.call id)
    (hledger : db'.ledger = db.ledger) (hlogs : db'.growthLogs = db.growthLogs) :
    Untouched id db db' := by
  refine ⟨hcall, ?_, ?_⟩
  · rw [VoiceDb.ledgerOf, hledger]
    rfl
  · rw [VoiceGrowth.growthOf, hlogs]
    rfl

/-- A step leaves the call alone, moves it along an edge, or finalizes it. -/
inductive CallStep (id : CallId) (w w' : CallWorld) (row : VoiceCall) : CallInput → Prop
  | untouched {i : CallInput} (h : Untouched id w.db w'.db)
      (hfinal : w'.finalizations id = w.finalizations id) : CallStep id w w' row i
  | moved (t : TransitionRequest) (row' : VoiceCall) (hid : t.callId = id)
      (h : Moved t w.db w'.db row row') (hfinal : w'.finalizations id = w.finalizations id) :
      CallStep id w w' row (.transition t)
  | finalized (e : EndCall) (row' : VoiceCall) (hid : e.callId = id)
      (h : Finalized e w.db w'.db row row')
      (hfinal : w'.finalizations id = w.finalizations id ++ [⟨e, w.db, w'.db⟩]) :
      CallStep id w w' row (.endCall e)

theorem transition_callStep {id : CallId} {w : CallWorld} {row : VoiceCall}
    (hrow : w.db.call id = some row) (t : TransitionRequest) :
    CallStep id w (callStep w (.transition t)) row (.transition t) := by
  cases h : transitionCall t w.db with
  | error e =>
    refine .untouched ?_ rfl
    simp only [callStep, committed, settled_of_error h]
    exact Untouched.refl id w.db
  | ok r =>
    obtain ⟨db', written⟩ := r
    have hdb : (callStep w (.transition t)).db = db' := settled_of_ok h
    rcases transitionCall_cases h with ⟨-, rfl⟩ | ⟨-, row₁, row', hmoved⟩
    · refine .untouched ?_ rfl
      rw [hdb]
      exact Untouched.refl id w.db
    · by_cases hid : t.callId = id
      · subst hid
        obtain rfl : row = row₁ := Option.some.inj (hrow.symm.trans hmoved.row_eq)
        rw [← hdb] at hmoved
        exact .moved t row' rfl hmoved rfl
      · refine .untouched ?_ rfl
        rw [hdb]
        apply Untouched.of_rest (hmoved.calls_of_other id (Ne.symm hid))
        · rw [hmoved.rest]
        · rw [hmoved.rest]

theorem endCall_callStep {id : CallId} {w : CallWorld} {row : VoiceCall}
    (hrow : w.db.call id = some row) (e : EndCall) :
    CallStep id w (callStep w (.endCall e)) row (.endCall e) := by
  cases h : endCall e w.db with
  | error _ =>
    have hw : callStep w (.endCall e) = w := by simp only [callStep, h]
    rw [hw]
    exact .untouched (Untouched.refl id w.db) rfl
  | ok r =>
    obtain ⟨db', changed⟩ := r
    have hw : callStep w (.endCall e) = committed w db' (recorded w e db' changed) := by
      simp only [callStep, h]
    rw [hw]
    rcases endCall_cases h with ⟨rfl, rfl, -⟩ | ⟨rfl, row₁, row', hfinal⟩
    · exact .untouched (Untouched.refl id w.db) rfl
    · by_cases hid : e.callId = id
      · subst hid
        obtain rfl : row = row₁ := Option.some.inj (hrow.symm.trans hfinal.row_eq)
        refine .finalized e row' rfl hfinal ?_
        simp [committed, recorded]
      · have hother : id ≠ e.callId := Ne.symm hid
        refine .untouched ⟨hfinal.calls_of_other id hother, hfinal.ledgerOf_other id hother,
          hfinal.growthOf_other id hother⟩ ?_
        simp [committed, recorded, Function.update_of_ne hother]

/-- The inversion of `callStep` from the point of view of one call. -/
theorem callStep_cases {id : CallId} {w : CallWorld} {row : VoiceCall}
    (hrow : w.db.call id = some row) (i : CallInput) : CallStep id w (callStep w i) row i := by
  cases i with
  | transition t => exact transition_callStep hrow t
  | endCall e => exact endCall_callStep hrow e
  | saveTurns id' turns => exact .untouched ⟨rfl, rfl, rfl⟩ rfl

/-- A step leaves the first history as it was, or brings it up to date. -/
theorem callStep_everConnected (w : CallWorld) (i : CallInput) (id : CallId)
    (hrecorded : connectedNow w.db id = true → w.everConnected id = true) :
    (callStep w i).everConnected id =
      (w.everConnected id || connectedNow (callStep w i).db id) := by
  cases i with
  | transition t => rfl
  | endCall e =>
    cases h : endCall e w.db with
    | ok r => simp only [callStep, h, committed]
    | error _ =>
      simp only [callStep, h]
      cases hnow : connectedNow w.db id with
      | false => simp
      | true => simp [hrecorded hnow]
  | saveTurns id' turns => rfl

/-! ### The lifecycle invariant -/

/-- The statuses of a call that was connected. -/
def established : CallStatus → Bool
  | .connected | .reconnecting | .ending | .ended => true
  | _ => false

/-- What every row of a reachable database satisfies. -/
structure LifecycleRow (row : VoiceCall) (everConnected : Bool) : Prop where
  /-- The connection instant is set exactly when the call was ever seen connected. -/
  connected : row.connectedAt.isSome = everConnected
  established : row.connectedAt.isSome = established row.status
  closed : row.status.terminal = true → row.endedAt.isSome = true ∧ row.endReason.isSome = true
  cancelled : row.status = .cancelled → row.endReason = some .userCancel

/-- What any one step may do to a row. -/
structure LifecycleStep (i : CallInput) (row row' : VoiceCall) : Prop where
  frozen : row.status.terminal = true →
    row'.status = row.status ∧ row'.endReason = row.endReason ∧ row'.endedAt = row.endedAt
  once : row.connectedAt.isSome = true → row'.connectedAt = row.connectedAt
  first : row'.connectedAt ≠ row.connectedAt → row.status ≠ .connected ∧ row'.status = .connected
  change : row'.status ≠ row.status →
    (∃ t, i = .transition t ∧ row'.status ∈ transitions row.status) ∨
      ∃ e, i = .endCall e ∧ row.status.active = true ∧ row'.status = finalStatus row e.reason

theorem LifecycleStep.refl (i : CallInput) (row : VoiceCall) : LifecycleStep i row row :=
  ⟨fun _ => ⟨rfl, rfl, rfl⟩, fun _ => rfl, fun h => absurd rfl h, fun h => absurd rfl h⟩

theorem active_of_edge {s s' : CallStatus} (h : s' ∈ transitions s) : s.active = true := by
  cases s <;> simp [transitions] at h <;> rfl

/-- An edge to an open status keeps the connection, and establishes it when it connects. -/
theorem established_of_edge {s s' : CallStatus} (h : s' ∈ transitions s)
    (hopen : s'.terminal = false) :
    established s' = (established s || decide (s' = .connected)) := by
  revert h hopen
  cases s <;> cases s' <;> decide

theorem ne_connected_of_edge {s : CallStatus} (h : CallStatus.connected ∈ transitions s) :
    s ≠ .connected := by
  rintro rfl
  exact absurd h (by decide)

/-- A call that was never connected does not become `ended` along an edge. -/
theorem established_of_early {s s' : CallStatus} (h : s' ∈ transitions s)
    (hterminal : s'.terminal = true) (hclosed : established s = false) :
    established s' = false := by
  revert h hterminal hclosed
  cases s <;> cases s' <;> decide

theorem established_finalStatus (row : VoiceCall) (reason : EndReason) :
    established (finalStatus row reason) = row.connectedAt.isSome := by
  unfold finalStatus
  split_ifs with hconnected
  · exact hconnected.symm
  all_goals exact ((Bool.not_eq_true _).mp hconnected).symm

theorem ne_connected_of_terminal {s : CallStatus} (h : s.terminal = true) : s ≠ .connected := by
  rintro rfl
  exact absurd h (by decide)

theorem moved_lifecycleStep {t : TransitionRequest} {db db' : VoiceDb} {row row' : VoiceCall}
    (h : Moved t db db' row row') : LifecycleStep (.transition t) row row' := by
  have hactive := active_of_edge h.edge
  have hconnectedAt : row'.connectedAt = row.connectedAt ∨
      row.connectedAt = none ∧ t.target = .connected := by
    cases hterminal : t.target.terminal with
    | true =>
      obtain ⟨hnone, hnone', -⟩ := h.closing hterminal
      exact .inl (hnone'.trans hnone.symm)
    | false =>
      obtain ⟨hat, -⟩ := h.opening hterminal
      rw [hat]
      split_ifs with hfirst
      · exact .inr ⟨hfirst.2, hfirst.1⟩
      · exact .inl rfl
  refine ⟨?_, ?_, ?_, fun _ => .inl ⟨t, rfl, h.status ▸ h.edge⟩⟩
  · intro hterminal
    simp [hterminal] at hactive
  · intro hsome
    rcases hconnectedAt with heq | ⟨hnone, -⟩
    · exact heq
    · simp [hnone] at hsome
  · intro hne
    rcases hconnectedAt with heq | ⟨-, htarget⟩
    · exact absurd heq hne
    · refine ⟨ne_connected_of_edge (htarget ▸ h.edge), h.status.trans htarget⟩

theorem finalized_lifecycleStep {e : EndCall} {db db' : VoiceDb} {row row' : VoiceCall}
    (h : Finalized e db db' row row') : LifecycleStep (.endCall e) row row' := by
  refine ⟨?_, fun _ => h.connectedAt, fun hne => absurd h.connectedAt hne,
    fun _ => .inr ⟨e, rfl, h.active, h.status⟩⟩
  intro hterminal
  have hactive := h.active
  simp [hterminal] at hactive

theorem moved_lifecycleRow {t : TransitionRequest} {db db' : VoiceDb} {row row' : VoiceCall}
    {ever : Bool} (hrow : LifecycleRow row ever) (h : Moved t db db' row row') :
    LifecycleRow row' (ever || decide (row'.status = .connected)) := by
  have hedge := h.edge
  cases hterminal : t.target.terminal with
  | true =>
    obtain ⟨hnone, hnone', hended, hreason, -⟩ := h.closing hterminal
    have hever : ever = false := by rw [← hrow.connected, hnone, Option.isSome_none]
    have hclosed : established row.status = false := by
      rw [← hrow.established, hnone, Option.isSome_none]
    have hother := ne_connected_of_terminal hterminal
    refine ⟨?_, ?_, fun _ => ?_, fun hcancelled => ?_⟩
    · simp [hnone', hever, h.status, hother]
    · rw [h.status, established_of_early hedge hterminal hclosed, hnone', Option.isSome_none]
    · simp [hended, hreason]
    · rw [hreason, ← h.status, hcancelled]
      rfl
  | false =>
    obtain ⟨hat, -⟩ := h.opening hterminal
    have hsome : row'.connectedAt.isSome =
        (row.connectedAt.isSome || decide (t.target = .connected)) := by
      rw [hat]
      by_cases htarget : t.target = .connected
      · cases hrowAt : row.connectedAt <;> simp [htarget]
      · simp [htarget]
    refine ⟨?_, ?_, fun hclosed => ?_, fun hcancelled => ?_⟩
    · rw [hsome, hrow.connected, h.status]
    · rw [hsome, hrow.established, h.status, established_of_edge hedge hterminal]
    · rw [h.status, hterminal] at hclosed
      exact absurd hclosed Bool.false_ne_true
    · rw [← h.status, hcancelled] at hterminal
      exact absurd hterminal (by decide)

theorem finalized_lifecycleRow {e : EndCall} {db db' : VoiceDb} {row row' : VoiceCall}
    {ever : Bool} (hrow : LifecycleRow row ever) (h : Finalized e db db' row row') :
    LifecycleRow row' (ever || decide (row'.status = .connected)) := by
  have hother : row'.status ≠ .connected := by
    rw [h.status]
    exact ne_connected_of_terminal (finalStatus_terminal row e.reason)
  refine ⟨?_, ?_, fun _ => ?_, fun hcancelled => ?_⟩
  · rw [h.connectedAt, hrow.connected, decide_eq_false hother, Bool.or_false]
  · rw [h.connectedAt, h.status, established_finalStatus]
  · simp [h.endedAt, h.endReason]
  · rw [h.endReason, ← h.status, if_pos hcancelled]

/-- The invariant of a run: the row of the call, and what its next step does. -/
structure LifecycleWorld (id : CallId) (w : CallWorld) (row : VoiceCall) : Prop where
  row_eq : w.db.call id = some row
  lifecycle : LifecycleRow row (w.everConnected id)

theorem connectedNow_eq {db : VoiceDb} {id : CallId} {row : VoiceCall}
    (h : db.call id = some row) : connectedNow db id = decide (row.status = .connected) := by
  simp [connectedNow, h]

/-- One step keeps the lifecycle invariant and does nothing else to the row. -/
theorem callStep_lifecycle {id : CallId} {w : CallWorld} {row : VoiceCall}
    (h : LifecycleWorld id w row) (i : CallInput) :
    ∃ row', LifecycleWorld id (callStep w i) row' ∧ LifecycleStep i row row' := by
  have hrecorded : connectedNow w.db id = true → w.everConnected id = true := by
    intro hnow
    rw [connectedNow_eq h.row_eq, decide_eq_true_iff] at hnow
    rw [← h.lifecycle.connected, h.lifecycle.established, hnow]
    rfl
  have hever := callStep_everConnected w i id hrecorded
  cases callStep_cases h.row_eq i with
  | untouched hsame _ =>
    have hrow := hsame.call.trans h.row_eq
    refine ⟨row, ⟨hrow, ?_⟩, LifecycleStep.refl i row⟩
    rw [hever, connectedNow_eq hrow, ← connectedNow_eq h.row_eq]
    cases hnow : connectedNow w.db id with
    | false => simpa using h.lifecycle
    | true => simpa [hrecorded hnow] using h.lifecycle
  | moved t row' hid hmoved _ =>
    subst hid
    refine ⟨row', ⟨hmoved.row_eq', ?_⟩, moved_lifecycleStep hmoved⟩
    rw [hever, connectedNow_eq hmoved.row_eq']
    exact moved_lifecycleRow h.lifecycle hmoved
  | finalized e row' hid hfinal _ =>
    subst hid
    refine ⟨row', ⟨hfinal.row_eq', ?_⟩, finalized_lifecycleStep hfinal⟩
    rw [hever, connectedNow_eq hfinal.row_eq']
    exact finalized_lifecycleRow h.lifecycle hfinal

theorem reachable_lifecycle {id : CallId} {w : CallWorld} (h : (callMachine id).Reachable w) :
    ∃ row, LifecycleWorld id w row := by
  refine Machine.reachable_invariant (I := fun w => ∃ row, LifecycleWorld id w row) ?_ ?_ h
  · rintro w ⟨⟨row, hrow, hstatus, hnone, -⟩, -, -, hever, -⟩
    refine ⟨row, hrow, ?_, ?_, fun hclosed => ?_, fun hcancelled => ?_⟩
    · rw [hnone, hever, Option.isSome_none]
    · rw [hnone, hstatus]
      rfl
    · rw [hstatus] at hclosed
      exact absurd hclosed (by decide)
    · rw [hstatus] at hcancelled
      exact absurd hcancelled (by decide)
  · rintro w i w' ⟨row, hw⟩ hstep
    obtain rfl := Option.some.inj hstep
    obtain ⟨row', hw', -⟩ := callStep_lifecycle hw i
    exact ⟨row', hw'⟩

/-- A terminal row keeps its status, reason and end over every further run. -/
theorem run_terminal_frozen {id : CallId} {w w' : CallWorld} {row : VoiceCall} {is : List CallInput}
    (hw : LifecycleWorld id w row) (hterminal : row.status.terminal = true)
    (hrun : (callMachine id).run w is = some w') :
    ∃ row', LifecycleWorld id w' row' ∧ row'.status = row.status ∧
      row'.endReason = row.endReason ∧ row'.endedAt = row.endedAt := by
  refine Machine.run_invariant (M := callMachine id) (I := fun w' => ∃ row', LifecycleWorld id w' row' ∧
    row'.status = row.status ∧ row'.endReason = row.endReason ∧ row'.endedAt = row.endedAt) ?_
    ⟨row, hw, rfl, rfl, rfl⟩ hrun
  rintro w₁ i w₂ ⟨row₁, hw₁, hstatus, hreason, hended⟩ hstep
  obtain rfl := Option.some.inj hstep
  obtain ⟨row₂, hw₂, hlifecycle⟩ := callStep_lifecycle hw₁ i
  obtain ⟨hs, hr, he⟩ := hlifecycle.frozen (hstatus ▸ hterminal)
  exact ⟨row₂, hw₂, hs.trans hstatus, hr.trans hreason, he.trans hended⟩

/-- In every reachable world the row of a call obeys the lifecycle, so does every further step,
and a terminal row stays what it is. -/
theorem call_lifecycle (id : CallId) (w : CallWorld) (h : (callMachine id).Reachable w) :
    ∃ row, w.db.call id = some row ∧ LifecycleRow row (w.everConnected id) ∧
      (∀ i w', (callMachine id).step w i = some w' →
        ∃ row', w'.db.call id = some row' ∧ LifecycleStep i row row') ∧
      (row.status.terminal = true → ∀ is w', (callMachine id).run w is = some w' →
        ∃ row', w'.db.call id = some row' ∧ row'.status = row.status ∧
          row'.endReason = row.endReason ∧ row'.endedAt = row.endedAt) := by
  obtain ⟨row, hw⟩ := reachable_lifecycle h
  refine ⟨row, hw.row_eq, hw.lifecycle, ?_, ?_⟩
  · intro i w' hstep
    obtain rfl := Option.some.inj hstep
    obtain ⟨row', hw', hlifecycle⟩ := callStep_lifecycle hw i
    exact ⟨row', hw'.row_eq, hlifecycle⟩
  · intro hterminal is w' hrun
    obtain ⟨row', hw', hfrozen⟩ := run_terminal_frozen hw hterminal hrun
    exact ⟨row', hw'.row_eq, hfrozen⟩

/-- User 1 with the call 7 that was just created, and ninety extra seconds. -/
def createdWorld : CallWorld where
  db := ⟨[1], (∅ : Table CallId VoiceCall).insert 7
      ⟨1, .deciding, none, none, none, none, 0, 0, 0, 0, 0, 0, none, .pending, none, none, none⟩,
    (∅ : Table UserId VoiceQuotaAccount).insert 1 ⟨0, 0, 90, 0⟩, [], fun _ => [], ∅, [], [], ∅⟩
  everConnected := fun _ => false
  finalizations := fun _ => []

def ringCall : TransitionRequest := ⟨7, [.deciding], .ringing, 0, some false, .ok (), .ok ()⟩

def connectCall : TransitionRequest := ⟨7, [.ringing], .connected, 1000000, none, .ok (), .ok ()⟩

/-- The checkpoint of a call of forty seconds. -/
def hangupCheckpoint : ConnectedMeter :=
  { ConnectedMeter.fresh 7 1 0 15 ConnectedMeter.fifteen_le with
    lastSeen := some ⟨40, 41000000⟩
    slices := [⟨0, .connected, 40, 0, 40⟩] }

def hangUp : EndCall :=
  ⟨7, some 1, .userHangup, 41000000, none, .stored hangupCheckpoint, .ok (), .ok ()⟩

/-- The call rings, is answered and hung up twice. -/
def hungUpWorld : CallWorld :=
  (callMachine 7).after createdWorld
    [.transition ringCall, .transition connectCall, .endCall hangUp, .endCall hangUp]

theorem hungUpWorld_reachable : (callMachine 7).Reachable hungUpWorld :=
  Machine.reachable_after ⟨⟨_, rfl, rfl, rfl, rfl⟩, rfl, rfl, rfl, rfl⟩ rfl

theorem call_lifecycle_hungUp :
    (hungUpWorld.db.call 7).map (·.status) = some .ended ∧ hungUpWorld.everConnected 7 = true ∧
      ∃ row, hungUpWorld.db.call 7 = some row ∧ LifecycleRow row (hungUpWorld.everConnected 7) := by
  refine ⟨by decide +kernel, by decide +kernel, ?_⟩
  obtain ⟨row, hrow, hlifecycle, -⟩ := call_lifecycle 7 hungUpWorld hungUpWorld_reachable
  exact ⟨row, hrow, hlifecycle⟩

end CompanionBackend.CallLifecycle
