import CompanionBackend.Runs
import CompanionBackend.ProviderEvents
import CompanionBackend.Savepoints

/-!
# Voice metrics staged in transactions

Observations are staged on the session of a business transaction and emitted by an
explicit flush after its commit. A listener on rollbacks drops what was staged in a
transaction that is undone; it finds these by the owner remembered for each event.
-/
namespace CompanionBackend.VoiceMetrics

open Runs ProviderEvents Savepoints

/-- A registered name, its dimensions and an amount. -/
structure VoiceMetricEvent where
  name : Text
  dimensions : List (Text × Text)
  amount : ℤ
  deriving DecidableEq

/-- The entries `_voice_metric_*` of `session.info`. -/
structure SessionInfo where
  rollbackHook : Bool
  events : List VoiceMetricEvent
  owners : List (Option SessionTransaction)
  deriving DecidableEq

/-- A flush may report an internal transaction underneath a savepoint. -/
def boundary : SessionTransaction → SessionTransaction
  | .root n => .root n
  | .savepoint n p => .savepoint n p
  | .subtransaction _ p => boundary p

/-- Whether `previous` is met on the way from an owner to its outer transaction. -/
def belongsToRollback (previous : SessionTransaction) : SessionTransaction → Bool
  | .root n => decide (SessionTransaction.root n = previous)
  | .savepoint n p => decide (SessionTransaction.savepoint n p = previous) ||
      belongsToRollback previous p
  | .subtransaction n p => decide (SessionTransaction.subtransaction n p = previous) ||
      belongsToRollback previous p

def ownerBelongs (previous : SessionTransaction) : Option SessionTransaction → Bool
  | none => false
  | some owner => belongsToRollback previous owner

/-- The listener `after_soft_rollback`. -/
def discardRolledBack (info : SessionInfo) (previous : SessionTransaction) : SessionInfo :=
  let previous := boundary previous
  if previous.nested = false then
    { info with events := [], owners := [] }
  else
    let kept := (info.events.zip info.owners).filter fun pair => !ownerBelongs previous pair.2
    { info with events := kept.map Prod.fst, owners := kept.map Prod.snd }

/-- What the session calls when transactions were rolled back. -/
def afterSoftRollback (info : SessionInfo) (fired : List SessionTransaction) : SessionInfo :=
  if info.rollbackHook then fired.foldl discardRolledBack info else info

variable {σ : Type*}

def stageVoiceMetrics (A : SessionApi σ) (s : σ) (info : SessionInfo)
    (events : List VoiceMetricEvent) : SessionInfo :=
  let owner := (A.getNestedTransaction s).or (A.getTransaction s)
  { rollbackHook := true
    events := info.events ++ events
    owners := info.owners ++ List.replicate events.length owner }

/-- The lists handed to `emit_many`, and the entries left. -/
def flushVoiceMetrics (info : SessionInfo) (metrics : Bool) :
    SessionInfo × List (List VoiceMetricEvent) :=
  let rest := { info with events := [], owners := [] }
  if info.events ≠ [] ∧ metrics = true then (rest, [info.events]) else (rest, [])

/-- An event and the innermost transaction it was staged in. -/
structure Staged where
  event : VoiceMetricEvent
  inside : Option SessionTransaction
  deriving DecidableEq

/-- The savepoints an event was staged in. -/
def Staged.enclosing (e : Staged) : List SessionTransaction :=
  ((e.inside.map SessionTransaction.lineage).getD []).filter SessionTransaction.nested

/-- A session with its metrics. `log` and `rolledBack` are a history no code reads: what was
staged since the last flush or outer rollback, and every savepoint rolled back by name. -/
structure MetricSession (σ : Type*) where
  session : σ
  info : SessionInfo
  emitted : List (List VoiceMetricEvent)
  log : List Staged
  rolledBack : List SessionTransaction
  deriving DecidableEq

inductive SessionInput
  | autobegin
  | beginNested
  | release (t : SessionTransaction)
  | rollbackTo (t : SessionTransaction)
  | failFlush
  | commit
  | rollback
  | stage (events : List VoiceMetricEvent)
  | flush (metrics : Bool)
  deriving DecidableEq

/-- The history after transaction `t` was rolled back by name. -/
def MetricSession.undo (w : MetricSession σ) (t : SessionTransaction) : MetricSession σ :=
  if t.nested then { w with rolledBack := t :: w.rolledBack } else { w with log := [] }

def step (A : SessionApi σ) (w : MetricSession σ) : SessionInput → Option (MetricSession σ)
  | .autobegin => (A.autobegin w.session).map fun s => { w with session := s }
  | .beginNested => (A.beginNested w.session).map fun s => { w with session := s }
  | .release t => (A.release w.session t).map fun s => { w with session := s }
  | .rollbackTo t => (A.rollbackTo w.session t).map fun r =>
      { w.undo t with session := r.1, info := afterSoftRollback w.info r.2 }
  | .failFlush => (A.failFlush w.session).map fun r =>
      { w with session := r.1, info := afterSoftRollback w.info r.2 }
  | .commit => (A.commit w.session).map fun s => { w with session := s }
  | .rollback =>
      let r := A.rollback w.session
      some { w with
        session := r.1
        info := afterSoftRollback w.info r.2
        log := if A.current w.session = none then w.log else [] }
  | .stage events => some { w with
      info := stageVoiceMetrics A w.session w.info events
      log := w.log ++ events.map fun e => ⟨e, A.current w.session⟩ }
  | .flush metrics =>
      let r := flushVoiceMetrics w.info metrics
      some { w with info := r.1, emitted := w.emitted ++ r.2, log := [] }

def machine (A : SessionApi σ) : Machine (MetricSession σ) SessionInput where
  start w := A.Fresh w.session ∧ w.info = ⟨false, [], []⟩ ∧ w.emitted = [] ∧ w.log = [] ∧
    w.rolledBack = []
  step := step A

/-- No savepoint the event was staged in has been rolled back. -/
def MetricSession.survives (w : MetricSession σ) (e : Staged) : Bool :=
  e.enclosing.all fun t => decide (t ∉ w.rolledBack)

/-- The events an outer commit makes final, in staging order. -/
def MetricSession.survivors (w : MetricSession σ) : List VoiceMetricEvent :=
  (w.log.filter w.survives).map Staged.event

end CompanionBackend.VoiceMetrics
