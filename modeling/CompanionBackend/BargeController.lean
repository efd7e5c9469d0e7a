import CompanionBackend.Dictionaries

/-!
# Truncation after a barge-in

A reply that is interrupted gets one request. The client's stop acknowledgement fixes the position that
was played, and with it the provider is asked to truncate its context; the provider's confirmation is
an event of its own and may come while the call is still awaited. Between two awaits a method runs
undisturbed, so every such stretch is one step. What was observed is kept with its request; latency
samples are left out.
-/
namespace CompanionBackend.BargeController

open ProviderEvents (Text Ident)
open Dictionaries

inductive Mode
  | localStopRequested
  | contextNotTruncated
  | contextTruncateRequested
  | other (name : Text)
  deriving DecidableEq, Repr

inductive Outcome
  | success | failure | unknown
  deriving DecidableEq, Repr

inductive TruncateReason
  | capabilityUnavailable | identityUnavailable | request | requestFailed | confirmed
  | confirmationUnavailable
  deriving DecidableEq, Repr

inductive TruncateResult
  | notMeasurable | requested | failure | success
  deriving DecidableEq, Repr

inductive StopClear
  | requested | sendFailed | acknowledged | ackUnavailable
  deriving DecidableEq, Repr

inductive Observation
  | truncateOutcome (result : Outcome) (verified : Bool)
  | truncate (result : TruncateResult) (reason : TruncateReason)
  | stopClear (result : StopClear)
  deriving DecidableEq, Repr

/-- What is sent to the provider: its session, the item and the position in milliseconds. -/
structure Position where
  sessionId : Option Ident
  itemId : Ident
  playedMs : ℤ
  deriving DecidableEq, Repr

structure Request where
  mode : Mode := .localStopRequested
  confirmed : Bool := false
  cancelMode : Option Mode := none
  playedMs : Option ℤ := none
  itemId : Option Ident := none
  sessionId : Option Ident := none
  outcomeObserved : Bool := false
  observationsFinished : Bool := false
  /-- The sending of `stop_playback`, the cancellation and the truncation that are still awaited. -/
  sending : Bool := true
  interrupting : Bool := true
  truncating : Bool := false
  observations : List Observation := []
  /-- What the provider was asked to truncate. -/
  sent : List Position := []
  deriving DecidableEq, Repr

structure Controller where
  requests : Dict Ident Request
  deriving DecidableEq, Repr

structure Event where
  /-- The kind is `context_truncated` and the payload is a record. -/
  isTruncated : Bool
  sessionId : Option Ident
  itemId : Option Ident
  /-- Where it is an integer. -/
  audioEndMs : Option ℤ
  deriving DecidableEq, Repr

/-- How an awaited call ends: it returns an outcome, it raises or takes too long, or it ends with an
exception that is not caught. -/
inductive CallEnd
  | returned (mode : Mode)
  | failed
  | cancelled
  deriving DecidableEq, Repr

namespace Request

def observe (r : Request) (o : Observation) : Request :=
  { r with observations := r.observations ++ [o] }

/-- `_truncate_outcome`. -/
def truncateOutcome (r : Request) (result : Outcome) (capable : Bool) : Request :=
  if r.outcomeObserved then r
  else { r with outcomeObserved := true }.observe (.truncateOutcome result capable)

def acknowledge (r : Request) (playedMs : ℤ) : Request :=
  { r with playedMs := some playedMs, mode := .contextNotTruncated }.observe
    (.stopClear .acknowledged)

/-- Nothing can be truncated. -/
def notMeasurable (r : Request) (reason : TruncateReason) (capable : Bool) : Request :=
  (r.observe (.truncate .notMeasurable reason)).truncateOutcome .unknown capable

/-- The provider is asked to truncate, and the answer awaited. -/
def askTruncation (r : Request) (playedMs : ℤ) (item : Ident) (session : Option Ident) : Request :=
  { r with
    itemId := some item
    sessionId := session
    mode := .contextTruncateRequested
    truncating := true
    sent := r.sent ++ [⟨session, item, playedMs⟩] }

/-- `stopped` behind its await. -/
def truncated (r : Request) (ended : CallEnd) (capable : Bool) : Request :=
  match ended with
  | .returned mode =>
    if mode = .contextTruncateRequested then
      { r with mode := mode }.observe (.truncate .requested .request)
    else { r with mode := mode }.notMeasurable .capabilityUnavailable capable
  | .failed =>
    ({ r with mode := .contextNotTruncated, confirmed := false }.observe
      (.truncate .failure .requestFailed)).truncateOutcome .failure capable
  | .cancelled => r

/-- `stop()` behind its await. -/
def sendEnds (r : Request) (ok : Bool) : Request :=
  if r.sending then
    { r with sending := false }.observe (.stopClear (if ok then .requested else .sendFailed))
  else r

/-- `interrupt()` behind its await. -/
def interruptEnds (r : Request) (ended : CallEnd) : Request :=
  if r.interrupting then
    match ended with
    | .returned mode => { r with interrupting := false, cancelMode := some mode }
    | .failed =>
      { r with interrupting := false, cancelMode := some (.other "local_stop_only".toList) }
    | .cancelled => { r with interrupting := false }
  else r

/-- `stopped` up to its await; only the first acknowledgement is taken. -/
def stopped (r : Request) (playedMs : ℤ) (capable : Bool) (item session : Option Ident) : Request :=
  if r.playedMs.isSome then r
  else
    match capable, item with
    | false, _ => (r.acknowledge playedMs).notMeasurable .capabilityUnavailable capable
    | true, none => (r.acknowledge playedMs).notMeasurable .identityUnavailable capable
    | true, some i => (r.acknowledge playedMs).askTruncation playedMs i session

def truncateEnds (r : Request) (ended : CallEnd) (capable : Bool) : Request :=
  if r.truncating then { r with truncating := false }.truncated ended capable else r

def accepts (r : Request) (event : Event) (capable : Bool) : Bool :=
  decide (r.mode = .contextTruncateRequested ∧ event.sessionId = r.sessionId ∧
    event.itemId = r.itemId ∧ event.audioEndMs.isSome ∧ event.audioEndMs = r.playedMs) && capable

def confirm (r : Request) (capable : Bool) : Request :=
  let r := if r.confirmed then r else r.observe (.truncate .success .confirmed)
  { r.truncateOutcome .success capable with confirmed := true }

/-- What is observed beside the outcome when the observations are finished. -/
def finishOthers (r : Request) : Request :=
  let r := if r.playedMs.isNone then r.observe (.stopClear .ackUnavailable) else r
  if r.mode = .contextTruncateRequested ∧ r.confirmed = false then
    r.observe (.truncate .notMeasurable .confirmationUnavailable)
  else r

def finish (r : Request) (capable : Bool) : Request :=
  if r.observationsFinished then r
  else
    ({ r with observationsFinished := true }.truncateOutcome
      (if r.confirmed then .success else .unknown) capable).finishOthers

end Request

namespace Controller

def new : Controller := ⟨[]⟩

def limit : ℕ := 4096

/-- The request of the reply, changed. -/
def modify (c : Controller) (reply : Ident) (f : Request → Request) : Controller :=
  match Dict.get c.requests reply with
  | none => c
  | some r => ⟨Dict.set c.requests reply (f r)⟩

/-- `upgrade` up to its awaits; `none` where it raises. -/
def upgrade (c : Controller) (reply : Ident) : Option Controller :=
  match Dict.get c.requests reply with
  | some _ => some c
  | none => if limit ≤ c.requests.length then none else some ⟨Dict.set c.requests reply {}⟩

def sendEnds (c : Controller) (reply : Ident) (ok : Bool) : Controller :=
  c.modify reply fun r => r.sendEnds ok

def interruptEnds (c : Controller) (reply : Ident) (ended : CallEnd) : Controller :=
  c.modify reply fun r => r.interruptEnds ended

/-- The controller, and the mode that is returned where nothing is awaited. -/
def stopped (c : Controller) (reply : Ident) (playedMs : ℤ) (capable : Bool)
    (item session : Option Ident) : Controller × Option Mode :=
  match Dict.get c.requests reply with
  | none => (c, some .contextNotTruncated)
  | some r =>
    let r' := r.stopped playedMs capable item session
    (c.modify reply fun r => r.stopped playedMs capable item session,
      if r.playedMs.isNone ∧ r'.truncating then none else some r'.mode)

def truncateEnds (c : Controller) (reply : Ident) (ended : CallEnd) (capable : Bool) : Controller :=
  c.modify reply fun r => r.truncateEnds ended capable

/-- The first request that the event is for. -/
def target (c : Controller) (event : Event) (capable : Bool) : Option (Ident × Request) :=
  if event.isTruncated then c.requests.find? fun e => e.2.accepts event capable else none

def confirm (c : Controller) (event : Event) (capable : Bool) : Controller × Bool :=
  match c.target event capable with
  | none => (c, false)
  | some (reply, _) => (c.modify reply fun r => r.confirm capable, true)

def finishObservations (c : Controller) (capable : Bool) : Controller :=
  ⟨c.requests.map fun e => (e.1, e.2.finish capable)⟩

def confirmed (c : Controller) (reply : Ident) : Bool :=
  (Dict.get c.requests reply).any Request.confirmed

end Controller

/-- The stretches between two awaits; `capable` is what the adapter says about truncating then. -/
inductive Step
  | upgrade (reply : Ident)
  | sendEnds (reply : Ident) (ok : Bool)
  | interruptEnds (reply : Ident) (ended : CallEnd)
  | stopped (reply : Ident) (playedMs : ℤ) (capable : Bool) (item session : Option Ident)
  | truncateEnds (reply : Ident) (ended : CallEnd) (capable : Bool)
  | confirm (event : Event) (capable : Bool)
  | finishObservations (capable : Bool)
  deriving DecidableEq, Repr

/-- A call that is not awaited does not end, so its end changes nothing. -/
def step (c : Controller) : Step → Controller
  | .upgrade reply => (c.upgrade reply).getD c
  | .sendEnds reply ok => c.sendEnds reply ok
  | .interruptEnds reply ended => c.interruptEnds reply ended
  | .stopped reply playedMs capable item session => (c.stopped reply playedMs capable item session).1
  | .truncateEnds reply ended capable => c.truncateEnds reply ended capable
  | .confirm event capable => (c.confirm event capable).1
  | .finishObservations capable => c.finishObservations capable

def run (steps : List Step) : Controller := steps.foldl step Controller.new

end CompanionBackend.BargeController
