import Mathlib.Algebra.Order.Floor.Ring
import Mathlib.Data.Rat.Floor
import CompanionBackend.ProviderEvents
import CompanionBackend.Runs

/-!
# Reconnecting to a call

A call that has lost its client or its provider has one bounded window to recover.
The coordinator hands out tickets for a new client socket while a task rebuilds the
provider side and waits for the socket. What happens between two awaits is one step;
a step that begins by taking the lock is enabled while the lock is free. A task may
fail or be cancelled wherever it waits. Telemetry is left out.
-/
namespace CompanionBackend.ReconnectService

open ProviderEvents Runs

abbrev Socket := ℕ

/-! ### Tickets -/

inductive Purpose
  | voiceCall | voiceReconnect
  deriving DecidableEq, Repr

/-- What a ticket says. `device` is the digest of the device id. -/
structure Ticket where
  purpose : Purpose
  userId : ℕ
  callId : Ident
  jti : Ident
  device : Text
  expiresMs : ℤ
  deriving DecidableEq, Repr

inductive TicketError
  | notAvailable | invalidOrExpired | notConsumable | notAscii
  deriving DecidableEq, Repr

/-- The fixed data of the live session that owns the coordinator. -/
structure Owner where
  userId : ℕ
  deviceId : Text
  callId : Ident
  timeoutMs : ℕ
  deriving DecidableEq, Repr

/-- `hmac.compare_digest`, which takes texts of ASCII characters only. -/
def compareDigest (a b : Text) : Except TicketError Bool :=
  if a.all (fun c => c.toNat < 128) && b.all (fun c => c.toNat < 128) then .ok (a = b)
  else .error .notAscii

/-- `VoiceTicketCodec.verify`. Nobody else can sign, so what verifies has been signed before; `none`
stands for what is no ticket at all, and for a device that is no text. -/
def verify (digest : Text → Text) (signed : List Ticket) (ticket : Option Ticket) (callId : Ident)
    (device : Option Text) (wall : ℚ) : Except TicketError (Ticket × Text) := do
  let ticket ← orRaise ticket .invalidOrExpired
  let device ← orRaise device .invalidOrExpired
  require (ticket ∈ signed ∧ ticket.purpose = .voiceReconnect ∧ ticket.callId = callId ∧
    ticket.device = digest device ∧ ⌊wall * 1000⌋ < ticket.expiresMs) .invalidOrExpired
  return (ticket, device)

/-! ### The coordinator -/

/-- Who holds the lock across an await: `begin`, in `owner.disconnected`, or a task, in
`owner.restored`. -/
inductive Holder
  | beginning
  | restoring (k : ℕ)
  deriving DecidableEq, Repr

structure ReconnectCoordinator where
  lock : Option Holder
  ready : Bool
  active : Bool
  needSocket : Bool
  socket : Option Socket
  deadline : Option ℚ
  jti : Option Ident
  deriving DecidableEq, Repr

/-- Where a recovery task stands. A task that waits for the socket has been woken or not. -/
inductive Phase
  | rebuilding
  | checking
  | waiting (woken : Bool)
  | restoring
  | failing
  | done
  deriving DecidableEq, Repr

/-- `Event.set` wakes every task that waits. -/
def Phase.wake : Phase → Phase
  | .waiting _ => .waiting true
  | p => p

namespace ReconnectCoordinator

def new : ReconnectCoordinator := ⟨none, false, false, false, none, none, none⟩

/-- `begin`, up to its await. -/
def begin (s : ReconnectCoordinator) (stopped clientLost : Bool) (timeoutMs : ℕ) (mono : ℚ) :
    ReconnectCoordinator :=
  if stopped then s
  else if s.active then
    if clientLost then { s with needSocket := true, socket := none, ready := false } else s
  else
    { lock := some .beginning, ready := false, active := true, needSocket := clientLost
      socket := none, deadline := some (mono + timeoutMs / 1000), jti := none }

/-- A reconnect is open, its deadline is ahead and a socket is needed. -/
def available (s : ReconnectCoordinator) (stopped : Bool) (mono : ℚ) : Bool :=
  !stopped && s.active && s.needSocket && s.deadline.any fun d => mono < d

/-- `issue`; `jti` is the fresh `uuid4()`. -/
def issue (s : ReconnectCoordinator) (o : Owner) (digest : Text → Text) (stopped : Bool)
    (mono wall : ℚ) (userId : ℕ) (device : Option Text) (jti : Ident) :
    Except TicketError (ReconnectCoordinator × Ticket) := do
  require (s.available stopped mono = true ∧ userId = o.userId) .notAvailable
  let device ← orRaise device .notAvailable
  let same ← compareDigest device o.deviceId
  require (same = true) .notAvailable
  return ({ s with jti := some jti },
    { purpose := .voiceReconnect, userId := userId, callId := o.callId, jti := jti
      device := digest device
      expiresMs := ⌊wall * 1000 + (s.deadline.getD mono - mono) * 1000⌋ })

/-- `attach`, with the ticket it has consumed. -/
def attach (s : ReconnectCoordinator) (o : Owner) (digest : Text → Text) (signed : List Ticket)
    (stopped : Bool) (mono wall : ℚ) (socket : Socket) (ticket : Option Ticket)
    (device : Option Text) : Except TicketError (ReconnectCoordinator × Ticket) := do
  let (ticket, device) ← verify digest signed ticket o.callId device wall
  require (s.available stopped mono = true ∧ s.jti = some ticket.jti ∧ ticket.userId = o.userId)
    .notConsumable
  let same ← compareDigest device o.deviceId
  require (same = true) .notConsumable
  return ({ s with jti := none, socket := some socket, needSocket := false, ready := true }, ticket)

def cancel (s : ReconnectCoordinator) : ReconnectCoordinator :=
  { s with active := false, jti := none, ready := true }

/-- A task that stops gives the lock back when it holds it. -/
def release (s : ReconnectCoordinator) (k : ℕ) : ReconnectCoordinator :=
  { s with lock := if s.lock = some (.restoring k) then none else s.lock }

end ReconnectCoordinator

/-! ### Runs -/

/-- The coordinator, whether its owner has stopped, the monotonic and the wall clock, the recovery
tasks and every ticket signed. The rest is history: the ids issued, each with the deadline of its
reconnect, and the ids attached, each with its socket. -/
structure ReconnectRun where
  coordinator : ReconnectCoordinator
  stopped : Bool
  mono : ℚ
  wall : ℚ
  tasks : List Phase
  signed : List Ticket
  issued : List (Ident × Option ℚ)
  attached : List (Ident × Socket)
  deriving DecidableEq, Repr

inductive ReconnectInput
  | tick (mono wall : ℚ)
  | stop
  | elsewhere (ticket : Ticket)
  | begin (clientLost : Bool)
  | disconnected (needSocket : Bool)
  | disconnectFailed
  | rebuilt (k : ℕ)
  | check (k : ℕ)
  | resume (k : ℕ)
  | restored (k : ℕ)
  | raised (k : ℕ)
  | cancelled (k : ℕ)
  | failed (k : ℕ)
  | issue (userId : ℕ) (device : Option Text) (jti : Ident)
  | attach (socket : Socket) (ticket : Option Ticket) (device : Option Text)
  | cancel
  deriving DecidableEq, Repr

namespace ReconnectRun

def setTask (w : ReconnectRun) (k : ℕ) (p : Phase) : ReconnectRun :=
  { w with tasks := w.tasks.set k p }

/-- `_recover` at the top of its loop, once it has the lock. A task that finds the event set goes
round again. -/
def check (w : ReconnectRun) (k : ℕ) : ReconnectRun :=
  if w.stopped then w.setTask k .done
  else if !w.coordinator.needSocket then
    { w.setTask k .restoring with
      coordinator := { w.coordinator with lock := some (.restoring k) } }
  else if w.coordinator.ready then w
  else w.setTask k (.waiting false)

/-- The task leaves its `try` block with an exception, or by a cancellation. -/
def leave (w : ReconnectRun) (k : ℕ) (s : ReconnectCoordinator) (p : Phase) : ReconnectRun :=
  { w.setTask k p with coordinator := s.release k }

/-- `owner.disconnected` has returned; it may have found that the client is lost as well. -/
def recovering (w : ReconnectRun) (needSocket : Bool) : ReconnectRun :=
  { w with
    coordinator := { w.coordinator with
      lock := none
      needSocket := needSocket || w.coordinator.needSocket }
    tasks := w.tasks ++ [.rebuilding] }

def recordIssue (w : ReconnectRun) (s : ReconnectCoordinator) (ticket : Ticket) : ReconnectRun :=
  { w with
    coordinator := s
    signed := ticket :: w.signed
    issued := w.issued ++ [(ticket.jti, s.deadline)] }

def recordAttach (w : ReconnectRun) (s : ReconnectCoordinator) (ticket : Ticket) (socket : Socket) :
    ReconnectRun :=
  { w with
    coordinator := s
    tasks := w.tasks.map Phase.wake
    attached := w.attached ++ [(ticket.jti, socket)] }

end ReconnectRun

/-- A task waits somewhere in its `try` block. -/
def Phase.inTry : Phase → Bool
  | .failing | .done => false
  | _ => true

/-- One call's coordinator. An id is drawn once; the same key signs tickets of other calls. A call
that raises leaves the state as it was. -/
def reconnects (o : Owner) (digest : Text → Text) : Machine ReconnectRun ReconnectInput where
  start w := ∃ mono wall, w = ⟨.new, false, mono, wall, [], [], [], []⟩
  step w
    | .tick mono wall => if w.mono ≤ mono then some { w with mono := mono, wall := wall } else none
    | .stop => some { w with stopped := true }
    | .elsewhere ticket =>
      if ticket.callId ≠ o.callId ∨ ticket.purpose ≠ .voiceReconnect then
        some { w with signed := ticket :: w.signed }
      else none
    | .begin clientLost =>
      if w.coordinator.lock = none then
        some { w with coordinator := w.coordinator.begin w.stopped clientLost o.timeoutMs w.mono }
      else none
    | .disconnected needSocket =>
      if w.coordinator.lock = some .beginning then some (w.recovering needSocket) else none
    | .disconnectFailed =>
      if w.coordinator.lock = some .beginning then
        some { w with coordinator := { w.coordinator with lock := none, active := false } }
      else none
    | .rebuilt k => if w.tasks[k]? = some .rebuilding then some (w.setTask k .checking) else none
    | .check k =>
      if w.tasks[k]? = some .checking ∧ w.coordinator.lock = none then some (w.check k) else none
    | .resume k =>
      if w.tasks[k]? = some (.waiting true) then some (w.setTask k .checking) else none
    | .restored k =>
      if w.tasks[k]? = some .restoring then
        some (w.leave k { w.coordinator with active := false } .done)
      else none
    | .raised k =>
      if (w.tasks[k]?).any Phase.inTry then
        some (w.leave k { w.coordinator with active := false } .failing)
      else none
    | .cancelled k =>
      if (w.tasks[k]?).any (fun p => p ≠ .done) then some (w.leave k w.coordinator .done) else none
    | .failed k => if w.tasks[k]? = some .failing then some (w.setTask k .done) else none
    | .issue userId device jti =>
      if w.coordinator.lock = none ∧ jti ∉ w.issued.map (·.1) then
        match w.coordinator.issue o digest w.stopped w.mono w.wall userId device jti with
        | .ok (s, ticket) => some (w.recordIssue s ticket)
        | .error _ => some w
      else none
    | .attach socket ticket device =>
      if w.coordinator.lock = none then
        match w.coordinator.attach o digest w.signed w.stopped w.mono w.wall socket ticket device
          with
        | .ok (s, ticket) => some (w.recordAttach s ticket socket)
        | .error _ => some w
      else none
    | .cancel =>
      some { w with coordinator := w.coordinator.cancel, tasks := w.tasks.map Phase.wake }

end CompanionBackend.ReconnectService
