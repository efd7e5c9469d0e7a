import CompanionBackend.LeaseScripts
import CompanionBackend.ReconnectService
import CompanionBackend.TaskSystems
import CompanionBackend.VoiceLifecycle

/-!
# Creating a call

A create request takes the row lock of its user, looks for a replay record of its key,
acquires a lease and commits a call with its record. It may fail or be cancelled
wherever it waits, and then it cleans up. Requests of any users run beside what others
do to calls, records and leases. Times are microseconds of the UTC clock; the lease
table has a clock of its own. Preflight checks that only raise, quotas, config snapshots
and metrics are left out.
-/
namespace CompanionBackend.CallCreation

open ProviderEvents LeaseScripts TaskSystems VoiceModels Runs
open ReconnectService (Ticket)

inductive PreflightError
  | invalidIdempotencyKey | invalidRequest | invalidDevice | userMissing | userBanned
  | idempotencyKeyReused | idempotencyRecordIncomplete | browserUnsupported | microphoneDenied
  | dialCooldown | disabled | maintenance | softStop | notAllowlisted | crisisConfigUnavailable
  | quotaEmpty | providerUnavailable | userBusy | capacityFull | internalUnavailable
  /-- `asyncio.CancelledError`. -/
  | cancelled
  deriving DecidableEq, Repr

structure CreateRequest where
  source : Text
  deviceId : Text
  browserSupported : Bool
  microphoneGranted : Bool
  deriving DecidableEq, Repr

/-- What hashing, JSON and UUIDs do: `hashlib.sha256`, `json.dumps` of a payload, and whether a text
is the usual form of a UUID. -/
structure Formats where
  sha256 : Text → Text
  json : CreateRequest → Text
  canonical : Text → Bool

/-- `canonical_payload`. -/
def canonicalPayload (F : Formats) (payload : CreateRequest) : Except PreflightError Text := do
  require (F.canonical payload.deviceId = true) .invalidDevice
  require (payload.source = ['h', 'o', 'm', 'e']) .invalidRequest
  return F.json payload

/-- `request_payload_sha256`. -/
def Formats.digest (F : Formats) (payload : CreateRequest) : Text := F.sha256 (F.json payload)

/-- The checks before the first query. -/
def validate (F : Formats) (key : Text) (payload : CreateRequest) : Except PreflightError Unit := do
  require (key.length ≤ 64 ∧ F.canonical key = true) .invalidIdempotencyKey
  let _ ← canonicalPayload F payload

/-! ### Rows -/

structure CallRow where
  callId : Ident
  userId : ℕ
  status : CallStatus
  deriving DecidableEq, Repr

structure ReplayRecord where
  digest : Text
  callId : Ident
  ticketJti : Ident
  ticketExpiresAt : ℕ
  ticketConsumedAt : Option ℕ
  replayExpiresAt : ℕ
  deriving DecidableEq, Repr

/-- A time without its fraction of a second. -/
def wholeSecond (t : ℕ) : ℕ := t / 1000000 * 1000000

/-- 24 hours. -/
def keyLifetime : ℕ := 24 * 3600 * 1000000

structure Answer where
  callId : Ident
  status : CallStatus
  callTicket : Option Ticket
  deriving DecidableEq, Repr

/-- `response`. -/
def response (F : Formats) (record : ReplayRecord) (call : CallRow) (payload : CreateRequest) (now : ℕ) :
    Answer where
  callId := call.callId
  status := call.status
  callTicket :=
    if record.ticketConsumedAt.isNone ∧ now < record.ticketExpiresAt then
      some
        { purpose := .voiceCall, userId := call.userId, callId := call.callId
          jti := record.ticketJti, device := F.sha256 payload.deviceId
          expiresMs := record.ticketExpiresAt / 1000 }
    else none

/-! ### Requests -/

/-- Where a request stands. A request that fails knows whether it holds a lease and its user's
lock. -/
inductive Phase
  | waiting
  | locked
  | replaying (answer : Answer)
  | fresh
  | checked
  | acquiring (call : Ident)
  /-- The script has granted the lease, `leases.acquire` has not returned yet. -/
  | granted (call : Ident)
  | acquired (call : Ident)
  | committed (answer : Answer)
  | answered (answer : Answer)
  | failing (e : PreflightError) (lease : Option Ident) (locked : Bool)
  | releasing (e : PreflightError) (call : Ident)
  | failed (e : PreflightError)
  deriving DecidableEq, Repr

/-- A request, the time it began at and the call id it has drawn. -/
structure Request where
  userId : ℕ
  key : Text
  payload : CreateRequest
  now : ℕ
  call : Option Ident
  phase : Phase
  deriving DecidableEq, Repr

/-- What a commit has done: it created a call or replayed one. -/
structure Outcome where
  userId : ℕ
  key : Text
  digest : Text
  callId : Ident
  time : ℕ
  created : Bool
  replayExpiresAt : ℕ
  deriving DecidableEq, Repr

/-- The clock, the leases, the tables, the users whose row is locked and the ids drawn. The commits
are history. -/
structure CreateData where
  clock : ℕ
  leases : LeaseTable
  calls : List CallRow
  records : AList fun _ : ℕ × Text => ReplayRecord
  locked : List ℕ
  drawn : List Ident
  log : List Outcome

inductive CreateInput
  | start (userId : ℕ) (key : Text) (payload : CreateRequest)
  | others
  | lock
  | read
  | check
  | vacant (call : Ident)
  | acquire (ttlMs limit : ℕ)
  | acquired
  | commit (jti : Ident) (ticketTtlMs : ℕ)
  | commitFails (e : PreflightError) (applied : Bool) (jti : Ident) (ticketTtlMs : ℕ)
  | answer
  | raise (e : PreflightError)
  | rollback
  | rollbackFails
  | release
  | releaseFails
  | tick (clock : ℕ)
  | lease (i : LeaseInput)
  | transition (call : Ident) (status : CallStatus)
  | consume (userId : ℕ) (key : Text)
  | purge (userId : ℕ) (key : Text)
  deriving DecidableEq, Repr

/-- A request, or the rest of the backend. -/
inductive CreateTask
  | request (r : Request)
  | others
  deriving DecidableEq, Repr

namespace CreateData

/-- A transaction of the user ends. -/
def unlock (d : CreateData) (userId : ℕ) : CreateData :=
  { d with locked := d.locked.erase userId }

/-- The replay record of the key is read under the lock. -/
def read (F : Formats) (d : CreateData) (r : Request) : Phase :=
  match d.records.lookup (r.userId, r.key) with
  | none => .fresh
  | some record =>
    if r.now < record.replayExpiresAt then
      if record.digest ≠ F.digest r.payload then .failing .idempotencyKeyReused none true
      else
        match d.calls.find? fun row => row.callId = record.callId with
        | none => .failing .idempotencyRecordIncomplete none true
        | some call => .replaying (response F record call r.payload r.now)
    else .fresh

/-- The replay record a creation writes. -/
def newRecord (F : Formats) (r : Request) (call jti : Ident) (ticketTtlMs : ℕ) : ReplayRecord where
  digest := F.digest r.payload
  callId := call
  ticketJti := jti
  ticketExpiresAt := wholeSecond (r.now + ticketTtlMs * 1000)
  ticketConsumedAt := none
  replayExpiresAt := wholeSecond (r.now + keyLifetime)

/-- The writes of a creation. An expired record of the key has been deleted before. -/
def create (F : Formats) (d : CreateData) (r : Request) (call jti : Ident) (ticketTtlMs : ℕ) :
    CreateData :=
  { d with
    calls := d.calls ++ [⟨call, r.userId, .deciding⟩]
    records := d.records.insert (r.userId, r.key) (newRecord F r call jti ticketTtlMs)
    log := d.log ++ [⟨r.userId, r.key, F.digest r.payload, call, d.clock, true,
      wholeSecond (r.now + keyLifetime)⟩] }

def replay (F : Formats) (d : CreateData) (r : Request) (a : Answer) : CreateData :=
  { d with
    log := d.log ++ [⟨r.userId, r.key, F.digest r.payload, a.callId, d.clock, false, 0⟩] }

/-- The user has a call that has not ended. -/
def busy (d : CreateData) (userId : ℕ) : Bool :=
  d.calls.any fun row => row.userId = userId && row.status.active

end CreateData

/-- The reason of a refused lease. -/
def refusal : AcquireResult → PreflightError
  | .capacityFull => .capacityFull
  | _ => .userBusy

/-- A call moves along an edge, or is finalized. -/
def mayBecome (status status' : CallStatus) : Bool :=
  status' ∈ VoiceLifecycle.transitions status || (status.active && status'.terminal)

def begin (F : Formats) (d : CreateData) (userId : ℕ) (key : Text) (payload : CreateRequest) : Request where
  userId := userId
  key := key
  payload := payload
  now := d.clock
  call := none
  phase :=
    match validate F key payload with
    | .ok _ => .waiting
    | .error e => .failing e none false

def Request.withPhase (r : Request) (p : Phase) : Request := { r with phase := p }

/-- `create`, one await after the other. -/
def advanceRequest (F : Formats) (owner : Ident → ℕ) (d : CreateData) (r : Request) :
    CreateInput → Option (CreateData × Request)
  | .lock =>
    if r.phase = .waiting ∧ r.userId ∉ d.locked then
      some ({ d with locked := r.userId :: d.locked }, r.withPhase .locked)
    else none
  | .read => if r.phase = .locked then some (d, r.withPhase (d.read F r)) else none
  | .check =>
    if r.phase = .fresh then
      some (d, r.withPhase (if !r.payload.browserSupported then .failing .browserUnsupported none true
        else if !r.payload.microphoneGranted then .failing .microphoneDenied none true
        else .checked))
    else none
  | .vacant call =>
    if r.phase = .checked then
      if d.busy r.userId then some (d, r.withPhase (.failing .userBusy none true))
      else if call ∉ d.drawn ∧ owner call = r.userId then
        some ({ d with drawn := call :: d.drawn },
          { r with call := some call, phase := .acquiring call })
      else none
    else none
  | .acquire ttlMs limit =>
    match r.phase with
    | .acquiring call =>
      match d.leases.acquire F.canonical r.userId call ttlMs limit with
      | .error _ => some (d, r.withPhase (.failing .internalUnavailable none true))
      | .ok (leases, .acquired) => some ({ d with leases := leases }, r.withPhase (.granted call))
      | .ok (leases, result) =>
        some ({ d with leases := leases }, r.withPhase (.failing (refusal result) none true))
    | _ => none
  | .acquired =>
    match r.phase with
    | .granted call => some (d, r.withPhase (.acquired call))
    | _ => none
  | .commit jti ticketTtlMs =>
    match r.phase with
    | .acquired call =>
      some ((d.create F r call jti ticketTtlMs).unlock r.userId,
        r.withPhase (.committed (response F (CreateData.newRecord F r call jti ticketTtlMs)
          ⟨call, r.userId, .deciding⟩ r.payload r.now)))
    | .replaying a => some ((d.replay F r a).unlock r.userId, r.withPhase (.committed a))
    | _ => none
  | .commitFails e applied jti ticketTtlMs =>
    match r.phase with
    | .acquired call =>
      some (if applied then d.create F r call jti ticketTtlMs else d,
        r.withPhase (.failing e (some call) true))
    | .replaying _ => some (d, r.withPhase (.failing e none true))
    | _ => none
  | .answer =>
    match r.phase with
    | .committed a => some (d, r.withPhase (.answered a))
    | _ => none
  | .raise e =>
    match r.phase with
    | .waiting => some (d, r.withPhase (.failing e none false))
    | .locked | .replaying _ | .fresh | .checked | .acquiring _ =>
      some (d, r.withPhase (.failing e none true))
    -- `acquired` is not assigned before `leases.acquire` returns
    | .granted _ => some (d, r.withPhase (.failing e none true))
    | .acquired call => some (d, r.withPhase (.failing e (some call) true))
    | .committed _ => some (d, r.withPhase (.failed e))
    | _ => none
  | .rollback =>
    match r.phase with
    | .failing e lease locked =>
      some (if locked then d.unlock r.userId else d,
        r.withPhase (match lease with | none => .failed e | some call => .releasing e call))
    | _ => none
  | .rollbackFails =>
    match r.phase with
    | .failing e _ locked => some (if locked then d.unlock r.userId else d, r.withPhase (.failed e))
    | _ => none
  | .release =>
    match r.phase with
    | .releasing e call =>
      some ({ d with leases := afterCall d.leases (d.leases.release r.userId call) }, r.withPhase (.failed e))
    | _ => none
  | .releaseFails =>
    match r.phase with
    | .releasing e _ => some (d, r.withPhase (.failed e))
    | _ => none
  | _ => none

/-- Time, what the gateway and the operators do to leases and calls, tickets that are consumed, and
the purge of expired records, which takes the row lock of the user. -/
def advanceOthers (F : Formats) (d : CreateData) : CreateInput → Option CreateData
  | .tick clock => if d.clock ≤ clock then some { d with clock := clock } else none
  | .lease (.acquire _ _ _ _) => none
  | .lease i => ((leases F.canonical).step d.leases i).map fun s => { d with leases := s }
  | .transition call status =>
    some { d with
      calls := d.calls.map fun row =>
        if row.callId = call ∧ mayBecome row.status status = true then { row with status := status }
        else row }
  | .consume userId key =>
    (d.records.lookup (userId, key)).map fun record =>
      { d with
        records := d.records.insert (userId, key)
          { record with ticketConsumedAt := some d.clock } }
  | .purge userId key =>
    if userId ∉ d.locked ∧
        (d.records.lookup (userId, key)).any (fun record => record.replayExpiresAt ≤ d.clock) then
      some { d with records := d.records.erase (userId, key) }
    else none
  | _ => none

/-- Create requests of any users. An id is drawn once, and `owner` is the user it is drawn for. -/
def creations (F : Formats) (owner : Ident → ℕ) : TaskSystem CreateData CreateTask CreateInput where
  initial d := ∃ clock now, d = ⟨clock, .new now, [], ∅, [], [], []⟩
  accept d
    | .start userId key payload => some [.request (begin F d userId key payload)]
    | .others => some [.others]
    | _ => none
  advance d
    | .request r, i => (advanceRequest F owner d r i).map fun p => (p.1, [.request p.2])
    | .others, i => (advanceOthers F d i).map fun d => (d, [.others])

end CompanionBackend.CallCreation
