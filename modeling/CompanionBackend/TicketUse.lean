import CompanionBackend.CallCreation
import CompanionBackend.TicketCodec

/-!
# Tickets in use

Create requests issue the ticket of a call, on a replay once more, and `consume_voice_ticket` takes
it. Both hold the row lock of their user, and what happens between two awaits is one step. A commit
of `consume_voice_ticket` takes effect or raises. Others ban users, move calls, sign tickets for a
reconnect and purge records.
-/
namespace CompanionBackend.TicketUse

open Runs TaskSystems FlatJson LeaseScripts VoiceModels CallCreation TicketCodec
open ReconnectService (Purpose Ticket)
open ProviderEvents (Ident)

/-- `str(UUID(t)) == t`. -/
def isUuid (t : Text) : Bool :=
  t.length = 36 && t.zipIdx.all fun p => if p.2 ∈ [8, 13, 18, 23] then p.1 = '-' else isHex p.1

def boolJson (b : Bool) : Text := (if b then "true" else "false").toList

/-- `canonical_payload`, of a payload whose strings need no escape. -/
def requestJson (p : CreateRequest) : Text :=
  '{' :: ("\"browser_supported\":".toList ++ boolJson p.browserSupported ++
    ",\"device_id\":".toList ++ quote p.deviceId ++
    ",\"microphone_granted\":".toList ++ boolJson p.microphoneGranted ++
    ",\"source\":".toList ++ quote p.source ++ ['}'])

def formats (C : Crypto) : Formats := ⟨C.sha256, requestJson, isUuid⟩

/-- What a `datetime` cannot reach. -/
def datetimeEnd : ℕ := 253402300800 * 1000000

/-! ### Consuming a ticket -/

/-- Where a call of `consume_voice_ticket` stands, with the user whose row it has locked. -/
inductive ConsumePhase
  | received
  | verified
  | locked (userId : ℕ)
  | unflagged (userId : ℕ)
  /-- The record was read, with its key. -/
  | recorded (userId : ℕ) (record : Option (Text × ReplayRecord))
  | checked (userId : ℕ) (key : Text) (call : CallRow)
  | leased (userId : ℕ) (key : Text) (call : CallRow)
  | done (call : CallRow)
  | failing (e : Fault) (userId : Option ℕ) (call : Option Ident)
  | failed (e : Fault)
  deriving DecidableEq, Repr

/-- A call, and what it has read: the payload of the ticket, the flag and the holder of the lease. -/
structure Consume where
  ticket : Text
  callId : Ident
  deviceId : Text
  now : ℕ
  value : List (Text × Scalar)
  flag : Bool
  holder : Option Ident
  phase : ConsumePhase
  deriving DecidableEq, Repr

/-- What the tables said when a ticket was consumed, and what was read before. -/
structure Consumption where
  ticket : Text
  callId : Ident
  deviceId : Text
  now : ℕ
  userId : ℕ
  status : Option CallStatus
  banned : Option Bool
  flag : Bool
  holder : Option Ident
  deriving DecidableEq, Repr

/-- The data of create requests, the users with `is_banned`, the flags in Redis and the calls whose
rows are locked. The tickets issued, with their devices, and consumed are history. -/
structure TicketData where
  base : CreateData
  users : AList fun _ : ℕ => Bool
  flags : List ℕ
  held : List Ident
  issued : List (Ticket × Text)
  consumed : List Consumption

inductive TicketInput
  | consume (ticket callId deviceId : Text) (now : ℕ)
  | create (i : CreateInput)
  | verify
  | lockUser
  | readFlag
  | lockRecord
  | lockCall
  | readLease
  | commit
  | raise (e : Fault)
  | rollback
  | setUser (userId : ℕ) (banned : Bool)
  | setFlag (userId : ℕ) (flag : Bool)
  | reconnect (userId : ℕ) (callId jti deviceId : Text) (expiresMs : ℕ)

inductive TicketTask
  | request (r : Request)
  | consume (c : Consume)
  | others

namespace TicketData

/-- The record of the call, with its key. -/
def recordOf (d : TicketData) (userId : ℕ) (callId : Ident) : Option (Text × ReplayRecord) :=
  d.base.records.entries.findSome? fun e =>
    if e.1.1 = userId ∧ e.2.callId = callId then some (e.1.2, e.2) else none

def callOf (d : TicketData) (userId : ℕ) (callId : Ident) : Option CallRow :=
  d.base.calls.find? fun row => row.callId = callId ∧ row.userId = userId

def withBase (d : TicketData) (base : CreateData) : TicketData := { d with base := base }

/-- The transaction ends. -/
def release (d : TicketData) (userId : Option ℕ) (call : Option Ident) : TicketData :=
  { d with
    base := match userId with | some u => d.base.unlock u | none => d.base
    held := match call with | some c => d.held.erase c | none => d.held }

end TicketData

/-- `value['user_id']`, as the id of a row. -/
def userOf (value : List (Text × Scalar)) : Option ℕ :=
  (intField value "user_id").bind Int.toNat?

def Consume.withPhase (c : Consume) (p : ConsumePhase) : Consume := { c with phase := p }

def Consume.fail (c : Consume) (reason : String) (userId : Option ℕ) (call : Option Ident) : Consume :=
  c.withPhase (.failing (.ticket reason) userId call)

def unavailable : String := "ticket_user_unavailable"
def notConsumable : String := "ticket_not_consumable"
def leaseExpired : String := "ticket_lease_expired"

def beginConsume (ticket callId deviceId : Text) (now : ℕ) : Consume :=
  ⟨ticket, callId, deviceId, now, [], false, none, .received⟩

/-- `codec.verify`, which comes before the transaction. -/
def Consume.verified (C : Crypto) (c : Consume) : Consume :=
  match verify C .voiceCall c.ticket c.callId c.deviceId c.now with
  | .ok value => { c with value := value, phase := .verified }
  | .error e => c.withPhase (.failed e)

/-- What the record and the call are checked for. -/
def consumable (c : Consume) (record : ReplayRecord) (call : CallRow) : Bool :=
  field c.value "jti" = some (.str record.ticketJti) && record.ticketConsumedAt.isNone &&
    c.now < record.ticketExpiresAt && (call.status = .deciding || call.status = .ringing)

/-- What is written when a ticket is consumed. -/
def TicketData.take (d : TicketData) (c : Consume) (userId : ℕ) (key : Text) (record : ReplayRecord) :
    TicketData :=
  { d with
    base := { d.base with
      records := d.base.records.insert (userId, key) { record with ticketConsumedAt := some c.now } }
    consumed := d.consumed ++ [{
      ticket := c.ticket, callId := c.callId, deviceId := c.deviceId, now := c.now
      userId := userId, status := (d.callOf userId c.callId).map (·.status)
      banned := d.users.lookup userId, flag := c.flag, holder := c.holder }] }

/-- The locks of a call that is not at its end. -/
def ConsumePhase.locks (callId : Ident) : ConsumePhase → Option ℕ × Option Ident
  | .locked u | .unflagged u | .recorded u _ => (some u, none)
  | .checked u _ _ | .leased u _ _ => (some u, some callId)
  | .failing _ u call => (u, call)
  | _ => (none, none)

/-- `consume_voice_ticket`, one await after the other. -/
def advanceConsume (C : Crypto) (d : TicketData) (c : Consume) :
    TicketInput → Option (TicketData × Consume)
  | .verify => if c.phase = .received then some (d, c.verified C) else none
  | .lockUser =>
    match c.phase with
    | .verified =>
      match (userOf c.value).bind fun u => (d.users.lookup u).map fun banned => (u, banned) with
      | none => some (d, c.fail unavailable none none)
      | some (u, banned) =>
        if u ∈ d.base.locked then none
        else some (d.withBase { d.base with locked := u :: d.base.locked },
          if banned then c.fail unavailable (some u) none else c.withPhase (.locked u))
    | _ => none
  | .readFlag =>
    match c.phase with
    | .locked u =>
      if u ∈ d.flags then some (d, c.fail unavailable (some u) none)
      else some (d, { c with flag := decide (u ∈ d.flags), phase := .unflagged u })
    | _ => none
  | .lockRecord =>
    match c.phase with
    | .unflagged u => some (d, c.withPhase (.recorded u (d.recordOf u c.callId)))
    | _ => none
  | .lockCall =>
    match c.phase with
    | .recorded u record =>
      match d.callOf u c.callId with
      | none => some (d, c.fail notConsumable (some u) none)
      | some call =>
        if c.callId ∈ d.held then none
        else some ({ d with held := c.callId :: d.held },
          match record with
          | some (key, record) =>
            if consumable c record call then c.withPhase (.checked u key call)
            else c.fail notConsumable (some u) (some c.callId)
          | none => c.fail notConsumable (some u) (some c.callId))
    | _ => none
  | .readLease =>
    match c.phase with
    | .checked u key call =>
      -- `owner_matches`
      if d.base.leases.get u = some c.callId then
        some (d, { c with holder := d.base.leases.get u, phase := .leased u key call })
      else some (d, c.fail leaseExpired (some u) (some c.callId))
    | _ => none
  | .commit =>
    match c.phase with
    | .leased u key call =>
      match d.base.records.lookup (u, key) with
      | some record =>
        some ((d.take c u key record).release (some u) (some c.callId), c.withPhase (.done call))
      | none => some (d, c.withPhase (.failing .database (some u) (some c.callId)))
    | _ => none
  | .raise e =>
    match c.phase with
    | .verified | .locked _ | .unflagged _ | .recorded _ _ | .checked _ _ _ | .leased _ _ _ =>
      some (d, c.withPhase
        (.failing e (c.phase.locks c.callId).1 (c.phase.locks c.callId).2))
    | _ => none
  | .rollback =>
    match c.phase with
    | .failing e u call => some (d.release u call, c.withPhase (.failed e))
    | _ => none
  | _ => none

/-! ### Issuing tickets -/

/-- The ticket that a step of `create` signs, whether or not its commit succeeds. -/
def signing (F : Formats) (d : CreateData) (r : Request) : CreateInput → Option Ticket
  | .read =>
    match d.read F r with
    | .replaying a => a.callTicket
    | _ => none
  | .commit jti ticketTtlMs | .commitFails _ _ jti ticketTtlMs =>
    match r.phase with
    | .acquired call =>
      (response F (CreateData.newRecord F r call jti ticketTtlMs) ⟨call, r.userId, .deciding⟩
        r.payload r.now).callTicket
    | _ => none
  | _ => none

/-- Ids are uuids, the user exists and is not banned when its record is read, and the times of a
record are dates. -/
def possible (d : TicketData) (r : Request) : CreateInput → Bool
  | .read => d.users.lookup r.userId = some false && r.userId ∉ d.flags
  | .vacant call => isUuid call
  | .commit jti ticketTtlMs | .commitFails _ _ jti ticketTtlMs =>
    isUuid jti && r.now + ticketTtlMs * 1000 < datetimeEnd && r.now + keyLifetime < datetimeEnd
  | _ => true

def advanceCreate (C : Crypto) (owner : Ident → ℕ) (d : TicketData) (r : Request) (i : CreateInput) :
    Option (TicketData × Request) :=
  if possible d r i then
    (advanceRequest (formats C) owner d.base r i).map fun p =>
      ({ d with
          base := p.1
          issued := d.issued ++ ((signing (formats C) d.base r i).map fun t =>
            (t, r.payload.deviceId)).toList }, p.2)
  else none

/-- The rest of the backend. A row that is locked is not written. -/
def advanceOthers (C : Crypto) (d : TicketData) : TicketInput → Option TicketData
  | .create (.consume _ _) => none
  | .create (.transition call status) =>
    if call ∈ d.held then none
    else (CallCreation.advanceOthers (formats C) d.base (.transition call status)).map d.withBase
  | .create i => (CallCreation.advanceOthers (formats C) d.base i).map d.withBase
  | .setUser userId banned =>
    if userId ∈ d.base.locked ∨ 2 ^ 31 ≤ userId then none
    else some { d with users := d.users.insert userId banned }
  | .setFlag userId flag =>
    some { d with flags := if flag then userId :: d.flags else d.flags.filter (· ≠ userId) }
  | .reconnect userId callId jti deviceId expiresMs =>
    if isUuid callId ∧ isUuid jti ∧ userId < 2 ^ 31 ∧ expiresMs * 1000 < datetimeEnd then
      some { d with
        issued := d.issued ++ [(⟨.voiceReconnect, userId, callId, jti, C.sha256 deviceId, expiresMs⟩,
          deviceId)] }
    else none
  | _ => none

/-- Create requests, calls of `consume_voice_ticket` and the rest of the backend. -/
def ticketUse (C : Crypto) (owner : Ident → ℕ) : TaskSystem TicketData TicketTask TicketInput where
  initial d := ∃ clock now, d = ⟨⟨clock, .new now, [], ∅, [], [], []⟩, ∅, [], [], [], []⟩
  accept d
    | .create (.start userId key payload) =>
      if userId < 2 ^ 31 then some [.request (begin (formats C) d.base userId key payload)] else none
    | .create .others => some [.others]
    | .consume ticket callId deviceId now => some [.consume (beginConsume ticket callId deviceId now)]
    | _ => none
  advance d
    | .request r, .create i => (advanceCreate C owner d r i).map fun p => (p.1, [.request p.2])
    | .request _, _ => none
    | .consume c, i => (advanceConsume C d c i).map fun p => (p.1, [.consume p.2])
    | .others, i => (advanceOthers C d i).map fun d => (d, [.others])

/-- The tickets that were issued. -/
def TicketData.tickets (d : TicketData) : List Ticket := d.issued.map (·.1)

/-- No client has forged the ticket that it presents. -/
def unforged (C : Crypto) (d : TicketData) : TicketTask → TicketInput → Prop
  | .consume c, .verify => Unforged C .voiceCall d.tickets c.ticket
  | _, _ => True

instance (C : Crypto) (d : TicketData) (t : TicketTask) (i : TicketInput) :
    Decidable (unforged C d t i) := by
  unfold unforged
  split <;> infer_instance

end CompanionBackend.TicketUse
