import CompanionBackend.CallExclusion
import CompanionBackend.TaskSystems
import CompanionBackend.TicketUse

/-!
# What holds while tickets are used

A call has one record, and whoever looks at it or marks it holds the row lock of its user. An id that
a request has drawn belongs to that request until the row of the call is there. So what a consumer
has checked is still so when it commits, and the record it marks is the only one of the call.
-/
namespace CompanionBackend.TicketSteps

open Runs TaskSystems TaskSystem FlatJson LeaseScripts VoiceModels CallCreation TicketCodec TicketUse
open ReconnectService (Purpose Ticket)
open ProviderEvents (Ident)
open CallExclusion (inside callIds)
open CreateEffects

variable {C : Crypto} {owner : Ident → ℕ}

/-! ### What is assumed of the data and of tasks -/

/-- The ticket and its device, and what is known when `verify` has accepted it. -/
structure Vouched (C : Crypto) (c : Consume) (x : Ticket × Text) : Prop where
  ticket : c.ticket = issue C x.1
  value : c.value = payload x.1
  purpose : x.1.purpose = .voiceCall
  callId : x.1.callId = c.callId
  device : x.1.device = C.sha256 c.deviceId
  expires : (c.now : ℤ) < x.1.expiresMs * 1000

def Backed (C : Crypto) (d : TicketData) (c : Consume) : Prop := ∃ x ∈ d.issued, Vouched C c x

/-- What a ticket was consumed for and under. -/
structure Rightful (C : Crypto) (issued : List (Ticket × Text)) (x : Consumption) : Prop where
  ticket : ∃ y ∈ issued, x.ticket = issue C y.1 ∧ y.1.purpose = .voiceCall ∧
    y.1.userId = x.userId ∧ y.1.callId = x.callId ∧ y.1.device = C.sha256 x.deviceId ∧
    y.1.device = C.sha256 y.2 ∧ (x.now : ℤ) < y.1.expiresMs * 1000
  status : x.status = some .deciding ∨ x.status = some .ringing
  banned : x.banned = some false ∧ x.flag = false
  holder : x.holder = some x.callId

/-- A record belongs to a call that has a row, and its times are dates. -/
structure RecordOk (d : TicketData) (record : ReplayRecord) : Prop where
  call : record.callId ∈ callIds d.base
  jti : isUuid record.ticketJti = true
  expires : record.ticketExpiresAt < datetimeEnd
  marked : record.ticketConsumedAt.isSome = true ↔ record.callId ∈ d.consumed.map (·.callId)

structure DataOk (C : Crypto) (d : TicketData) : Prop where
  calls : ∀ row ∈ d.base.calls, isUuid row.callId = true ∧ row.userId < 2 ^ 31 ∧
    row.callId ∈ d.base.drawn
  records : ∀ k record, d.base.records.lookup k = some record → RecordOk d record
  distinct : ∀ k k' record record', d.base.records.lookup k = some record →
    d.base.records.lookup k' = some record' → record.callId = record'.callId → k = k'
  issued : ∀ x ∈ d.issued, WellFormed x.1 ∧ x.1.device = C.sha256 x.2
  consumed : ∀ x ∈ d.consumed, Rightful C d.issued x ∧ x.callId ∈ callIds d.base
  once : d.consumed.Pairwise fun x y => x.callId ≠ y.callId

structure RequestOk (d : TicketData) (r : Request) : Prop where
  user : r.userId < 2 ^ 31
  locked : inside r.phase = true → r.userId ∈ d.base.locked
  ident : ∀ c, identOf r.phase = some c →
    c ∈ d.base.drawn ∧ c ∉ callIds d.base ∧ isUuid c = true
  answer : ∀ a t, pledge r.phase = some a → a.callTicket = some t →
    (t, r.payload.deviceId) ∈ d.issued ∧ t.purpose = .voiceCall ∧ t.callId = a.callId

/-- The row of the user is locked and has been looked at. -/
structure Under (C : Crypto) (d : TicketData) (c : Consume) (u : ℕ) : Prop where
  backed : Backed C d c
  user : userOf c.value = some u
  row : d.users.lookup u = some false

/-- The rows have been checked. -/
structure Checked (C : Crypto) (d : TicketData) (c : Consume) (u : ℕ) (key : Text) (call : CallRow) :
    Prop where
  under : Under C d c u
  flag : c.flag = false
  record : ∃ record, d.base.records.lookup (u, key) = some record ∧ record.callId = c.callId ∧
    consumable c record call = true
  call : d.callOf u c.callId = some call

def Knows (C : Crypto) (d : TicketData) (c : Consume) : ConsumePhase → Prop
  | .verified => Backed C d c
  | .locked u => Under C d c u
  | .unflagged u => Under C d c u ∧ c.flag = false
  | .recorded u record => Under C d c u ∧ c.flag = false ∧
    ∀ x ∈ record, d.base.records.lookup (u, x.1) = some x.2 ∧ x.2.callId = c.callId
  | .checked u key call => Checked C d c u key call
  | .leased u key call => Checked C d c u key call ∧ c.holder = some c.callId
  | _ => True

structure ConsumeOk (C : Crypto) (d : TicketData) (c : Consume) : Prop where
  user : ∀ u, (c.phase.locks c.callId).1 = some u → u ∈ d.base.locked
  call : ∀ x, (c.phase.locks c.callId).2 = some x → x ∈ d.held
  knows : Knows C d c c.phase

def TaskOk (C : Crypto) (d : TicketData) : TicketTask → Prop
  | .request r => RequestOk d r
  | .consume c => ConsumeOk C d c
  | .others => True

/-! ### Who may change what -/

inductive Lock
  | user (u : ℕ)
  | call (c : Ident)
  /-- An id that has been drawn, while its call has no row. -/
  | ident (c : Ident)

def holds : TicketTask → Lock → Prop
  | .request r, .user u => inside r.phase = true ∧ r.userId = u
  | .request r, .ident c => identOf r.phase = some c
  | .consume c, .user u => (c.phase.locks c.callId).1 = some u
  | .consume c, .call x => (c.phase.locks c.callId).2 = some x
  | _, _ => False

def locked (d : TicketData) : Lock → Prop
  | .user u => u ∈ d.base.locked
  | .call c => c ∈ d.held
  | .ident c => c ∈ d.base.drawn

def Guarded : Lock → TicketData → TicketData → Prop
  | .user u, d, d' => (∀ key, d'.base.records.lookup (u, key) = d.base.records.lookup (u, key)) ∧
    d'.users.lookup u = d.users.lookup u ∧ u ∈ d'.base.locked
  | .call c, d, d' => (∀ u row, d.callOf u c = some row → d'.callOf u c = some row) ∧ c ∈ d'.held
  | .ident c, d, d' => c ∉ callIds d.base → c ∉ callIds d'.base

/-- What every step leaves. -/
structure Frame (d d' : TicketData) : Prop where
  drawn : ∀ c ∈ d.base.drawn, c ∈ d'.base.drawn
  issued : ∀ x ∈ d.issued, x ∈ d'.issued

theorem Frame.refl (d : TicketData) : Frame d d := ⟨fun _ h => h, fun _ h => h⟩

theorem guarded_refl {d : TicketData} {k : Lock} (h : locked d k) : Guarded k d d := by
  cases k with
  | user u => exact ⟨fun _ => rfl, rfl, h⟩
  | call c => exact ⟨fun _ _ hrow => hrow, h⟩
  | ident c => exact id

abbrev StepOk (C : Crypto) (d d' : TicketData) (t : TicketTask) (ts : List TicketTask) : Prop :=
  KeyedStep (DataOk C) (TaskOk C) holds locked Frame Guarded d d' t ts

theorem Backed.mono {d d' : TicketData} {c : Consume} (h : Backed C d c) (hf : Frame d d') :
    Backed C d' c := by
  obtain ⟨x, hx, hvouched⟩ := h
  exact ⟨x, hf.issued x hx, hvouched⟩

/-- What a consumer was called with and has read from the ticket. -/
def request (c : Consume) : Text × Ident × Text × ℕ × List (Text × Scalar) :=
  (c.ticket, c.callId, c.deviceId, c.now, c.value)

theorem Backed.moved {d d' : TicketData} {c c' : Consume} (h : Backed C d c)
    (hissued : d'.issued = d.issued) (hsame : request c' = request c) : Backed C d' c' := by
  obtain ⟨x, hx, hvouched⟩ := h
  simp only [request, Prod.mk.injEq] at hsame
  obtain ⟨hticket, hcall, hdevice, hnow, hvalue⟩ := hsame
  exact ⟨x, hissued ▸ hx, hticket.trans hvouched.ticket, hvalue.trans hvouched.value,
    hvouched.purpose, hvouched.callId.trans hcall.symm, hdevice ▸ hvouched.device,
    hnow ▸ hvouched.expires⟩

theorem Under.moved {d d' : TicketData} {c c' : Consume} {u : ℕ} (h : Under C d c u)
    (hissued : d'.issued = d.issued) (husers : d'.users = d.users)
    (hsame : request c' = request c) : Under C d' c' u := by
  refine ⟨h.backed.moved hissued hsame, ?_, husers ▸ h.row⟩
  simp only [request, Prod.mk.injEq] at hsame
  exact hsame.2.2.2.2 ▸ h.user

theorem Under.guarded {d d' : TicketData} {c : Consume} {u : ℕ} (h : Under C d c u)
    (hf : Frame d d') (hu : Guarded (.user u) d d') : Under C d' c u :=
  ⟨h.backed.mono hf, h.user, hu.2.1.trans h.row⟩

theorem Checked.guarded {d d' : TicketData} {c : Consume} {u : ℕ} {key : Text} {call : CallRow}
    (h : Checked C d c u key call) (hf : Frame d d') (hu : Guarded (.user u) d d')
    (hc : Guarded (.call c.callId) d d') : Checked C d' c u key call where
  under := h.under.guarded hf hu
  flag := h.flag
  record := by
    obtain ⟨record, hrecord, hrest⟩ := h.record
    exact ⟨record, (hu.1 key).trans hrecord, hrest⟩
  call := hc.1 _ _ h.call

theorem ConsumeOk.guarded {d d' : TicketData} {c : Consume} (h : ConsumeOk C d c) (hf : Frame d d')
    (hguarded : ∀ k, holds (.consume c) k → Guarded k d d') : ConsumeOk C d' c where
  user u hu := (hguarded (.user u) hu).2.2
  call x hx := (hguarded (.call x) hx).2
  knows := by
    have hknows := h.knows
    have huser : ∀ u, (c.phase.locks c.callId).1 = some u → Guarded (.user u) d d' :=
      fun u hu => hguarded (.user u) hu
    have hcall : ∀ x, (c.phase.locks c.callId).2 = some x → Guarded (.call x) d d' :=
      fun x hx => hguarded (.call x) hx
    generalize c.phase = p at hknows huser hcall ⊢
    cases p with
    | verified => exact hknows.mono hf
    | locked u => exact hknows.guarded hf (huser u rfl)
    | unflagged u => exact ⟨hknows.1.guarded hf (huser u rfl), hknows.2⟩
    | recorded u record =>
      obtain ⟨hunder, hflag, hrecord⟩ := hknows
      exact ⟨hunder.guarded hf (huser u rfl), hflag, fun x hx =>
        ⟨((huser u rfl).1 x.1).trans (hrecord x hx).1, (hrecord x hx).2⟩⟩
    | checked u key call => exact hknows.guarded hf (huser u rfl) (hcall _ rfl)
    | leased u key call => exact ⟨hknows.1.guarded hf (huser u rfl) (hcall _ rfl), hknows.2⟩
    | _ => trivial

theorem discipline : KeyedDiscipline (TaskOk C) holds locked Frame Guarded where
  locked {d t k} h hk := by
    cases t with
    | request r =>
      cases k with
      | user u => exact hk.2 ▸ h.locked hk.1
      | call c => exact hk.elim
      | ident c => exact (h.ident c hk).1
    | consume c =>
      cases k with
      | user u => exact h.user u hk
      | call x => exact h.call x hk
      | ident x => exact hk.elim
    | others => exact hk.elim
  stable {d d' t} h hf hguarded := by
    cases t with
    | request r =>
      refine ⟨h.user, fun hin => ?_, fun c hc => ?_, fun a t ha ht => ?_⟩
      · exact (hguarded (.user r.userId) ⟨hin, rfl⟩).2.2
      · obtain ⟨hdrawn, hrow, huuid⟩ := h.ident c hc
        exact ⟨hf.drawn c hdrawn, hguarded (.ident c) hc hrow, huuid⟩
      · obtain ⟨hissued, hrest⟩ := h.answer a t ha ht
        exact ⟨hf.issued _ hissued, hrest⟩
    | consume c => exact ConsumeOk.guarded h hf hguarded
    | others => exact trivial

/-! ### Tickets that are signed -/

theorem plain_of_isHex {c : Char} (h : isHex c = true) : plain c = true := by
  have hall : "0123456789abcdef".toList.all plain = true := by decide
  exact List.all_eq_true.mp hall c (List.contains_iff_mem.mp h)

theorem isUuid_spec {t : Text} (h : isUuid t = true) : Plain t ∧ t.length ≤ 64 := by
  simp only [isUuid, Bool.and_eq_true, decide_eq_true_eq, List.all_eq_true] at h
  obtain ⟨hlength, hchars⟩ := h
  refine ⟨fun c hc => ?_, by omega⟩
  obtain ⟨i, hi⟩ := List.mem_iff_getElem?.mp hc
  have hchar := hchars (c, i) (List.mem_zipIdx_iff_getElem?.mpr hi)
  dsimp only at hchar
  split_ifs at hchar
  · rw [of_decide_eq_true hchar]
    decide
  · exact plain_of_isHex hchar

theorem plain_sha256 (C : Crypto) (t : Text) : Plain (C.sha256 t) ∧ (C.sha256 t).length ≤ 64 :=
  ⟨fun c hc => plain_of_isHex (C.sha256_hex t c hc), (C.sha256_length t).le⟩

/-- The ticket of an answer. -/
theorem ticket_of_response {record : ReplayRecord} {call : CallRow} {payload : CreateRequest}
    {now : ℕ} {t : Ticket} (hcall : isUuid call.callId = true) (huser : call.userId < 2 ^ 31)
    (hjti : isUuid record.ticketJti = true) (hexpires : record.ticketExpiresAt < datetimeEnd)
    (h : (response (formats C) record call payload now).callTicket = some t) :
    (WellFormed t ∧ t.device = C.sha256 payload.deviceId) ∧ t.purpose = .voiceCall ∧
      t.callId = call.callId := by
  unfold response at h
  dsimp only at h
  split_ifs at h
  obtain rfl := Option.some.inj h
  unfold datetimeEnd at hexpires
  refine ⟨⟨⟨isUuid_spec hcall, isUuid_spec hjti, plain_sha256 C _, by dsimp only; omega, ?_⟩, rfl⟩,
    rfl, rfl⟩
  exact ⟨record.ticketExpiresAt / 1000, by push_cast; rfl, by omega⟩

theorem wholeSecond_le (t : ℕ) : wholeSecond t ≤ t := Nat.div_mul_le_self t 1000000

/-- What a step signs is a ticket for the device of its request. -/
theorem signing_ok {d : TicketData} {r : Request} {i : CreateInput} {t : Ticket} (hd : DataOk C d)
    (hr : RequestOk d r) (hi : possible d r i = true)
    (h : signing (formats C) d.base r i = some t) :
    WellFormed t ∧ t.device = C.sha256 r.payload.deviceId := by
  have hcreate : ∀ c jti ttl, r.phase = .acquired c → isUuid jti = true →
      r.now + ttl * 1000 < datetimeEnd →
      (response (formats C) (CreateData.newRecord (formats C) r c jti ttl) ⟨c, r.userId, .deciding⟩
        r.payload r.now).callTicket = some t →
      WellFormed t ∧ t.device = C.sha256 r.payload.deviceId := by
    intro c jti ttl hphase hjti hexpires ht
    have hc := (hr.ident c (by rw [hphase]; rfl)).2.2
    exact (ticket_of_response hc hr.user hjti ((wholeSecond_le _).trans_lt hexpires) ht).1
  cases i with
  | read =>
    simp only [signing] at h
    split at h
    · rename_i a hread
      obtain ⟨k, record, call, hrecord, hcall, hid, rfl⟩ := read_replaying hread
      obtain ⟨huuid, huser, -⟩ := hd.calls call hcall
      have hok := hd.records k record hrecord
      exact (ticket_of_response huuid huser hok.jti hok.expires h).1
    · cases h
  | commit jti ttl =>
    simp only [signing] at h
    split at h
    · rename_i c hphase
      simp only [possible, Bool.and_eq_true, decide_eq_true_eq] at hi
      exact hcreate c jti ttl hphase hi.1.1 hi.1.2 h
    · cases h
  | commitFails e applied jti ttl =>
    simp only [signing] at h
    split at h
    · rename_i c hphase
      simp only [possible, Bool.and_eq_true, decide_eq_true_eq] at hi
      exact hcreate c jti ttl hphase hi.1.1 hi.1.2 h
    · cases h
  | _ => cases h

/-! ### Steps of a request -/

theorem Rightful.mono {issued issued' : List (Ticket × Text)} {x : Consumption}
    (h : Rightful C issued x) (hissued : ∀ y ∈ issued, y ∈ issued') : Rightful C issued' x := by
  obtain ⟨y, hy, hrest⟩ := h.ticket
  exact ⟨⟨y, hissued y hy, hrest⟩, h.status, h.banned, h.holder⟩

/-- Tables and history are kept, and only tickets are signed. -/
theorem DataOk.kept {d d' : TicketData} (h : DataOk C d) (hcalls : d'.base.calls = d.base.calls)
    (hrecords : d'.base.records = d.base.records) (hconsumed : d'.consumed = d.consumed)
    (hf : Frame d d') (hissued : ∀ x ∈ d'.issued, WellFormed x.1 ∧ x.1.device = C.sha256 x.2) :
    DataOk C d' where
  calls row hrow := by
    obtain ⟨huuid, huser, hdrawn⟩ := h.calls row (hcalls ▸ hrow)
    exact ⟨huuid, huser, hf.drawn _ hdrawn⟩
  records k record hrecord := by
    obtain ⟨hcall, hjti, hexpires, hmarked⟩ := h.records k record (hrecords ▸ hrecord)
    exact ⟨by rwa [callIds, hcalls], hjti, hexpires, by rwa [hconsumed]⟩
  distinct k k' record record' hk hk' := by
    rw [hrecords] at hk hk'
    exact h.distinct k k' record record' hk hk'
  issued := hissued
  consumed x hx := by
    obtain ⟨hright, hcall⟩ := h.consumed x (hconsumed ▸ hx)
    exact ⟨hright.mono hf.issued, by rwa [callIds, hcalls]⟩
  once := hconsumed ▸ h.once

/-- What `create` writes, with the tickets it signs. -/
theorem dataOk_create {d d' : TicketData} {r : Request} {c jti : Ident} {ttl : ℕ} (h : DataOk C d)
    (hr : RequestOk d r) (hphase : r.phase = .acquired c) (hjti : isUuid jti = true)
    (hexpires : r.now + ttl * 1000 < datetimeEnd)
    (hcalls : d'.base.calls = d.base.calls ++ [⟨c, r.userId, .deciding⟩])
    (hrecords : d'.base.records = d.base.records.insert (r.userId, r.key)
      (CreateData.newRecord (formats C) r c jti ttl))
    (hconsumed : d'.consumed = d.consumed) (hf : Frame d d')
    (hissued : ∀ x ∈ d'.issued, WellFormed x.1 ∧ x.1.device = C.sha256 x.2) : DataOk C d' := by
  obtain ⟨hdrawn, hrow, huuid⟩ := hr.ident c (by rw [hphase]; rfl)
  have hids : callIds d'.base = callIds d.base ++ [c] := by simp [callIds, hcalls]
  have hnew : ∀ k record, d'.base.records.lookup k = some record →
      (k = (r.userId, r.key) ∧ record = CreateData.newRecord (formats C) r c jti ttl) ∨
        (k ≠ (r.userId, r.key) ∧ d.base.records.lookup k = some record) := by
    intro k record hk
    rw [hrecords] at hk
    by_cases hkey : k = (r.userId, r.key)
    · subst hkey
      exact .inl ⟨rfl, (Option.some.inj ((AList.lookup_insert _).symm.trans hk)).symm⟩
    · exact .inr ⟨hkey, (AList.lookup_insert_ne hkey).symm.trans hk⟩
  have hold : ∀ k record, d.base.records.lookup k = some record → record.callId ≠ c := by
    rintro k record hk rfl
    exact hrow (h.records k record hk).call
  constructor
  · intro row hmem
    rw [hcalls] at hmem
    rcases List.mem_append.mp hmem with hmem | hmem
    · obtain ⟨hid, huser, hmine⟩ := h.calls row hmem
      exact ⟨hid, huser, hf.drawn _ hmine⟩
    · obtain rfl := List.mem_singleton.mp hmem
      exact ⟨huuid, hr.user, hf.drawn _ hdrawn⟩
  · intro k record hk
    rcases hnew k record hk with ⟨-, rfl⟩ | ⟨-, hk⟩
    · refine ⟨by simp [hids, CreateData.newRecord], hjti, (wholeSecond_le _).trans_lt hexpires, ?_⟩
      rw [hconsumed]
      refine iff_of_false (by simp [CreateData.newRecord]) fun hmem => ?_
      obtain ⟨x, hx, hid⟩ := List.mem_map.mp hmem
      have hid : x.callId = c := hid
      exact hrow (hid ▸ (h.consumed x hx).2)
    · obtain ⟨hcall, hjti, hexpires, hmarked⟩ := h.records k record hk
      exact ⟨by rw [hids]; exact List.mem_append_left _ hcall, hjti, hexpires, by rwa [hconsumed]⟩
  · intro k k' record record' hk hk' heq
    rcases hnew k record hk with ⟨rfl, rfl⟩ | ⟨-, hk⟩ <;>
      rcases hnew k' record' hk' with ⟨rfl, rfl⟩ | ⟨-, hk'⟩
    · rfl
    · exact absurd heq.symm (hold k' record' hk')
    · exact absurd heq (hold k record hk)
    · exact h.distinct k k' record record' hk hk' heq
  · exact hissued
  · intro x hx
    obtain ⟨hright, hcall⟩ := h.consumed x (hconsumed ▸ hx)
    exact ⟨hright.mono hf.issued, by rw [hids]; exact List.mem_append_left _ hcall⟩
  · exact hconsumed ▸ h.once

section RequestSteps

variable {d : TicketData} {r r' : Request} {i : CreateInput} {base : CreateData}
  {extra : List (Ticket × Text)}

/-- The data after a step of a request. -/
def afterStep (d : TicketData) (base : CreateData) (extra : List (Ticket × Text)) : TicketData :=
  { d with base := base, issued := d.issued ++ extra }

theorem frame_of_effect {F : Formats} {p : Phase} (h : Effect F d.base r i base p) :
    Frame d (afterStep d base extra) := by
  refine ⟨fun c hc => ?_, fun x hx => List.mem_append_left _ hx⟩
  cases h with
  | vacant c' hphase hfresh => exact List.mem_cons_of_mem _ hc
  | _ => exact hc

theorem dataOk_effect {p : Phase} (hd : DataOk C d) (hr : RequestOk d r)
    (hi : possible d r i = true) (h : Effect (formats C) d.base r i base p)
    (hextra : ∀ x ∈ extra, WellFormed x.1 ∧ x.1.device = C.sha256 x.2) :
    DataOk C (afterStep d base extra) := by
  have hf : Frame d (afterStep d base extra) := frame_of_effect h
  have hissued : ∀ x ∈ (afterStep d base extra).issued, WellFormed x.1 ∧ x.1.device = C.sha256 x.2 := by
    intro x hx
    rcases List.mem_append.mp hx with hx | hx
    · exact hd.issued x hx
    · exact hextra x hx
  cases h with
  | commit c jti ttl hphase =>
    simp only [possible, Bool.and_eq_true, decide_eq_true_eq] at hi
    exact dataOk_create hd hr hphase hi.1.1 hi.1.2 rfl rfl rfl hf hissued
  | commitFails e c jti ttl hphase =>
    simp only [possible, Bool.and_eq_true, decide_eq_true_eq] at hi
    exact dataOk_create hd hr hphase hi.1.1 hi.1.2 rfl rfl rfl hf hissued
  | _ => exact hd.kept rfl rfl rfl hf hissued

/-- Calls are only appended. -/
theorem callOf_append {d d' : TicketData} {row : CallRow} (h : d'.base.calls = d.base.calls ++ [row])
    {u : ℕ} {c : Ident} {found : CallRow} (hfound : d.callOf u c = some found) :
    d'.callOf u c = some found := by
  unfold TicketData.callOf at hfound ⊢
  rw [h, List.find?_append, hfound]
  rfl

theorem guarded_effect {F : Formats} {k : Lock}
    (h : Effect F d.base r i base r'.phase) (huser : r'.userId = r.userId)
    (hfree : ¬holds (.request r) k) (hlocked : locked d k) :
    Guarded k d (afterStep d base extra) ∧ ¬holds (.request r') k := by
  have hcreate : ∀ c jti ttl, r.phase = .acquired c →
      ∀ k, ¬holds (.request r) k → locked d k →
      Guarded k d (afterStep d (d.base.create F r c jti ttl) extra) ∧
      Guarded k d (afterStep d ((d.base.create F r c jti ttl).unlock r.userId) extra) := by
    intro c jti ttl hphase k hfree hlocked
    cases k with
    | user u =>
      have hne : r.userId ≠ u := fun heq => hfree ⟨by rw [hphase]; rfl, heq⟩
      have hrecords : ∀ key, (d.base.records.insert (r.userId, r.key)
          (CreateData.newRecord F r c jti ttl)).lookup (u, key) = d.base.records.lookup (u, key) :=
        fun key => AList.lookup_insert_ne fun heq => hne (Prod.mk.inj heq).1.symm
      exact ⟨⟨hrecords, rfl, hlocked⟩, hrecords, rfl,
        (List.mem_erase_of_ne hne.symm).mpr hlocked⟩
    | call x =>
      exact ⟨⟨fun u row hrow => callOf_append rfl hrow, hlocked⟩,
        fun u row hrow => callOf_append rfl hrow, hlocked⟩
    | ident x =>
      have hne : x ≠ c := by
        rintro rfl
        exact hfree (by simp [holds, hphase, identOf])
      have hrows : x ∉ callIds d.base → x ∉ callIds (d.base.create F r c jti ttl) := by
        intro hold hmem
        simp only [callIds, CreateData.create, List.map_append, List.map_cons, List.map_nil,
          List.mem_append, List.mem_singleton] at hmem
        exact hmem.elim hold hne
      exact ⟨hrows, hrows⟩
  have hsame : ∀ base' : CreateData, base'.calls = d.base.calls → base'.records = d.base.records →
      (∀ u, u ∈ d.base.locked → ¬holds (.request r) (.user u) → u ∈ base'.locked) →
      Guarded k d (afterStep d base' extra) := by
    intro base' hcalls hrecords hlocks
    cases k with
    | user u => exact ⟨fun key => by rw [afterStep, hrecords], rfl, hlocks u hlocked hfree⟩
    | call c => exact ⟨fun u row hrow => by rwa [TicketData.callOf, afterStep, hcalls], hlocked⟩
    | ident c => exact fun hrow => by rwa [callIds, afterStep, hcalls]
  have herase : ∀ u, u ∈ d.base.locked → ¬holds (.request r) (.user u) → inside r.phase = true →
      u ∈ d.base.locked.erase r.userId :=
    fun u hu hne hin => (List.mem_erase_of_ne fun heq => hne ⟨hin, heq.symm⟩).mpr hu
  have hmoved : (inside r'.phase = true → inside r.phase = true) →
      (identOf r'.phase = none ∨ identOf r'.phase = identOf r.phase) → ¬holds (.request r') k := by
    intro hin hid hk
    cases k with
    | user u => exact hfree ⟨hin hk.1, huser ▸ hk.2⟩
    | call c => exact hk
    | ident c =>
      have hk : identOf r'.phase = some c := hk
      rcases hid with hnone | heq
      · rw [hnone] at hk
        cases hk
      · exact hfree (heq.symm.trans hk)
  generalize hp : r'.phase = p at h
  cases h with
  | lock hphase hunlocked =>
    refine ⟨hsame _ rfl rfl fun u hu _ => List.mem_cons_of_mem _ hu, fun hk => ?_⟩
    cases k with
    | user u => exact hunlocked (huser ▸ hk.2 ▸ hlocked)
    | call c => exact hk
    | ident c => simp [holds, hp, identOf] at hk
  | read hphase =>
    refine ⟨hsame _ rfl rfl fun u hu _ => hu, hmoved (fun _ => by rw [hphase]; rfl) (.inl ?_)⟩
    rw [hp]
    exact (read_phase F d.base r).2.1
  | vacant c hphase hfresh =>
    refine ⟨hsame _ rfl rfl fun u hu _ => hu, fun hk => ?_⟩
    cases k with
    | user u => exact hfree ⟨by rw [hphase]; rfl, huser ▸ hk.2⟩
    | call x => exact hk
    | ident x =>
      obtain rfl : c = x := by simpa [holds, hp, identOf] using hk
      exact hfresh hlocked
  | move _ leases log _ hin hid _ =>
    exact ⟨hsame _ rfl rfl fun u hu _ => hu, hmoved (hp ▸ hin) (hp ▸ hid)⟩
  | leave _ log _ hin hout hid _ =>
    refine ⟨hsame _ rfl rfl fun u hu hne => herase u hu hne hin, hmoved (fun h => ?_) (.inl (hp ▸ hid))⟩
    rw [hp, hout] at h
    cases h
  | commit c jti ttl hphase =>
    refine ⟨(hcreate c jti ttl hphase k hfree hlocked).2, hmoved (fun h => ?_) (.inl (by rw [hp]; rfl))⟩
    rw [hp] at h
    cases h
  | commitFails e c jti ttl hphase =>
    exact ⟨(hcreate c jti ttl hphase k hfree hlocked).1,
      hmoved (fun _ => by rw [hphase]; rfl) (.inl (by rw [hp]; rfl))⟩

/-- The tickets of a step, with the device of the request. -/
def signed (F : Formats) (d : TicketData) (r : Request) (i : CreateInput) : List (Ticket × Text) :=
  ((signing F d.base r i).map fun t => (t, r.payload.deviceId)).toList

theorem mem_signed {F : Formats} {x : Ticket × Text} (h : x ∈ signed F d r i) :
    signing F d.base r i = some x.1 ∧ x.2 = r.payload.deviceId := by
  obtain ⟨t, ht, rfl⟩ := Option.map_eq_some_iff.mp (Option.mem_toList.mp h)
  exact ⟨ht, rfl⟩

theorem requestOk_effect (hd : DataOk C d) (hr : RequestOk d r) (hi : possible d r i = true)
    (h : Effect (formats C) d.base r i base r'.phase) (huser : r'.userId = r.userId)
    (hpayload : r'.payload = r.payload) :
    RequestOk (afterStep d base (signed (formats C) d r i)) r' := by
  have hf : Frame d (afterStep d base (signed (formats C) d r i)) := frame_of_effect h
  have hkept : ∀ a t, pledge r.phase = some a → a.callTicket = some t →
      (t, r'.payload.deviceId) ∈ (afterStep d base (signed (formats C) d r i)).issued ∧
        t.purpose = .voiceCall ∧ t.callId = a.callId := by
    intro a t ha ht
    obtain ⟨hissued, hrest⟩ := hr.answer a t ha ht
    exact ⟨hf.issued _ (hpayload ▸ hissued), hrest⟩
  have hsigned : ∀ t, signing (formats C) d.base r i = some t →
      (t, r'.payload.deviceId) ∈ (afterStep d base (signed (formats C) d r i)).issued := by
    intro t ht
    refine List.mem_append_right _ ?_
    rw [signed, ht, hpayload]
    exact List.mem_singleton_self _
  refine ⟨huser ▸ hr.user, fun hin => ?_, fun c hc => ?_, fun a t ha ht => ?_⟩
  · rw [huser]
    generalize r'.phase = p at h hin
    cases h with
    | lock hphase hfree => exact List.mem_cons_self
    | read hphase => exact hr.locked (by rw [hphase]; rfl)
    | vacant c hphase hfresh => exact hr.locked (by rw [hphase]; rfl)
    | move _ leases log _ hin' _ _ => exact hr.locked (hin' hin)
    | leave _ log _ _ hout _ _ => exact absurd (hout.symm.trans hin) (by simp)
    | commit c jti ttl hphase => cases hin
    | commitFails e c jti ttl hphase => exact hr.locked (by rw [hphase]; rfl)
  · generalize r'.phase = p at h hc
    cases h with
    | lock hphase hfree => cases hc
    | read hphase => exact absurd ((read_phase _ _ _).2.1.symm.trans hc) (by simp)
    | vacant c' hphase hfresh =>
      obtain rfl : c' = c := Option.some.inj hc
      refine ⟨List.mem_cons_self, fun hmem => ?_, hi⟩
      obtain ⟨row, hrow, rfl⟩ := List.mem_map.mp hmem
      exact hfresh (hd.calls row hrow).2.2
    | move _ leases log _ _ hid _ =>
      rcases hid with hnone | hsame
      · exact absurd (hnone.symm.trans hc) (by simp)
      · exact hr.ident c (hsame.symm.trans hc)
    | leave _ log _ _ _ hid _ => exact absurd (hid.symm.trans hc) (by simp)
    | commit c jti ttl hphase => cases hc
    | commitFails e c jti ttl hphase => cases hc
  · generalize r'.phase = p at h ha
    cases h with
    | lock hphase hfree => cases ha
    | read hphase =>
      have hread := (read_phase _ _ _).2.2 a ha
      have hsigning : signing (formats C) d.base r .read = some t := by simp [signing, hread, ht]
      obtain ⟨k, record, call, hrecord, hcall, hid, rfl⟩ := read_replaying hread
      obtain ⟨huuid, hbound, -⟩ := hd.calls call hcall
      have hok := hd.records k record hrecord
      exact ⟨hsigned t hsigning, (ticket_of_response huuid hbound hok.jti hok.expires ht).2⟩
    | vacant c' hphase hfresh => cases ha
    | move _ leases log _ _ _ hpledge =>
      rcases hpledge with hnone | hsame
      · exact absurd (hnone.symm.trans ha) (by simp)
      · exact hkept a t (hsame.symm.trans ha) ht
    | leave _ log _ _ _ _ hpledge =>
      rcases hpledge with hnone | hsame
      · exact absurd (hnone.symm.trans ha) (by simp)
      · exact hkept a t (hsame.symm.trans ha) ht
    | commit c jti ttl hphase =>
      obtain rfl := Option.some.inj ha
      have hsigning : signing (formats C) d.base r (.commit jti ttl) = some t := by
        simp only [signing, hphase, ht]
      have huuid := (hr.ident c (by rw [hphase]; rfl)).2.2
      simp only [possible, Bool.and_eq_true, decide_eq_true_eq] at hi
      exact ⟨hsigned t hsigning, (ticket_of_response huuid hr.user hi.1.1
        ((wholeSecond_le _).trans_lt hi.1.2) ht).2⟩
    | commitFails e c jti ttl hphase => cases ha

theorem stepOk_request {d' : TicketData} (hd : DataOk C d) (hr : RequestOk d r)
    (h : advanceCreate C owner d r i = some (d', r')) :
    StepOk C d d' (.request r) [.request r'] := by
  unfold advanceCreate at h
  split_ifs at h with hi
  obtain ⟨⟨base, p⟩, hstep, hafter⟩ := Option.map_eq_some_iff.mp h
  obtain ⟨rfl, rfl⟩ := Prod.mk.inj hafter
  obtain ⟨heffect, huser, hpayload⟩ := effect_of_advance hstep
  refine ⟨dataOk_effect hd hr hi heffect fun x hx => ?_, frame_of_effect heffect, ?_, by simp,
    fun k hfree hlocked => ?_⟩
  · obtain ⟨hsigning, hdevice⟩ := mem_signed hx
    exact hdevice ▸ signing_ok hd hr hi hsigning
  · rintro _ (_ | ⟨_, ⟨⟩⟩)
    exact requestOk_effect hd hr hi heffect huser hpayload
  · obtain ⟨hguarded, hheld⟩ := guarded_effect heffect huser hfree hlocked
    refine ⟨hguarded, ?_⟩
    rintro _ (_ | ⟨_, ⟨⟩⟩)
    exact hheld

end RequestSteps

/-! ### Steps of a consumer -/

section ConsumeSteps

variable {d : TicketData} {c : Consume}

/-- A step of a consumer, with its locks before and after. -/
theorem stepOk_consume {d' : TicketData} {c' : Consume} (hd : DataOk C d') (hf : Frame d d')
    (hc : ConsumeOk C d' c')
    (hguarded : ∀ k, ¬holds (.consume c) k → locked d k → Guarded k d d' ∧ ¬holds (.consume c') k) :
    StepOk C d d' (.consume c) [.consume c'] := by
  refine ⟨hd, hf, ?_, by simp, fun k hfree hlocked => ?_⟩
  · rintro _ (_ | ⟨_, ⟨⟩⟩)
    exact hc
  · obtain ⟨hkept, hheld⟩ := hguarded k hfree hlocked
    refine ⟨hkept, ?_⟩
    rintro _ (_ | ⟨_, ⟨⟩⟩)
    exact hheld

/-- A step that leaves the data and the locks as they are. -/
theorem stepOk_stay {c' : Consume} (hd : DataOk C d) (hc : ConsumeOk C d c)
    (hlocks : c'.phase.locks c'.callId = c.phase.locks c.callId) (hknows : Knows C d c' c'.phase) :
    StepOk C d d (.consume c) [.consume c'] := by
  refine stepOk_consume hd (Frame.refl d)
    ⟨fun u hu => hc.user u (hlocks ▸ hu), fun x hx => hc.call x (hlocks ▸ hx), hknows⟩
    fun k hfree hlocked => ⟨guarded_refl hlocked, fun hk => hfree ?_⟩
  cases k with
  | user u => exact (congrArg Prod.fst hlocks).symm.trans hk
  | call x => exact (congrArg Prod.snd hlocks).symm.trans hk
  | ident x => exact hk

theorem dataOk_locks {base : CreateData} {held : List Ident} (hd : DataOk C d)
    (hcalls : base.calls = d.base.calls) (hrecords : base.records = d.base.records)
    (hdrawn : base.drawn = d.base.drawn) : DataOk C { d with base := base, held := held } :=
  hd.kept hcalls hrecords rfl ⟨fun c hc => by rwa [hdrawn], fun x hx => hx⟩ hd.issued

theorem stepOk_verify (hd : DataOk C d) (hc : ConsumeOk C d c) (hphase : c.phase = .received)
    (hticket : Unforged C .voiceCall d.tickets c.ticket) :
    StepOk C d d (.consume c) [.consume (c.verified C)] := by
  have hsigned : ∀ t ∈ d.tickets, WellFormed t := by
    intro t ht
    obtain ⟨x, hx, rfl⟩ := List.mem_map.mp ht
    exact (hd.issued x hx).1
  unfold Consume.verified
  split
  · rename_i value hvalue
    refine stepOk_stay hd hc (by rw [hphase]; rfl) ?_
    obtain ⟨t, ht, hvalue, hissue, hpurpose, hcall, hdevice, hexpires⟩ :=
      issued_of_verify hsigned hticket hvalue
    obtain ⟨x, hx, rfl⟩ := List.mem_map.mp ht
    exact ⟨x, hx, hissue, hvalue, hpurpose, hcall, hdevice, by dsimp only; omega⟩
  · exact stepOk_stay hd hc (by rw [hphase]; rfl) trivial

/-- The row of the user is locked. -/
theorem stepOk_lockUser {c' : Consume} {u : ℕ} (hd : DataOk C d)
    (hfree : u ∉ d.base.locked) (hlocks : c'.phase.locks c'.callId = (some u, none))
    (hknows : Knows C (d.withBase { d.base with locked := u :: d.base.locked }) c' c'.phase) :
    StepOk C d (d.withBase { d.base with locked := u :: d.base.locked }) (.consume c)
      [.consume c'] := by
  refine stepOk_consume (dataOk_locks hd rfl rfl rfl) ⟨fun _ h => h, fun _ h => h⟩
    ⟨fun v hv => ?_, fun x hx => ?_, hknows⟩ fun k hnot hlocked => ⟨?_, fun hk => ?_⟩
  · rw [hlocks] at hv
    obtain rfl : u = v := Option.some.inj hv
    exact List.mem_cons_self
  · rw [hlocks] at hx
    cases hx
  · cases k with
    | user v => exact ⟨fun _ => rfl, rfl, List.mem_cons_of_mem _ hlocked⟩
    | call x => exact ⟨fun _ _ hcall => hcall, hlocked⟩
    | ident x => exact id
  · cases k with
    | user v =>
      have hv := (congrArg Prod.fst hlocks).symm.trans hk
      exact hfree (Option.some.inj hv ▸ hlocked)
    | call x => cases (congrArg Prod.snd hlocks).symm.trans hk
    | ident x => exact hk

theorem recordOf_eq_some {u : ℕ} {x : Ident} {found : Text × ReplayRecord}
    (h : d.recordOf u x = some found) :
    d.base.records.lookup (u, found.1) = some found.2 ∧ found.2.callId = x := by
  obtain ⟨⟨⟨v, key⟩, record⟩, hmem, hfound⟩ := List.exists_of_findSome?_eq_some h
  dsimp only at hfound
  split_ifs at hfound with hmatch
  obtain rfl := Option.some.inj hfound
  obtain ⟨rfl, hid⟩ := hmatch
  exact ⟨AList.mem_lookup_iff.mpr hmem, hid⟩

/-- The row of the call is locked too. -/
theorem stepOk_lockCall {c' : Consume} {u : ℕ} (hd : DataOk C d) (hc : ConsumeOk C d c)
    (hbefore : c.phase.locks c.callId = (some u, none)) (hfree : c.callId ∉ d.held)
    (hlocks : c'.phase.locks c'.callId = (some u, some c.callId))
    (hknows : Knows C { d with held := c.callId :: d.held } c' c'.phase) :
    StepOk C d { d with held := c.callId :: d.held } (.consume c) [.consume c'] := by
  refine stepOk_consume (dataOk_locks hd rfl rfl rfl) ⟨fun _ h => h, fun _ h => h⟩
    ⟨fun v hv => ?_, fun x hx => ?_, hknows⟩ fun k hnot hlocked => ⟨?_, fun hk => ?_⟩
  · exact hc.user v ((congrArg Prod.fst hbefore).trans ((congrArg Prod.fst hlocks).symm.trans hv))
  · rw [hlocks] at hx
    obtain rfl : c.callId = x := Option.some.inj hx
    exact List.mem_cons_self
  · cases k with
    | user v => exact ⟨fun _ => rfl, rfl, hlocked⟩
    | call x => exact ⟨fun _ _ h => h, List.mem_cons_of_mem _ hlocked⟩
    | ident x => exact id
  · cases k with
    | user v =>
      exact hnot ((congrArg Prod.fst hbefore).trans ((congrArg Prod.fst hlocks).symm.trans hk))
    | call x =>
      have hx := (congrArg Prod.snd hlocks).symm.trans hk
      exact hfree (Option.some.inj hx ▸ hlocked)
    | ident x => exact hk

theorem dataOk_release {u : Option ℕ} {call : Option Ident} (hd : DataOk C d) :
    DataOk C (d.release u call) := by
  cases u <;> cases call <;> exact dataOk_locks hd rfl rfl rfl

/-- The locks are given back at the end, after `d` has become `d'` under them. -/
theorem stepOk_release {d' : TicketData} {c' : Consume} {u : Option ℕ} {call : Option Ident}
    (hd : DataOk C d') (hf : Frame d d') (hbefore : c.phase.locks c.callId = (u, call))
    (hlocks : c'.phase.locks c'.callId = (none, none)) (hknows : Knows C (d'.release u call) c' c'.phase)
    (hguarded : ∀ k, ¬holds (.consume c) k → locked d k → Guarded k d d') :
    StepOk C d (d'.release u call) (.consume c) [.consume c'] := by
  refine stepOk_consume (dataOk_release hd) ?_ ⟨fun v hv => ?_, fun x hx => ?_, hknows⟩
    fun k hnot hlocked => ⟨?_, fun hk => ?_⟩
  · cases u <;> cases call <;> exact ⟨hf.drawn, hf.issued⟩
  · rw [hlocks] at hv
    cases hv
  · rw [hlocks] at hx
    cases hx
  · have hkept := hguarded k hnot hlocked
    cases k with
    | user v =>
      have hne : u ≠ some v := fun heq => hnot ((congrArg Prod.fst hbefore).trans heq)
      refine ⟨fun key => ?_, ?_, ?_⟩
      · rw [← hkept.1 key]
        cases u <;> rfl
      · exact hkept.2.1
      · cases u with
        | none => exact hkept.2.2
        | some v' => exact (List.mem_erase_of_ne fun heq => hne (congrArg some heq.symm)).mpr hkept.2.2
    | call x =>
      have hne : call ≠ some x := fun heq => hnot ((congrArg Prod.snd hbefore).trans heq)
      refine ⟨fun v row hrow => ?_, ?_⟩
      · have hrow' := hkept.1 v row hrow
        cases u <;> exact hrow'
      · cases call with
        | none => exact hkept.2
        | some y => exact (List.mem_erase_of_ne fun heq => hne (congrArg some heq.symm)).mpr hkept.2
    | ident x =>
      intro hrow
      have hrow' := hkept hrow
      cases u <;> exact hrow'
  · cases k with
    | user v => cases (congrArg Prod.fst hlocks).symm.trans hk
    | call x => cases (congrArg Prod.snd hlocks).symm.trans hk
    | ident x => exact hk

/-! ### The commit -/

/-- The ticket is consumed: the one record of the call is marked. -/
theorem dataOk_take {u : ℕ} {key : Text} {call : CallRow} {record : ReplayRecord} (hd : DataOk C d)
    (hchecked : Checked C d c u key call) (hholder : c.holder = some c.callId)
    (hrecord : d.base.records.lookup (u, key) = some record) :
    DataOk C (d.take c u key record) := by
  obtain ⟨hunder, hflag, ⟨record', hlookup, hid, hconsumable⟩, hcall⟩ := hchecked
  obtain rfl : record = record' := Option.some.inj (hrecord.symm.trans hlookup)
  simp only [consumable, Bool.and_eq_true, Bool.or_eq_true, decide_eq_true_eq] at hconsumable
  obtain ⟨⟨⟨-, hunmarked⟩, -⟩, hstatus⟩ := hconsumable
  have hok := hd.records _ _ hrecord
  have hfresh : c.callId ∉ d.consumed.map (·.callId) := by
    rw [← hid, ← hok.marked, Option.isNone_iff_eq_none.mp hunmarked]
    simp
  have hnew : ∀ k x, (d.take c u key record).base.records.lookup k = some x →
      ∃ x', d.base.records.lookup k = some x' ∧ x.callId = x'.callId ∧ x.ticketJti = x'.ticketJti ∧
        x.ticketExpiresAt = x'.ticketExpiresAt ∧
        (k = (u, key) ∧ x.ticketConsumedAt.isSome = true ∧ x.callId = c.callId ∨
          k ≠ (u, key) ∧ x.ticketConsumedAt = x'.ticketConsumedAt) := by
    intro k x hk
    by_cases hkey : k = (u, key)
    · subst hkey
      obtain rfl := Option.some.inj ((AList.lookup_insert _).symm.trans hk)
      exact ⟨record, hrecord, rfl, rfl, rfl, .inl ⟨rfl, rfl, hid⟩⟩
    · exact ⟨x, (AList.lookup_insert_ne hkey).symm.trans hk, rfl, rfl, rfl, .inr ⟨hkey, rfl⟩⟩
  have hconsumed : (d.take c u key record).consumed.map (·.callId) =
      d.consumed.map (·.callId) ++ [c.callId] := by simp [TicketData.take]
  constructor
  · exact hd.calls
  · intro k x hk
    obtain ⟨x', hx', hcallId, hjti, hexpires, hmark⟩ := hnew k x hk
    have hok' := hd.records k x' hx'
    refine ⟨hcallId ▸ hok'.call, hjti ▸ hok'.jti, hexpires ▸ hok'.expires, ?_⟩
    rw [hconsumed, List.mem_append, List.mem_singleton]
    rcases hmark with ⟨-, hsome, heq⟩ | ⟨hne, hsame⟩
    · exact iff_of_true hsome (.inr heq)
    · rw [hsame, hok'.marked, hcallId]
      refine ⟨.inl, fun h => h.resolve_right fun heq => hne ?_⟩
      exact hd.distinct k (u, key) x' record hx' hrecord (heq.trans hid.symm)
  · intro k k' x y hk hk' heq
    obtain ⟨x', hx', hxid, -⟩ := hnew k x hk
    obtain ⟨y', hy', hyid, -⟩ := hnew k' y hk'
    exact hd.distinct k k' x' y' hx' hy' (hxid.symm.trans (heq.trans hyid))
  · exact hd.issued
  · intro x hx
    rcases List.mem_append.mp hx with hx | hx
    · exact hd.consumed x hx
    · obtain rfl := List.mem_singleton.mp hx
      obtain ⟨y, hy, hvouched⟩ := hunder.backed
      have huser : y.1.userId = u := by
        have huser := hunder.user
        rw [hvouched.value, userOf, intField_userId] at huser
        exact Option.some.inj huser
      refine ⟨⟨⟨y, hy, hvouched.ticket, hvouched.purpose, huser, hvouched.callId, hvouched.device,
        (hd.issued y hy).2, hvouched.expires⟩, ?_, ⟨hunder.row, hflag⟩, hholder⟩, hid ▸ hok.call⟩
      dsimp only
      rw [hcall]
      exact hstatus.imp (congrArg some) (congrArg some)
  · refine List.pairwise_append.mpr ⟨hd.once, List.pairwise_singleton _ _, ?_⟩
    intro x hx y hy heq
    obtain rfl := List.mem_singleton.mp hy
    exact hfresh (List.mem_map.mpr ⟨x, hx, heq⟩)

theorem stepOk_commit {u : ℕ} {key : Text} {call : CallRow} {record : ReplayRecord} (hd : DataOk C d)
    (hc : ConsumeOk C d c) (hphase : c.phase = .leased u key call)
    (hrecord : d.base.records.lookup (u, key) = some record) :
    StepOk C d ((d.take c u key record).release (some u) (some c.callId)) (.consume c)
      [.consume (c.withPhase (.done call))] := by
  have hknows := hc.knows
  rw [hphase] at hknows
  refine stepOk_release (dataOk_take hd hknows.1 hknows.2 hrecord) ⟨fun _ h => h, fun _ h => h⟩
    (by rw [hphase]; rfl) rfl trivial fun k hnot hlocked => ?_
  cases k with
  | user v =>
    have hne : u ≠ v := by
      rintro rfl
      exact hnot (by rw [holds, hphase]; rfl)
    exact ⟨fun key' => AList.lookup_insert_ne fun heq => hne (Prod.mk.inj heq).1.symm, rfl, hlocked⟩
  | call x => exact ⟨fun _ _ h => h, hlocked⟩
  | ident x => exact id

theorem stepOk_advanceConsume {d' : TicketData} {c' : Consume} {i : TicketInput} (hd : DataOk C d)
    (hc : ConsumeOk C d c) (hticket : unforged C d (.consume c) i)
    (h : advanceConsume C d c i = some (d', c')) : StepOk C d d' (.consume c) [.consume c'] := by
  have hknows := hc.knows
  unfold advanceConsume at h
  split at h
  · split_ifs at h with hphase
    obtain ⟨rfl, rfl⟩ := Prod.mk.inj (Option.some.inj h)
    exact stepOk_verify hd hc hphase hticket
  · split at h
    · rename_i hphase
      rw [hphase] at hknows
      split at h
      · obtain ⟨rfl, rfl⟩ := Prod.mk.inj (Option.some.inj h)
        exact stepOk_stay hd hc (by rw [hphase]; rfl) trivial
      · rename_i u banned hfound
        obtain ⟨v, huser, hfound⟩ := Option.bind_eq_some_iff.mp hfound
        obtain ⟨b, hrow, heq⟩ := Option.map_eq_some_iff.mp hfound
        obtain ⟨rfl, rfl⟩ := Prod.mk.inj heq
        split_ifs at h with hfree hbanned
        · obtain ⟨rfl, rfl⟩ := Prod.mk.inj (Option.some.inj h)
          exact stepOk_lockUser hd hfree rfl trivial
        · obtain ⟨rfl, rfl⟩ := Prod.mk.inj (Option.some.inj h)
          rw [Bool.not_eq_true] at hbanned
          exact stepOk_lockUser hd hfree rfl ⟨hknows.moved rfl rfl, huser, hbanned ▸ hrow⟩
    · cases h
  · split at h
    · rename_i u hphase
      rw [hphase] at hknows
      split_ifs at h with hflag
      · obtain ⟨rfl, rfl⟩ := Prod.mk.inj (Option.some.inj h)
        exact stepOk_stay hd hc (by rw [hphase]; rfl) trivial
      · obtain ⟨rfl, rfl⟩ := Prod.mk.inj (Option.some.inj h)
        exact stepOk_stay hd hc (by rw [hphase]; rfl)
          ⟨hknows.moved rfl rfl rfl, decide_eq_false hflag⟩
    · cases h
  · split at h
    · rename_i u hphase
      rw [hphase] at hknows
      obtain ⟨rfl, rfl⟩ := Prod.mk.inj (Option.some.inj h)
      exact stepOk_stay hd hc (by rw [hphase]; rfl)
        ⟨hknows.1.moved rfl rfl rfl, hknows.2, fun x hx => recordOf_eq_some hx⟩
    · cases h
  · split at h
    · rename_i u record hphase
      rw [hphase] at hknows
      have hbefore : c.phase.locks c.callId = (some u, none) := by rw [hphase]; rfl
      split at h
      · obtain ⟨rfl, rfl⟩ := Prod.mk.inj (Option.some.inj h)
        exact stepOk_stay hd hc hbefore.symm trivial
      · rename_i call hcall
        split_ifs at h with hfree
        obtain ⟨rfl, rfl⟩ := Prod.mk.inj (Option.some.inj h)
        obtain ⟨hunder, hflag, hrecord⟩ := hknows
        cases record with
        | none => exact stepOk_lockCall hd hc hbefore hfree rfl trivial
        | some x =>
          obtain ⟨key, record⟩ := x
          dsimp only
          split_ifs with hconsumable
          · obtain ⟨hlookup, hid⟩ := hrecord (key, record) rfl
            exact stepOk_lockCall hd hc hbefore hfree rfl
              ⟨hunder.moved rfl rfl rfl, hflag, ⟨record, hlookup, hid, hconsumable⟩, hcall⟩
          · exact stepOk_lockCall hd hc hbefore hfree rfl trivial
    · cases h
  · split at h
    · rename_i u key call hphase
      rw [hphase] at hknows
      split_ifs at h with howner
      · obtain ⟨rfl, rfl⟩ := Prod.mk.inj (Option.some.inj h)
        exact stepOk_stay hd hc (by rw [hphase]; rfl)
          ⟨⟨hknows.under.moved rfl rfl rfl, hknows.flag, hknows.record, hknows.call⟩, howner⟩
      · obtain ⟨rfl, rfl⟩ := Prod.mk.inj (Option.some.inj h)
        exact stepOk_stay hd hc (by rw [hphase]; rfl) trivial
    · cases h
  · split at h
    · rename_i u key call hphase
      split at h
      · rename_i record hrecord
        obtain ⟨rfl, rfl⟩ := Prod.mk.inj (Option.some.inj h)
        exact stepOk_commit hd hc hphase hrecord
      · obtain ⟨rfl, rfl⟩ := Prod.mk.inj (Option.some.inj h)
        exact stepOk_stay hd hc (by rw [hphase]; rfl) trivial
    · cases h
  · split at h
    case h_7 => cases h
    all_goals
      obtain ⟨rfl, rfl⟩ := Prod.mk.inj (Option.some.inj h)
      exact stepOk_stay hd hc rfl trivial
  · split at h
    · rename_i e u call hphase
      obtain ⟨rfl, rfl⟩ := Prod.mk.inj (Option.some.inj h)
      exact stepOk_release hd (Frame.refl d) (by rw [hphase]; rfl) rfl trivial
        fun k _ hlocked => guarded_refl hlocked
    · cases h
  · cases h

end ConsumeSteps

/-! ### Steps of the others -/

section OtherSteps

variable {d d' : TicketData}

theorem stepOk_others (hd : DataOk C d') (hf : Frame d d')
    (hguarded : ∀ k, locked d k → Guarded k d d') : StepOk C d d' .others [.others] := by
  refine ⟨hd, hf, ?_, by simp, fun k _ hlocked => ⟨hguarded k hlocked, ?_⟩⟩
  · rintro _ (_ | ⟨_, ⟨⟩⟩)
    trivial
  · rintro _ (_ | ⟨_, ⟨⟩⟩)
    exact id

/-- Tables, locks and history are kept. -/
theorem stepOk_aside {clock : ℕ} {leases : LeaseTable} (hd : DataOk C d) :
    StepOk C d (d.withBase { d.base with clock := clock, leases := leases }) .others [.others] := by
  refine stepOk_others (dataOk_locks hd rfl rfl rfl) ⟨fun _ h => h, fun _ h => h⟩ fun k hlocked => ?_
  cases k with
  | user u => exact ⟨fun _ => rfl, rfl, hlocked⟩
  | call c => exact ⟨fun _ _ hrow => hrow, hlocked⟩
  | ident c => exact id

/-- What a transition makes of a row. -/
def moved (call : Ident) (status : CallStatus) (row : CallRow) : CallRow :=
  if row.callId = call ∧ mayBecome row.status status = true then { row with status := status } else row

theorem moved_fields (call : Ident) (status : CallStatus) (row : CallRow) :
    (moved call status row).callId = row.callId ∧ (moved call status row).userId = row.userId := by
  unfold moved
  split_ifs <;> exact ⟨rfl, rfl⟩

theorem stepOk_transition {call : Ident} {status : CallStatus} (hd : DataOk C d)
    (hfree : call ∉ d.held) :
    StepOk C d (d.withBase { d.base with calls := d.base.calls.map (moved call status) }) .others
      [.others] := by
  have hids : callIds { d.base with calls := d.base.calls.map (moved call status) } =
      callIds d.base := by
    rw [callIds, List.map_map]
    exact List.map_congr_left fun row _ => (moved_fields call status row).1
  have hf : Frame d (d.withBase { d.base with calls := d.base.calls.map (moved call status) }) :=
    ⟨fun _ h => h, fun _ h => h⟩
  refine stepOk_others ?_ hf fun k hlocked => ?_
  · constructor
    · intro row hrow
      obtain ⟨row', hrow', rfl⟩ := List.mem_map.mp hrow
      rw [(moved_fields call status row').1, (moved_fields call status row').2]
      exact hd.calls row' hrow'
    · intro k record hk
      obtain ⟨hcall, hjti, hexpires, hmarked⟩ := hd.records k record hk
      exact ⟨hids.symm ▸ hcall, hjti, hexpires, hmarked⟩
    · exact hd.distinct
    · exact hd.issued
    · intro x hx
      exact ⟨(hd.consumed x hx).1, hids.symm ▸ (hd.consumed x hx).2⟩
    · exact hd.once
  · cases k with
    | user u => exact ⟨fun _ => rfl, rfl, hlocked⟩
    | call c =>
      refine ⟨fun u row hrow => ?_, hlocked⟩
      have hmatch : (fun row : CallRow => decide (row.callId = c ∧ row.userId = u)) ∘
          moved call status = fun row => decide (row.callId = c ∧ row.userId = u) := by
        funext row
        simp [moved_fields call status row]
      have hsame : moved call status row = row := by
        have hid : row.callId = c ∧ row.userId = u := by simpa using List.find?_some hrow
        refine if_neg fun h => hfree ?_
        rw [← h.1, hid.1]
        exact hlocked
      unfold TicketData.callOf at hrow ⊢
      simp only [TicketData.withBase, List.find?_map, hmatch, hrow, Option.map_some, hsame]
    | ident c => exact fun hrow hmem => hrow (hids ▸ hmem)

theorem lookup_erase_eq {k k' : ℕ × Text} {record : ReplayRecord}
    (h : (d.base.records.erase k).lookup k' = some record) : d.base.records.lookup k' = some record := by
  by_cases hk : k' = k
  · subst hk
    rw [AList.lookup_erase] at h
    cases h
  · exact (AList.lookup_erase_ne hk).symm.trans h

theorem stepOk_purge {u : ℕ} {key : Text} (hd : DataOk C d) (hfree : u ∉ d.base.locked) :
    StepOk C d (d.withBase { d.base with records := d.base.records.erase (u, key) }) .others
      [.others] := by
  refine stepOk_others ?_ ⟨fun _ h => h, fun _ h => h⟩ fun k hlocked => ?_
  · constructor
    · exact hd.calls
    · intro k record hk
      obtain ⟨hcall, hjti, hexpires, hmarked⟩ := hd.records k record (lookup_erase_eq hk)
      exact ⟨hcall, hjti, hexpires, hmarked⟩
    · intro k k' record record' hk hk'
      exact hd.distinct k k' record record' (lookup_erase_eq hk) (lookup_erase_eq hk')
    · exact hd.issued
    · exact hd.consumed
    · exact hd.once
  · cases k with
    | user v =>
      have hne : v ≠ u := by
        rintro rfl
        exact hfree hlocked
      exact ⟨fun key' => AList.lookup_erase_ne fun heq => hne (Prod.mk.inj heq).1, rfl, hlocked⟩
    | call c => exact ⟨fun _ _ hrow => hrow, hlocked⟩
    | ident c => exact id

theorem stepOk_setUser {u : ℕ} {banned : Bool} (hd : DataOk C d) (hfree : u ∉ d.base.locked) :
    StepOk C d { d with users := d.users.insert u banned } .others [.others] := by
  refine stepOk_others (hd.kept rfl rfl rfl ⟨fun _ h => h, fun _ h => h⟩ hd.issued)
    ⟨fun _ h => h, fun _ h => h⟩ fun k hlocked => ?_
  cases k with
  | user v =>
    have hne : v ≠ u := by
      rintro rfl
      exact hfree hlocked
    exact ⟨fun _ => rfl, AList.lookup_insert_ne hne, hlocked⟩
  | call c => exact ⟨fun _ _ hrow => hrow, hlocked⟩
  | ident c => exact id

theorem stepOk_setFlag {flags : List ℕ} (hd : DataOk C d) :
    StepOk C d { d with flags := flags } .others [.others] := by
  refine stepOk_others (hd.kept rfl rfl rfl ⟨fun _ h => h, fun _ h => h⟩ hd.issued)
    ⟨fun _ h => h, fun _ h => h⟩ fun k hlocked => ?_
  cases k with
  | user v => exact ⟨fun _ => rfl, rfl, hlocked⟩
  | call c => exact ⟨fun _ _ hrow => hrow, hlocked⟩
  | ident c => exact id

theorem stepOk_reconnect {u expiresMs : ℕ} {callId jti deviceId : Text} (hd : DataOk C d)
    (hcall : isUuid callId = true) (hjti : isUuid jti = true) (hu : u < 2 ^ 31)
    (hexpires : expiresMs * 1000 < datetimeEnd) :
    StepOk C d { d with
      issued := d.issued ++ [(⟨.voiceReconnect, u, callId, jti, C.sha256 deviceId, expiresMs⟩,
        deviceId)] } .others [.others] := by
  unfold datetimeEnd at hexpires
  have hf : Frame d { d with
      issued := d.issued ++ [(⟨.voiceReconnect, u, callId, jti, C.sha256 deviceId, expiresMs⟩,
        deviceId)] } := ⟨fun _ h => h, fun _ h => List.mem_append_left _ h⟩
  refine stepOk_others (hd.kept rfl rfl rfl hf fun x hx => ?_) hf fun k hlocked => ?_
  · rcases List.mem_append.mp hx with hx | hx
    · exact hd.issued x hx
    · obtain rfl := List.mem_singleton.mp hx
      exact ⟨⟨isUuid_spec hcall, isUuid_spec hjti, plain_sha256 C _, by dsimp only; omega,
        ⟨expiresMs, rfl, by omega⟩⟩, rfl⟩
  · cases k with
    | user v => exact ⟨fun _ => rfl, rfl, hlocked⟩
    | call c => exact ⟨fun _ _ hrow => hrow, hlocked⟩
    | ident c => exact id

theorem stepOk_advanceOthers {i : TicketInput} (hd : DataOk C d)
    (h : TicketUse.advanceOthers C d i = some d') : StepOk C d d' .others [.others] := by
  unfold TicketUse.advanceOthers at h
  split at h
  · cases h
  · split_ifs at h with hfree
    obtain ⟨base, hbase, rfl⟩ := Option.map_eq_some_iff.mp h
    obtain rfl := Option.some.inj hbase
    exact stepOk_transition hd hfree
  · rename_i i hconsume htransition
    obtain ⟨base, hbase, rfl⟩ := Option.map_eq_some_iff.mp h
    unfold CallCreation.advanceOthers at hbase
    split at hbase
    · split_ifs at hbase
      obtain rfl := Option.some.inj hbase
      exact stepOk_aside hd
    · cases hbase
    · obtain ⟨s, -, rfl⟩ := Option.map_eq_some_iff.mp hbase
      exact stepOk_aside hd
    · exact absurd rfl (htransition _ _)
    · exact absurd rfl (hconsume _ _)
    · split_ifs at hbase with hfree
      obtain rfl := Option.some.inj hbase
      exact stepOk_purge hd hfree.1
    · cases hbase
  · split_ifs at h with hfree
    obtain rfl := Option.some.inj h
    exact stepOk_setUser hd fun hmem => hfree (.inl hmem)
  · obtain rfl := Option.some.inj h
    exact stepOk_setFlag hd
  · split_ifs at h with hok
    obtain rfl := Option.some.inj h
    exact stepOk_reconnect hd hok.1 hok.2.1 hok.2.2.1 hok.2.2.2
  · cases h

end OtherSteps

/-! ### Runs -/

theorem begin_phase (F : Formats) (d : CreateData) (u : ℕ) (key : Text) (payload : CreateRequest) :
    inside (begin F d u key payload).phase = false ∧ identOf (begin F d u key payload).phase = none ∧
      pledge (begin F d u key payload).phase = none := by
  unfold begin
  dsimp only
  split <;> exact ⟨rfl, rfl, rfl⟩

/-- A task that has just started holds nothing and knows nothing. -/
theorem started_ok {d : TicketData} {i : TicketInput} {ts : List TicketTask}
    (h : (ticketUse C owner).accept d i = some ts) :
    ts.length ≤ 1 ∧ ∀ t ∈ ts, TaskOk C d t ∧ ∀ k, ¬holds t k := by
  simp only [ticketUse] at h
  split at h
  · rename_i u key payload
    split_ifs at h with hu
    obtain rfl := Option.some.inj h
    obtain ⟨hin, hid, hpledge⟩ := begin_phase (formats C) d.base u key payload
    refine ⟨le_rfl, ?_⟩
    rintro _ (_ | ⟨_, ⟨⟩⟩)
    refine ⟨⟨hu, fun hin' => ?_, fun c hc => ?_, fun a t ha _ => ?_⟩, fun k hk => ?_⟩
    · exact absurd (hin.symm.trans hin') (by simp)
    · exact absurd (hid.symm.trans hc) (by simp)
    · exact absurd (hpledge.symm.trans ha) (by simp)
    · cases k with
      | user v => exact absurd (hin.symm.trans hk.1) (by simp)
      | call x => exact hk
      | ident x => exact absurd (hid.symm.trans hk) (by simp)
  · obtain rfl := Option.some.inj h
    refine ⟨le_rfl, ?_⟩
    rintro _ (_ | ⟨_, ⟨⟩⟩)
    exact ⟨trivial, fun k => id⟩
  · obtain rfl := Option.some.inj h
    refine ⟨le_rfl, ?_⟩
    rintro _ (_ | ⟨_, ⟨⟩⟩)
    refine ⟨⟨nofun, nofun, trivial⟩, fun k hk => ?_⟩
    cases k <;> cases hk
  · cases h

theorem holds_of_reachable {w : World TicketData TicketTask}
    (hw : (ticketUse C owner).machine.ReachableUnder (guard (unforged C)) w) :
    Holds (DataOk C) (TaskOk C) (Separate holds) w := by
  refine reachableUnder_holds (R := Separate holds) separate_symm ?_ ?_ ?_ hw
  · rintro d ⟨clock, now, rfl⟩
    exact ⟨by simp, by simp, by simp, by simp, by simp, .nil⟩
  · intro d i ts _ h
    obtain ⟨hsingle, hstarted⟩ := started_ok h
    refine ⟨fun t ht => (hstarted t ht).1, ?_,
      fun u t ht => separate_of_free (hstarted t ht).2⟩
    rcases ts with _ | ⟨t, _ | ⟨u, rest⟩⟩
    · exact .nil
    · exact List.pairwise_singleton _ _
    · simp at hsingle
  · intro d t i d' ts hd ht hok h
    refine KeyedStep.establishes discipline ?_
    cases t with
    | request r =>
      cases i with
      | create i =>
        obtain ⟨⟨d'', r'⟩, hstep, heq⟩ := Option.map_eq_some_iff.mp h
        obtain ⟨rfl, rfl⟩ := Prod.mk.inj heq
        exact stepOk_request hd ht hstep
      | _ => cases h
    | consume c =>
      obtain ⟨⟨d'', c'⟩, hstep, heq⟩ := Option.map_eq_some_iff.mp h
      obtain ⟨rfl, rfl⟩ := Prod.mk.inj heq
      exact stepOk_advanceConsume hd ht hok hstep
    | others =>
      obtain ⟨d'', hstep, heq⟩ := Option.map_eq_some_iff.mp h
      obtain ⟨rfl, rfl⟩ := Prod.mk.inj heq
      exact stepOk_advanceOthers hd hstep

end CompanionBackend.TicketSteps
