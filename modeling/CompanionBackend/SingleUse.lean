import CompanionBackend.TicketSteps

/-!
# A ticket is used once

The consumers that return are those whose tickets were consumed, and no two of these are of one call.
-/
namespace CompanionBackend.SingleUse

open Runs TaskSystems TaskSystem FlatJson CallCreation TicketCodec TicketUse
open ReconnectService (Purpose Ticket)
open ProviderEvents (Ident)
open CallExclusion (answerOf)
open CreateEffects TicketSteps

variable {C : Crypto} {owner : Ident → ℕ}

def entry (x : Consumption) : Text × Ident × Text × ℕ := (x.ticket, x.callId, x.deviceId, x.now)

/-- The consumers that have returned. -/
def returned : TicketTask → Option (Text × Ident × Text × ℕ)
  | .consume c =>
    match c.phase with
    | .done _ => some (c.ticket, c.callId, c.deviceId, c.now)
    | _ => none
  | _ => none

/-- What a step of a consumer does to the records and the history. -/
theorem advanceConsume_history {d d' : TicketData} {c c' : Consume} {i : TicketInput}
    (h : advanceConsume C d c i = some (d', c')) :
    returned (.consume c) = none ∧
      (returned (.consume c') = none ∧ d'.base.records = d.base.records ∧
          d'.consumed = d.consumed ∨
        ∃ x, returned (.consume c') = some (entry x) ∧ d'.consumed = d.consumed ++ [x]) := by
  have hstay : ∀ {d'' c''}, some (d'', c'') = some (d', c') → returned (.consume c'') = none →
      d''.base.records = d.base.records → d''.consumed = d.consumed →
      returned (.consume c') = none ∧ d'.base.records = d.base.records ∧
        d'.consumed = d.consumed := by
    rintro d'' c'' heq hreturned hrecords hconsumed
    obtain ⟨rfl, rfl⟩ := Prod.mk.inj (Option.some.inj heq)
    exact ⟨hreturned, hrecords, hconsumed⟩
  unfold advanceConsume at h
  split at h
  · split_ifs at h with hphase
    refine ⟨by simp [returned, hphase], .inl (hstay h ?_ rfl rfl)⟩
    unfold Consume.verified
    split <;> rfl
  · split at h
    · rename_i hphase
      refine ⟨by simp [returned, hphase], .inl ?_⟩
      split at h
      · exact hstay h rfl rfl rfl
      · split_ifs at h <;> exact hstay h rfl rfl rfl
    · cases h
  · split at h
    · rename_i u hphase
      refine ⟨by simp [returned, hphase], .inl ?_⟩
      split_ifs at h <;> exact hstay h rfl rfl rfl
    · cases h
  · split at h
    · rename_i u hphase
      exact ⟨by simp [returned, hphase], .inl (hstay h rfl rfl rfl)⟩
    · cases h
  · split at h
    · rename_i u record hphase
      refine ⟨by simp [returned, hphase], .inl ?_⟩
      split at h
      · exact hstay h rfl rfl rfl
      · split_ifs at h
        refine hstay h ?_ rfl rfl
        split
        · split_ifs <;> rfl
        · rfl
    · cases h
  · split at h
    · rename_i u key call hphase
      refine ⟨by simp [returned, hphase], .inl ?_⟩
      split_ifs at h <;> exact hstay h rfl rfl rfl
    · cases h
  · split at h
    · rename_i u key call hphase
      refine ⟨by simp [returned, hphase], ?_⟩
      split at h
      · obtain ⟨rfl, rfl⟩ := Prod.mk.inj (Option.some.inj h)
        exact .inr ⟨_, rfl, rfl⟩
      · exact .inl (hstay h rfl rfl rfl)
    · cases h
  · split at h
    case h_7 => cases h
    all_goals
      rename_i hphase
      exact ⟨by simp [returned, hphase], .inl (hstay h rfl rfl rfl)⟩
  · split at h
    · rename_i e u call hphase
      refine ⟨by simp [returned, hphase], .inl (hstay h rfl ?_ rfl)⟩
      cases u <;> rfl
    · cases h
  · cases h

/-- The tickets consumed are those of the consumers that have returned. -/
theorem consumed_returned {w : World TicketData TicketTask}
    (hw : (ticketUse C owner).machine.Reachable w) :
    (w.data.consumed.map entry).Perm (w.tasks.filterMap returned) := by
  refine reachable_log returned (fun d => d.consumed.map entry) ?_ ?_ ?_ hw
  · rintro d ⟨clock, now, rfl⟩
    rfl
  · intro d i ts h
    simp only [ticketUse] at h
    split at h
    · split_ifs at h
      obtain rfl := Option.some.inj h
      rfl
    · obtain rfl := Option.some.inj h
      rfl
    · obtain rfl := Option.some.inj h
      rfl
    · cases h
  · intro d t i d' ts rest h hlog
    cases t with
    | request r =>
      cases i with
      | create i =>
        obtain ⟨⟨d'', r'⟩, hstep, heq⟩ := Option.map_eq_some_iff.mp h
        obtain ⟨rfl, rfl⟩ := Prod.mk.inj heq
        unfold advanceCreate at hstep
        split_ifs at hstep
        obtain ⟨⟨base, p⟩, -, hafter⟩ := Option.map_eq_some_iff.mp hstep
        obtain ⟨rfl, rfl⟩ := Prod.mk.inj hafter
        exact hlog
      | _ => cases h
    | consume c =>
      obtain ⟨⟨d'', c'⟩, hstep, heq⟩ := Option.map_eq_some_iff.mp h
      obtain ⟨rfl, rfl⟩ := Prod.mk.inj heq
      obtain ⟨hbefore, ⟨hafter, -, hsame⟩ | ⟨x, hafter, hgrown⟩⟩ := advanceConsume_history hstep
      · rw [hbefore] at hlog
        simpa [hafter, hsame] using hlog
      · rw [hbefore] at hlog
        have hview : [TicketTask.consume c'].filterMap returned = [entry x] := by simp [hafter]
        rw [hgrown, List.map_append, hview]
        exact List.perm_append_comm.trans (hlog.cons (entry x))
    | others =>
      obtain ⟨d'', hstep, heq⟩ := Option.map_eq_some_iff.mp h
      obtain ⟨rfl, rfl⟩ := Prod.mk.inj heq
      have hsame : d''.consumed.map entry = d.consumed.map entry := by
        unfold TicketUse.advanceOthers at hstep
        split at hstep
        · cases hstep
        · split_ifs at hstep
          obtain ⟨base, -, rfl⟩ := Option.map_eq_some_iff.mp hstep
          rfl
        · obtain ⟨base, -, rfl⟩ := Option.map_eq_some_iff.mp hstep
          rfl
        · split_ifs at hstep
          obtain rfl := Option.some.inj hstep
          rfl
        · obtain rfl := Option.some.inj hstep
          rfl
        · split_ifs at hstep
          obtain rfl := Option.some.inj hstep
          rfl
        · cases hstep
      exact (List.Perm.of_eq hsame).trans hlog

/-- A ticket for one purpose never verifies for another one. -/
theorem verify_other_purpose {t : Ticket} {p : Purpose} (ht : WellFormed t) (hp : p ≠ t.purpose)
    (callId deviceId : Text) (now : ℕ) :
    verify C p (issue C t) callId deviceId now = .error (.ticket "ticket_invalid_or_expired") := by
  cases h : verify C p (issue C t) callId deviceId now with
  | error e => rw [verify_error h]
  | ok value =>
    obtain ⟨body, hsplit, hload, hpurpose, -⟩ := verify_eq_ok h
    rw [splitTicket_issue, Option.some.injEq, Prod.mk.injEq] at hsplit
    rw [← hsplit.1, loadBody_bodyOf ht, Except.ok.injEq] at hload
    rw [← hload, field_purpose, Option.some.injEq, Scalar.str.injEq] at hpurpose
    exact absurd (purposeName_inj hpurpose).symm hp

/-- A call's ticket is consumed at most once, by a consumer that returns, and rightfully; what
verifies was issued for the purpose, the call and the device; what `create` answers verifies until
it expires; and nothing but a ticket error comes out of `verify`. -/
theorem tickets_used_once {w : World TicketData TicketTask}
    (hw : (ticketUse C owner).machine.ReachableUnder (guard (unforged C)) w) :
    (w.data.consumed.Pairwise fun x y => x.callId ≠ y.callId) ∧
    (w.data.consumed.map entry).Perm (w.tasks.filterMap returned) ∧
    (∀ k record, w.data.base.records.lookup k = some record →
      (record.ticketConsumedAt.isSome = true ↔
        record.callId ∈ w.data.consumed.map (·.callId))) ∧
    (∀ x ∈ w.data.consumed, Rightful C w.data.issued x) ∧
    (∀ p ticket callId deviceId now value, Unforged C p w.data.tickets ticket →
      verify C p ticket callId deviceId now = .ok value → ∃ t ∈ w.data.tickets,
        ticket = issue C t ∧ t.purpose = p ∧ t.callId = callId ∧ t.device = C.sha256 deviceId ∧
        (now : ℤ) < t.expiresMs * 1000) ∧
    (∀ t ∈ w.data.tickets, ∀ p, p ≠ t.purpose → ∀ callId deviceId now,
      verify C p (issue C t) callId deviceId now = .error (.ticket "ticket_invalid_or_expired")) ∧
    (∀ r, TicketTask.request r ∈ w.tasks → ∀ a t, answerOf r.phase = some a → a.callTicket = some t →
      t.callId = a.callId ∧ ∀ now : ℕ, (now : ℤ) < t.expiresMs * 1000 →
        verify C .voiceCall (issue C t) a.callId r.payload.deviceId now = .ok (payload t)) ∧
    ∀ p ticket callId deviceId now e, verify C p ticket callId deviceId now = .error e →
      e = .ticket "ticket_invalid_or_expired" := by
  have hholds := holds_of_reachable hw
  have hd := hholds.data
  have hformed : ∀ t ∈ w.data.tickets, WellFormed t := by
    intro t ht
    obtain ⟨x, hx, rfl⟩ := List.mem_map.mp ht
    exact (hd.issued x hx).1
  refine ⟨hd.once, consumed_returned hw.reachable, fun k record hk => (hd.records k record hk).marked,
    fun x hx => (hd.consumed x hx).1, fun p ticket callId deviceId now value hticket hvalue => ?_,
    fun t ht p hp callId deviceId now => verify_other_purpose (hformed t ht) hp callId deviceId now,
    fun r hr a t ha ht => ?_, fun p ticket callId deviceId now e he => verify_error he⟩
  · obtain ⟨t, ht, -, hissue, hpurpose, hcall, hdevice, hexpires⟩ :=
      issued_of_verify hformed hticket hvalue
    exact ⟨t, ht, hissue, hpurpose, hcall, hdevice, by omega⟩
  · have hr' : RequestOk w.data r := hholds.tasks _ hr
    have hpledge : pledge r.phase = some a := by
      generalize r.phase = p at ha
      cases p <;> first | exact ha | cases ha
    obtain ⟨hissued, hpurpose, hcall⟩ := hr'.answer a t hpledge ht
    obtain ⟨hwell, hdevice⟩ := hd.issued _ hissued
    refine ⟨hcall, fun now hnow => ?_⟩
    have hlater : (now / 1000 : ℕ) < t.expiresMs := by omega
    have hverify := verify_issue hwell hdevice hlater
    dsimp only at hverify
    rwa [hpurpose, hcall] at hverify

/-! ### A run -/

def device : Text := "6b1f2a3c-4d5e-4f60-8a7b-9c0d1e2f3a4b".toList

def dialed : Ident := "11111111-2222-4333-8444-555555555555".toList

def dialRequest : CreateRequest := ⟨"home".toList, device, true, true⟩

def digests (t : Text) : Text :=
  if t = device then "a3b492cf5aca6730c9de81194d1d119f736645b022ae2c9d6ace48ae394fdb6e".toList
  else if t = requestJson dialRequest then
    "85d0c933dfd8b732839a1ce04360d9a5c1de55a65b26a5f7bcf609c0c885372a".toList
  else List.replicate 64 '0'

/-- The body of the ticket of the run. -/
def ticketBody : Text :=
  bodyOf ⟨.voiceCall, 7, dialed, "aaaaaaaa-bbbb-4ccc-8ddd-eeeeeeeeeeee".toList, digests device,
    1700000030000⟩

/-- The ticket of the run. -/
def dialTicket : Text := ticketBody ++ ".3gAc9Ty3RVtPR1QNILXDypZ2agOaTI23cpz-Ym0Ry6k".toList

def macs (_ : List ℕ) (t : Text) : List ℕ :=
  if t = ticketBody then
    [222, 0, 28, 245, 60, 183, 69, 91, 79, 71, 84, 13, 32, 181, 195, 202, 150, 118, 106, 3, 154, 76,
      141, 183, 114, 156, 254, 98, 109, 17, 203, 169]
  else List.replicate 32 0

/-- HMAC-SHA256 under one key, and SHA-256, on the texts of the run. -/
def dialCrypto : Crypto where
  key _ := List.replicate 32 107
  hmac := macs
  hmac_length k t := by
    unfold macs
    split_ifs <;> simp
  sha256 := digests
  sha256_length t := by
    unfold digests
    split_ifs
    · decide +kernel
    · decide +kernel
    · exact List.length_replicate
  sha256_hex t c hc := by
    unfold digests at hc
    split_ifs at hc
    · exact List.all_eq_true.mp (by decide +kernel) c hc
    · exact List.all_eq_true.mp (by decide +kernel) c hc
    · rw [List.eq_of_mem_replicate hc]
      decide +kernel

def dialStart : World TicketData TicketTask :=
  ⟨⟨⟨1700000000000000, .new 0, [], ∅, [], [], []⟩, ∅, [], [], [], []⟩, []⟩

/-- A call is created and its ticket presented by two consumers. -/
def dialRun : List (Input TicketInput) :=
  [.request (.create .others), .task 0 (.setUser 7 false),
    .request (.create (.start 7 "0a1b2c3d-4e5f-4a6b-8c7d-8e9fa0b1c2d3".toList dialRequest)),
    .task 1 (.create .lock), .task 1 (.create .read), .task 1 (.create .check),
    .task 1 (.create (.vacant dialed)), .task 1 (.create (.acquire 60000 10)),
    .task 1 (.create .acquired),
    .task 1 (.create (.commit "aaaaaaaa-bbbb-4ccc-8ddd-eeeeeeeeeeee".toList 30000)),
    .request (.consume dialTicket dialed device 1700000005000000),
    .request (.consume dialTicket dialed device 1700000006000000),
    .task 2 .verify, .task 2 .verify,
    .task 2 .lockUser, .task 3 .readFlag, .task 3 .lockRecord, .task 3 .lockCall, .task 3 .readLease,
    .task 3 .commit,
    .task 2 .lockUser, .task 3 .readFlag, .task 3 .lockRecord, .task 3 .lockCall, .task 3 .rollback]

/-- The reason a consumer has been refused for. -/
def refused : TicketTask → Option Fault
  | .consume c =>
    match c.phase with
    | .failed e => some e
    | _ => none
  | _ => none

theorem dialRun_guarded : (ticketUse dialCrypto fun _ => 7).machine.Guarded
    (guard (unforged dialCrypto)) dialStart dialRun := by decide +kernel

theorem dialRun_ends : ((ticketUse dialCrypto fun _ => 7).machine.run dialStart dialRun).any
    (fun w => w.data.consumed.map entry = [(dialTicket, dialed, device, 1700000005000000)] ∧
      w.tasks.filterMap refused = [.ticket notConsumable]) = true := by decide +kernel

/-- The first consumer returns, the second one is refused. -/
theorem tickets_used_once_dialed : ∃ w : World TicketData TicketTask,
    w.tasks.filterMap returned = [(dialTicket, dialed, device, 1700000005000000)] ∧
      w.tasks.filterMap refused = [.ticket notConsumable] := by
  obtain ⟨w, hrun, hends⟩ := (Option.any_eq_true _ _).mp dialRun_ends
  obtain ⟨hconsumed, hrefused⟩ := of_decide_eq_true hends
  obtain ⟨-, hreturned, -⟩ := tickets_used_once
    ⟨dialStart, dialRun, ⟨⟨_, _, rfl⟩, rfl⟩, dialRun_guarded, hrun⟩
  rw [hconsumed] at hreturned
  exact ⟨w, (List.singleton_perm.mp hreturned).symm, hrefused⟩

end CompanionBackend.SingleUse
