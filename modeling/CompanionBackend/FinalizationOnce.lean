import CompanionBackend.QuotaConservation
import CompanionBackend.CallLifecycle

/-!
# A call is finalized once

Settlement, card and growth each keep a guard of their own, but it is the
terminal status, written in the same transaction, that makes them happen once:
an invocation on a terminal row commits the database it found.
-/
namespace CompanionBackend.FinalizationOnce

open Runs VoiceModels VoiceQuota QuotaConservation TimelineSequence VoiceLifecycle VoiceGrowth
  CallFinalization CallLifecycle

/-! ### Settlement of a call without ledger rows -/

theorem slices_eq_nil_of_sameUsage {desired : List UsageSlice} (h : sameUsage desired []) :
    desired = [] := by
  cases desired with
  | nil => rfl
  | cons s rest =>
    have hmem := (h.1 s.key).mp (by simp)
    exact absurd hmem List.not_mem_nil

theorem existing_eq_nil {existing : List UsageSlice}
    (h : ([] : List VoiceUsageLedger).mapM asUsage = .ok existing) : existing = [] := by
  rw [List.mapM_nil] at h
  exact (pure_eq_ok.mp h).symm

/-- The first settlement of a call debits exactly the extra seconds of its meter. -/
theorem extraRemaining_settle {m : ConnectedMeter} {db db' : VoiceDb} {r : Settlement}
    (hempty : db.ledgerOf m.callId = []) (h : settle m db = .ok (db', r)) :
    extraRemaining db' m.userId = extraRemaining db m.userId - extraTotal m.slices := by
  rcases settle_cases h with hreplayed | ⟨call, existing, ds, day, hdebited⟩
  · obtain ⟨existing, hrows, hsame⟩ := hreplayed.same
    rw [hempty] at hrows
    obtain rfl := existing_eq_nil hrows
    rw [extraRemaining, hreplayed.account_eq, slices_eq_nil_of_sameUsage hsame]
    simp [extraRemaining, extraTotal]
  · have hrows := hdebited.rows
    rw [hempty] at hrows
    obtain rfl := existing_eq_nil hrows
    have hdelta := extraDelta_usageDeltas hdebited.deltas
    have hnil : extraTotal [] = 0 := rfl
    rw [hnil, sub_zero] at hdelta
    rw [extraRemaining, hdebited.account_eq, if_pos rfl, ← hdelta]
    cases hacc : db.account m.userId <;>
      simp [extraRemaining, debit, accountForSettlement, hacc, apply_ite]

theorem rowTotals_settle {m : ConnectedMeter} {db db' : VoiceDb} {r : Settlement}
    (h : settle m db = .ok (db', r)) (k : UsageKey) :
    rowTotals (db'.ledgerOf m.callId) k = totalsAt m.slices k := by
  rcases settle_cases h with hreplayed | ⟨call, existing, ds, day, hdebited⟩
  · exact hreplayed.rowTotals_self k
  · exact hdebited.rowTotals_self k

theorem settle_owner {m : ConnectedMeter} {db db' : VoiceDb} {r : Settlement} {row : VoiceCall}
    (hrow : db.call m.callId = some row) (h : settle m db = .ok (db', r)) :
    row.userId = m.userId := by
  rcases settle_cases h with hreplayed | ⟨call, existing, ds, day, hdebited⟩
  · obtain ⟨call, hcall, howner, -⟩ := hreplayed.call
    obtain rfl : row = call := Option.some.inj (hrow.symm.trans hcall)
    exact howner
  · obtain rfl : row = call := Option.some.inj (hrow.symm.trans hdebited.call_eq)
    exact hdebited.owner

/-! ### The invariant -/

/-- The finalization happened on a call with nothing settled, carded or grown, and the call
still is what it left. -/
structure Kept (id : CallId) (f : Finalization) (db : VoiceDb) (row₀ row : VoiceCall) : Prop where
  callId : f.request.callId = id
  finalized : Finalized f.request f.before f.after row₀ row
  unsettled : f.before.ledgerOf id = []
  ungrown : growthOf f.before id = []
  uncarded : row₀.sortSeq = none
  ledgerOf : db.ledgerOf id = f.after.ledgerOf id
  growthOf : growthOf db id = growthOf f.after id

/-- A card exists exactly for an ended or missed call without a deletion fence. -/
def CardMatches (row : VoiceCall) : Prop :=
  row.sortSeq.isSome = true ↔
    (row.status = .ended ∨ row.status = .missed) ∧ row.deletionFenceAt = none

/-- What a run keeps about the finalization of one call. -/
structure OnceWorld (id : CallId) (w : CallWorld) (row : VoiceCall) : Prop where
  row_eq : w.db.call id = some row
  opened : row.status.active = true → row.sortSeq = none ∧ w.finalizations id = []
  card : row.status.terminal = true → CardMatches row
  history : w.finalizations id = [] → w.db.ledgerOf id = [] ∧ growthOf w.db id = []
  kept : ∀ f ∈ w.finalizations id, w.finalizations id = [f] ∧ row.status.terminal = true ∧
    ∃ row₀, Kept id f w.db row₀ row

theorem moved_card {t : TransitionRequest} {db db' : VoiceDb} {row row' : VoiceCall}
    (h : Moved t db db' row row') (hrow : row.sortSeq = none)
    (hterminal : row'.status.terminal = true) : CardMatches row' := by
  rw [h.status] at hterminal
  obtain ⟨-, -, -, -, hseq⟩ := h.closing hterminal
  rw [CardMatches, hseq, h.status, h.fence, hrow]
  by_cases hmissed : t.target = .missed <;> by_cases hfence : row.deletionFenceAt = none <;>
    simp [hmissed, hfence, h.not_ended]

theorem finalized_card {e : EndCall} {db db' : VoiceDb} {row row' : VoiceCall}
    (h : Finalized e db db' row row') (hrow : row.sortSeq = none) : CardMatches row' := by
  have hdue : cardDue (finalRow row e.reason e.now) ↔ row.deletionFenceAt = none ∧
      (finalStatus row e.reason = .ended ∨ finalStatus row e.reason = .missed) := by
    change row.sortSeq = none ∧ _ ↔ _
    simp only [hrow, true_and]
    rfl
  rw [CardMatches, h.sortSeq, h.status, h.fence, hrow, and_comm, ← hdue]
  split_ifs with hif <;> simp [hif]

theorem untouched_once {id : CallId} {w w' : CallWorld} {row : VoiceCall}
    (h : OnceWorld id w row) (hsame : Untouched id w.db w'.db)
    (hfinal : w'.finalizations id = w.finalizations id) : OnceWorld id w' row := by
  refine ⟨hsame.call.trans h.row_eq, ?_, h.card, ?_, ?_⟩
  · rw [hfinal]
    exact h.opened
  · rw [hfinal, hsame.ledgerOf, hsame.growthOf]
    exact h.history
  · rw [hfinal]
    intro f hf
    obtain ⟨honly, hterminal, row₀, hkept⟩ := h.kept f hf
    exact ⟨honly, hterminal, row₀, { hkept with
      ledgerOf := hsame.ledgerOf.trans hkept.ledgerOf
      growthOf := hsame.growthOf.trans hkept.growthOf }⟩

theorem moved_once {t : TransitionRequest} {w w' : CallWorld} {row row' : VoiceCall}
    (h : OnceWorld t.callId w row) (hmoved : Moved t w.db w'.db row row')
    (hfinal : w'.finalizations t.callId = w.finalizations t.callId) :
    OnceWorld t.callId w' row' := by
  obtain ⟨hseq, hnone⟩ := h.opened (active_of_edge hmoved.edge)
  obtain ⟨hledger, hgrowth⟩ := h.history hnone
  rw [hnone] at hfinal
  refine ⟨hmoved.row_eq', fun hactive => ⟨?_, hfinal⟩, moved_card hmoved hseq, fun _ => ?_, ?_⟩
  · have hopen : t.target.terminal = false := by
      rw [← hmoved.status]
      simpa using hactive
    rw [(hmoved.opening hopen).2, hseq]
  · constructor
    · rw [VoiceDb.ledgerOf, hmoved.rest]
      exact hledger
    · rw [growthOf, hmoved.rest]
      exact hgrowth
  · rw [hfinal]
    intro f hf
    exact absurd hf List.not_mem_nil

theorem finalized_once {e : EndCall} {w w' : CallWorld} {row row' : VoiceCall}
    (h : OnceWorld e.callId w row) (hfinalized : Finalized e w.db w'.db row row')
    (hfinal : w'.finalizations e.callId = w.finalizations e.callId ++ [⟨e, w.db, w'.db⟩]) :
    OnceWorld e.callId w' row' := by
  obtain ⟨hseq, hnone⟩ := h.opened hfinalized.active
  obtain ⟨hledger, hgrowth⟩ := h.history hnone
  have hterminal : row'.status.terminal = true := by
    rw [hfinalized.status]
    exact finalStatus_terminal row e.reason
  rw [hnone, List.nil_append] at hfinal
  refine ⟨hfinalized.row_eq', fun hactive => ?_, fun _ => finalized_card hfinalized hseq, ?_, ?_⟩
  · simp [hterminal] at hactive
  · rw [hfinal]
    intro habsurd
    exact absurd habsurd (List.cons_ne_nil _ _)
  · rw [hfinal]
    intro f hf
    obtain rfl := List.mem_singleton.mp hf
    exact ⟨rfl, hterminal, row, rfl, hfinalized, hledger, hgrowth, hseq, rfl, rfl⟩

theorem callStep_once {id : CallId} {w : CallWorld} {row : VoiceCall} (h : OnceWorld id w row)
    (i : CallInput) : ∃ row', OnceWorld id (callStep w i) row' := by
  cases callStep_cases h.row_eq i with
  | untouched hsame hfinal => exact ⟨row, untouched_once h hsame hfinal⟩
  | moved t row' hid hmoved hfinal =>
    subst hid
    exact ⟨row', moved_once h hmoved hfinal⟩
  | finalized e row' hid hfinalized hfinal =>
    subst hid
    exact ⟨row', finalized_once h hfinalized hfinal⟩

/-- A terminal call is left alone by every step. -/
theorem callStep_of_terminal {id : CallId} {w : CallWorld} {row : VoiceCall}
    (hrow : w.db.call id = some row) (hterminal : row.status.terminal = true) (i : CallInput) :
    Untouched id w.db (callStep w i).db ∧
      (callStep w i).finalizations id = w.finalizations id := by
  cases callStep_cases hrow i with
  | untouched hsame hfinal => exact ⟨hsame, hfinal⟩
  | moved t row' _ hmoved _ =>
    have hactive := active_of_edge hmoved.edge
    simp [hterminal] at hactive
  | finalized e row' _ hfinalized _ =>
    have hactive := hfinalized.active
    simp [hterminal] at hactive

theorem reachable_once {id : CallId} {w : CallWorld} (h : (callMachine id).Reachable w) :
    ∃ row, OnceWorld id w row := by
  refine Machine.reachable_invariant (I := fun w => ∃ row, OnceWorld id w row) ?_ ?_ h
  · rintro w ⟨⟨row, hrow, hstatus, -, hseq⟩, hledger, hgrowth, -, hnone⟩
    refine ⟨row, hrow, fun _ => ⟨hseq, hnone⟩, fun hclosed => ?_, fun _ => ⟨hledger, hgrowth⟩, ?_⟩
    · rw [hstatus] at hclosed
      exact absurd hclosed (by decide)
    · rw [hnone]
      intro f hf
      exact absurd hf List.not_mem_nil
  · rintro w i w' ⟨row, hw⟩ hstep
    obtain rfl := Option.some.inj hstep
    exact callStep_once hw i

/-- A call that is terminal stays untouched over every further run. -/
theorem run_of_terminal {id : CallId} {w w' : CallWorld} {row : VoiceCall} {is : List CallInput}
    (hrow : w.db.call id = some row) (hterminal : row.status.terminal = true)
    (hrun : (callMachine id).run w is = some w') :
    Untouched id w.db w'.db ∧ w'.finalizations id = w.finalizations id := by
  refine Machine.run_invariant (M := callMachine id) (I := fun w' => Untouched id w.db w'.db ∧
    w'.finalizations id = w.finalizations id) ?_ ⟨Untouched.refl id w.db, rfl⟩ hrun
  rintro w₁ i w₂ ⟨hsame, hfinal⟩ hstep
  obtain rfl := Option.some.inj hstep
  obtain ⟨hsame', hfinal'⟩ := callStep_of_terminal (hsame.call.trans hrow) hterminal i
  exact ⟨⟨hsame'.call.trans hsame.call, hsame'.ledgerOf.trans hsame.ledgerOf,
    hsame'.growthOf.trans hsame.growthOf⟩, hfinal'.trans hfinal⟩

/-! ### What a finalization has done -/

/-- The final meter was settled: the ledger of the call holds its figures under every key, and
the account was debited its extra seconds once. -/
structure SettledOnce (id : CallId) (f : Finalization) (db : VoiceDb) (owner : UserId)
    (m : ConnectedMeter) : Prop where
  final : finalMeter f.request owner = .ok m
  committed : ∃ db₁ r, settle m f.before = .ok (db₁, r)
  ledger : ∀ k, rowTotals (db.ledgerOf id) k = totalsAt m.slices k
  debited : extraRemaining f.after owner = extraRemaining f.before owner - extraTotal m.slices

/-- The effects of the only finalization, as `db` still shows them. -/
structure Outcome (id : CallId) (f : Finalization) (db : VoiceDb) (row₀ row : VoiceCall) :
    Prop where
  before : f.before.call id = some row₀ ∧ row₀.status.active = true
  status : row.status = finalStatus row₀ f.request.reason
  settled : row₀.connectedAt.isSome = true → ∃ m, SettledOnce id f db row₀.userId m
  unsettled : row₀.connectedAt = none → db.ledgerOf id = []
  /-- The number comes from the counter, which moves by one when there is a card. -/
  number : ∀ seq, row.sortSeq = some seq →
    seq = nextSeq (f.before.timelineSeq.lookup row₀.userId)
  counter : nextSeq (f.after.timelineSeq.lookup row₀.userId) =
    nextSeq (f.before.timelineSeq.lookup row₀.userId) + if row.sortSeq.isSome then 1 else 0
  growth : row₀.connectedAt.isSome = true → ∃ log, growthOf db id = [log] ∧
    log.userId = row₀.userId ∧ row.growthPoints = log.points ∧
    (relationshipOf f.after row₀.userId).growthValue =
      (relationshipOf f.before row₀.userId).growthValue + log.points
  no_growth : row₀.connectedAt = none →
    growthOf db id = [] ∧ f.after.relationships = f.before.relationships

theorem Kept.settledOnce {id : CallId} {f : Finalization} {db : VoiceDb} {row₀ row : VoiceCall}
    (h : Kept id f db row₀ row) (hconnected : row₀.connectedAt.isSome = true) :
    ∃ m, SettledOnce id f db row₀.userId m := by
  obtain ⟨m, db₁, r, hm, hsettle, hledger, haccounts⟩ := h.finalized.settled hconnected
  have hid : m.callId = id := (finalMeter_callId hm).trans h.callId
  have hrow : f.before.call m.callId = some row₀ := by
    rw [finalMeter_callId hm]
    exact h.finalized.row_eq
  have howner := settle_owner hrow hsettle
  have hempty : f.before.ledgerOf m.callId = [] := by
    rw [hid]
    exact h.unsettled
  refine ⟨m, hm, ⟨db₁, r, hsettle⟩, fun k => ?_, ?_⟩
  · rw [h.ledgerOf, VoiceDb.ledgerOf, hledger, ← hid]
    exact rowTotals_settle hsettle k
  · rw [howner, ← extraRemaining_settle hempty hsettle]
    simp only [extraRemaining, VoiceDb.account, haccounts]

theorem Kept.outcome {id : CallId} {f : Finalization} {db : VoiceDb} {row₀ row : VoiceCall}
    (h : Kept id f db row₀ row) : Outcome id f db row₀ row := by
  have hfinal := h.finalized
  have hid := h.callId
  refine ⟨⟨hid ▸ hfinal.row_eq, hfinal.active⟩, hfinal.status, h.settledOnce, fun hnone => ?_,
    fun seq hseq => ?_, ?_, fun hsome => ?_, fun hnone => ⟨?_, (hfinal.no_growth hnone).2⟩⟩
  · rw [h.ledgerOf, VoiceDb.ledgerOf, (hfinal.unsettled hnone).1]
    exact h.unsettled
  · rw [hfinal.sortSeq, h.uncarded] at hseq
    split_ifs at hseq
    exact (Option.some.inj hseq).symm
  · rw [hfinal.counter, hfinal.sortSeq, h.uncarded]
    split_ifs <;> simp_all
  · obtain ⟨log, hfiled⟩ := hfinal.growth hsome (hid ▸ h.ungrown)
    refine ⟨log, ?_, hfiled.userId, hfiled.points, hfiled.raised⟩
    rw [h.growthOf, growthOf_append_self hfiled.logs (hid ▸ hfiled.source), h.ungrown]
    rfl
  · rw [h.growthOf, VoiceGrowth.growthOf, (hfinal.no_growth hnone).1]
    exact h.ungrown

/-- At most one invocation on a call commits with `changed`; its settlement, card and growth
are all that ever happens to the call, and every later invocation commits what it found. -/
theorem finalized_exactly_once (id : CallId) (w : CallWorld) (h : (callMachine id).Reachable w) :
    (w.finalizations id).length ≤ 1 ∧ (growthOf w.db id).length ≤ 1 ∧
      ∃ row, w.db.call id = some row ∧
        (row.status.active = true →
          row.sortSeq = none ∧ w.db.ledgerOf id = [] ∧ growthOf w.db id = []) ∧
        (row.status.terminal = true → CardMatches row) ∧
        (∀ f ∈ w.finalizations id, ∃ row₀, Outcome id f w.db row₀ row) ∧
        (row.status.terminal = true →
          (∀ e db' changed, e.callId = id → endCall e w.db = .ok (db', changed) →
            changed = false ∧ db' = w.db) ∧
          ∀ is w', (callMachine id).run w is = some w' →
            Untouched id w.db w'.db ∧ w'.finalizations id = w.finalizations id) := by
  obtain ⟨row, hw⟩ := reachable_once h
  have hfinalizations : (w.finalizations id).length ≤ 1 := by
    cases hlist : w.finalizations id with
    | nil => simp
    | cons f rest =>
      obtain ⟨honly, -⟩ := hw.kept f (by simp [hlist])
      rw [hlist] at honly
      simp [honly]
  refine ⟨hfinalizations, ?_, row, hw.row_eq, ?_, hw.card, ?_, fun hterminal => ⟨?_, ?_⟩⟩
  · cases hlist : w.finalizations id with
    | nil => simp [(hw.history hlist).2]
    | cons f rest =>
      obtain ⟨-, -, row₀, hkept⟩ := hw.kept f (by simp [hlist])
      have hout := hkept.outcome
      cases hconnected : row₀.connectedAt with
      | none => simp [(hout.no_growth hconnected).1]
      | some at₀ =>
        obtain ⟨log, hlog, -⟩ := hout.growth (by simp [hconnected])
        simp [hlog]
  · intro hactive
    obtain ⟨hseq, hnone⟩ := hw.opened hactive
    exact ⟨hseq, hw.history hnone⟩
  · intro f hf
    obtain ⟨-, -, row₀, hkept⟩ := hw.kept f hf
    exact ⟨row₀, hkept.outcome⟩
  · intro e db' changed hid hcommit
    rcases endCall_cases hcommit with ⟨hchanged, hdb, -⟩ | ⟨-, row₁, row', hfinal⟩
    · exact ⟨hchanged, hdb⟩
    · have hrow₁ := hfinal.row_eq
      rw [hid, hw.row_eq] at hrow₁
      obtain rfl := Option.some.inj hrow₁
      have hactive := hfinal.active
      simp [hterminal] at hactive
  · intro is w' hrun
    exact run_of_terminal hw.row_eq hterminal hrun

theorem finalized_exactly_once_hungUp :
    (hungUpWorld.finalizations 7).length = 1 ∧ extraRemaining hungUpWorld.db 1 = 50 ∧
      (growthOf hungUpWorld.db 7).length ≤ 1 :=
  ⟨by decide +kernel, by decide +kernel,
    (finalized_exactly_once 7 hungUpWorld hungUpWorld_reachable).2.1⟩

end CompanionBackend.FinalizationOnce
