import Mathlib.Data.List.Induction
import CompanionBackend.BargeController

/-!
# Accounting for truncations

Every step changes a request in one of a few ways, and each of these keeps what the fields of a request
say about its observations. Only two of them can part the counted outcome from the flag: a call that
fails after its confirmation, and a confirmation after the outcome was counted.
-/
namespace CompanionBackend.BargeController

open ProviderEvents (Ident)
open Dictionaries

namespace Request

/-- The truncate outcomes observed for the request. -/
def outcomes (r : Request) : List Outcome :=
  r.observations.filterMap fun o => match o with | .truncateOutcome result _ => some result | _ => none

/-- The stop acknowledgements counted for the request. -/
def acknowledgements (r : Request) : ℕ := r.observations.count (.stopClear .acknowledged)

/-- The outcome counted is success exactly if the truncation is confirmed. -/
def Agrees (r : Request) : Prop := Outcome.success ∈ r.outcomes ↔ r.confirmed = true

/-- What the fields of a request say about what was observed and sent. -/
structure Sound (r : Request) : Prop where
  counted : r.outcomeObserved = true → ∃ o, r.outcomes = [o]
  uncounted : r.outcomeObserved = false → r.outcomes = []
  confirmed : r.confirmed = true → r.outcomeObserved = true
  finished : r.observationsFinished = true → r.outcomeObserved = true
  acknowledgements : r.acknowledgements = r.playedMs.isSome.toNat
  placed : r.mode = .contextTruncateRequested ∨ r.truncating = true →
    ∃ p i, r.playedMs = some p ∧ r.itemId = some i ∧ r.sent = [⟨r.sessionId, i, p⟩]
  unsent : r.playedMs = none → r.sent = []

theorem sound_new : Sound {} where
  counted := by simp
  uncounted := fun _ => rfl
  confirmed := by simp
  finished := by simp
  acknowledgements := rfl
  placed := by simp
  unsent := fun _ => rfl

section Observing

variable (r : Request) (o : Observation) (result : Outcome) (capable : Bool)

@[simp] theorem outcomes_observe : (r.observe o).outcomes = r.outcomes ++
    (match o with | .truncateOutcome result _ => [result] | _ => []) := by
  cases o <;> simp [outcomes, observe]

@[simp] theorem acknowledgements_observe : (r.observe o).acknowledgements =
    r.acknowledgements + if o = .stopClear .acknowledged then 1 else 0 := by
  by_cases h : o = .stopClear .acknowledged <;> simp [acknowledgements, observe, h]

theorem truncateOutcome_of_observed (h : r.outcomeObserved = true) :
    r.truncateOutcome result capable = r := if_pos h

theorem truncateOutcome_of_open (h : r.outcomeObserved = false) :
    r.truncateOutcome result capable =
      { r with outcomeObserved := true }.observe (.truncateOutcome result capable) := by
  rw [truncateOutcome, h]
  rfl

/-- An observation that is neither an outcome nor an acknowledgement. -/
theorem Sound.observe {r : Request} (h : r.Sound) {o : Observation}
    (hoc : ∀ result verified, o ≠ .truncateOutcome result verified)
    (hack : o ≠ .stopClear .acknowledged) : (r.observe o).Sound := by
  have hsame : (r.observe o).outcomes = r.outcomes := by
    cases o with
    | truncateOutcome result verified => exact absurd rfl (hoc result verified)
    | truncate result reason => simp
    | stopClear result => simp
  have hacks : (r.observe o).acknowledgements = r.acknowledgements := by simp [hack]
  exact ⟨hsame ▸ h.counted, hsame ▸ h.uncounted, h.confirmed, h.finished,
    hacks.trans h.acknowledgements, h.placed, h.unsent⟩

theorem Sound.truncateOutcome {r : Request} (h : r.Sound) (result : Outcome) (capable : Bool) :
    (r.truncateOutcome result capable).Sound := by
  cases hobs : r.outcomeObserved with
  | true => rwa [truncateOutcome_of_observed r result capable hobs]
  | false =>
    rw [truncateOutcome_of_open r result capable hobs]
    have hnone : { r with outcomeObserved := true }.outcomes = [] := h.uncounted hobs
    have hacks : { r with outcomeObserved := true }.acknowledgements = r.playedMs.isSome.toNat :=
      h.acknowledgements
    refine ⟨fun _ => ⟨result, ?_⟩, fun h => (by cases h), fun _ => rfl, fun _ => rfl, ?_,
      h.placed, h.unsent⟩
    · rw [outcomes_observe, hnone]
      rfl
    · rw [acknowledgements_observe, hacks]
      rfl

/-- The result counted is the first one. -/
theorem outcomes_truncateOutcome {r : Request} (h : r.Sound) (result : Outcome) (capable : Bool) :
    (r.truncateOutcome result capable).outcomes =
      if r.outcomeObserved then r.outcomes else [result] := by
  cases hobs : r.outcomeObserved with
  | true => rw [truncateOutcome_of_observed r result capable hobs, if_pos rfl]
  | false =>
    have hnone : { r with outcomeObserved := true }.outcomes = [] := h.uncounted hobs
    rw [truncateOutcome_of_open r result capable hobs, outcomes_observe, hnone]
    rfl

theorem truncateOutcome_same (r : Request) (result : Outcome) (capable : Bool) :
    (r.truncateOutcome result capable).confirmed = r.confirmed ∧
      (r.truncateOutcome result capable).playedMs = r.playedMs ∧
      (r.truncateOutcome result capable).mode = r.mode ∧
      (r.truncateOutcome result capable).outcomeObserved = true := by
  cases hobs : r.outcomeObserved with
  | true =>
    rw [truncateOutcome_of_observed r result capable hobs]
    exact ⟨rfl, rfl, rfl, hobs⟩
  | false =>
    rw [truncateOutcome_of_open r result capable hobs]
    exact ⟨rfl, rfl, rfl, rfl⟩

theorem success_truncateOutcome {r : Request} (h : r.Sound) (result : Outcome)
    (hresult : result ≠ .success) (capable : Bool) :
    .success ∈ (r.truncateOutcome result capable).outcomes ↔ .success ∈ r.outcomes := by
  rw [outcomes_truncateOutcome h]
  cases hobs : r.outcomeObserved with
  | true => rw [if_pos rfl]
  | false => simp [h.uncounted hobs, hresult.symm]

end Observing

/-! ### What the steps do to a request -/

/-- The flag and the success counted are as they were. -/
structure Keeps (r r' : Request) : Prop where
  success : .success ∈ r'.outcomes ↔ .success ∈ r.outcomes
  confirmed : r'.confirmed = r.confirmed

theorem Keeps.agrees {r r' : Request} (h : Keeps r r') : r'.Agrees ↔ r.Agrees := by
  rw [Agrees, Agrees, h.success, h.confirmed]

theorem Keeps.refl (r : Request) : Keeps r r := ⟨Iff.rfl, rfl⟩

section Ops

variable {r : Request} (h : r.Sound)
include h

theorem sendEnds_spec (ok : Bool) :
    (r.sendEnds ok).Sound ∧ Keeps r (r.sendEnds ok) ∧ (r.sendEnds ok).playedMs = r.playedMs := by
  rw [sendEnds]
  by_cases hsending : r.sending = true
  · have hs : { r with sending := false }.Sound :=
      ⟨h.counted, h.uncounted, h.confirmed, h.finished, h.acknowledgements, h.placed, h.unsent⟩
    rw [if_pos hsending]
    refine ⟨hs.observe (by simp) (by cases ok <;> simp), ⟨?_, rfl⟩, rfl⟩
    rw [outcomes_observe, List.append_nil]
    rfl
  · rw [if_neg hsending]
    exact ⟨h, Keeps.refl r, rfl⟩

theorem interruptEnds_spec (ended : CallEnd) :
    (r.interruptEnds ended).Sound ∧ Keeps r (r.interruptEnds ended) ∧
      (r.interruptEnds ended).playedMs = r.playedMs := by
  unfold interruptEnds
  by_cases hwaits : r.interrupting = true
  · have hs : ∀ mode, { r with interrupting := false, cancelMode := mode }.Sound := fun _ =>
      ⟨h.counted, h.uncounted, h.confirmed, h.finished, h.acknowledgements, h.placed, h.unsent⟩
    rw [if_pos hwaits]
    cases ended with
    | returned mode => exact ⟨hs _, ⟨Iff.rfl, rfl⟩, rfl⟩
    | failed => exact ⟨hs _, ⟨Iff.rfl, rfl⟩, rfl⟩
    | cancelled => exact ⟨hs r.cancelMode, ⟨Iff.rfl, rfl⟩, rfl⟩
  · rw [if_neg hwaits]
    exact ⟨h, Keeps.refl r, rfl⟩

/-- An observation of another kind and an outcome that is not success. -/
theorem conclude_spec {o : Observation} (hoc : ∀ result verified, o ≠ .truncateOutcome result verified)
    (hack : o ≠ .stopClear .acknowledged) (result : Outcome) (hresult : result ≠ .success)
    (capable : Bool) :
    ((r.observe o).truncateOutcome result capable).Sound ∧
      (.success ∈ ((r.observe o).truncateOutcome result capable).outcomes ↔
        .success ∈ r.outcomes) := by
  have ho := h.observe hoc hack
  refine ⟨ho.truncateOutcome result capable, ?_⟩
  rw [success_truncateOutcome ho result hresult, outcomes_observe]
  cases o with
  | truncateOutcome result verified => exact absurd rfl (hoc result verified)
  | truncate result reason => simp
  | stopClear result => simp

theorem acknowledge_spec (hplayed : r.playedMs = none) (playedMs : ℤ) :
    (r.acknowledge playedMs).Sound ∧ (r.acknowledge playedMs).outcomes = r.outcomes := by
  have houtcomes : (r.acknowledge playedMs).outcomes = r.outcomes := by
    rw [acknowledge, outcomes_observe, List.append_nil]
    rfl
  have hacks : (r.acknowledge playedMs).acknowledgements = 1 := by
    have hzero : { r with playedMs := some playedMs, mode := .contextNotTruncated
        }.acknowledgements = 0 := by
      refine Eq.trans ?_ (h.acknowledgements.trans (by rw [hplayed]; rfl))
      rfl
    rw [acknowledge, acknowledgements_observe, hzero, if_pos rfl]
  refine ⟨⟨houtcomes ▸ h.counted, houtcomes ▸ h.uncounted, h.confirmed, h.finished, hacks, ?_,
    fun hnone => by cases hnone⟩, houtcomes⟩
  rintro (hmode | hwaits)
  · cases hmode
  · obtain ⟨p, i, hp, -⟩ := h.placed (.inr hwaits)
    rw [hplayed] at hp
    cases hp

theorem notMeasurable_spec (reason : TruncateReason) (capable : Bool) :
    (r.notMeasurable reason capable).Sound ∧ Keeps r (r.notMeasurable reason capable) ∧
      (r.notMeasurable reason capable).playedMs = r.playedMs := by
  obtain ⟨hsound, hsuccess⟩ := conclude_spec h (o := .truncate .notMeasurable reason) (by simp)
    (by simp) .unknown (by simp) capable
  have hsame := truncateOutcome_same (r.observe (.truncate .notMeasurable reason)) .unknown capable
  exact ⟨hsound, ⟨hsuccess, hsame.1⟩, hsame.2.1⟩

theorem askTruncation_spec {playedMs : ℤ} (hplayed : r.playedMs = some playedMs) (hsent : r.sent = [])
    (item : Ident) (session : Option Ident) :
    (r.askTruncation playedMs item session).Sound := by
  refine ⟨h.counted, h.uncounted, h.confirmed, h.finished, h.acknowledgements, fun _ =>
    ⟨playedMs, item, hplayed, rfl, ?_⟩, fun hnone => ?_⟩
  · rw [askTruncation, hsent]
    rfl
  · cases hplayed.symm.trans hnone

theorem stopped_spec (playedMs : ℤ) (capable : Bool) (item session : Option Ident) :
    (r.stopped playedMs capable item session).Sound ∧
      Keeps r (r.stopped playedMs capable item session) ∧
      (r.stopped playedMs capable item session).playedMs = some (r.playedMs.getD playedMs) := by
  unfold stopped
  cases hplayed : r.playedMs with
  | some p =>
    rw [if_pos (by simp)]
    exact ⟨h, Keeps.refl r, hplayed⟩
  | none =>
    rw [if_neg (by simp)]
    obtain ⟨hs, houtcomes⟩ := acknowledge_spec h hplayed playedMs
    have hkeeps : Keeps r (r.acknowledge playedMs) := ⟨by rw [houtcomes], rfl⟩
    have hnot : ∀ reason, ((r.acknowledge playedMs).notMeasurable reason capable).Sound ∧
        Keeps r ((r.acknowledge playedMs).notMeasurable reason capable) ∧
        ((r.acknowledge playedMs).notMeasurable reason capable).playedMs = some playedMs := by
      intro reason
      obtain ⟨hsound, hk, hp⟩ := notMeasurable_spec hs reason capable
      exact ⟨hsound, ⟨hk.success.trans hkeeps.success, hk.confirmed.trans hkeeps.confirmed⟩, hp⟩
    match capable, item with
    | false, _ => exact hnot _
    | true, none => exact hnot _
    | true, some i =>
      exact ⟨askTruncation_spec hs rfl (h.unsent hplayed) i session,
        ⟨hkeeps.success, hkeeps.confirmed⟩, rfl⟩

/-- The flag is taken back where an awaited call fails. -/
theorem truncateEnds_spec (ended : CallEnd) (capable : Bool) :
    (r.truncateEnds ended capable).Sound ∧
      (.success ∈ (r.truncateEnds ended capable).outcomes ↔ .success ∈ r.outcomes) ∧
      (r.truncateEnds ended capable).confirmed =
        (r.confirmed && !decide (r.truncating = true ∧ ended = .failed)) ∧
      (r.truncateEnds ended capable).playedMs = r.playedMs := by
  rw [truncateEnds]
  by_cases hwaits : r.truncating = true
  · have hs : ∀ mode confirmed, (confirmed = true → r.confirmed = true) →
        { r with truncating := false, mode := mode, confirmed := confirmed }.Sound :=
      fun _ _ hconf => ⟨h.counted, h.uncounted, fun hc => h.confirmed (hconf hc), h.finished,
        h.acknowledgements, fun _ => h.placed (.inr hwaits), h.unsent⟩
    rw [if_pos hwaits]
    cases ended with
    | returned mode =>
      have hb := hs mode r.confirmed id
      have hstill : r.confirmed = (r.confirmed &&
          !decide (r.truncating = true ∧ CallEnd.returned mode = .failed)) := by simp
      rw [← hstill, truncated]
      split_ifs
      · refine ⟨hb.observe (by simp) (by simp), ?_, rfl, rfl⟩
        rw [outcomes_observe, List.append_nil]
        rfl
      · obtain ⟨hsound, hkeeps, hplayed⟩ := notMeasurable_spec hb .capabilityUnavailable capable
        exact ⟨hsound, hkeeps.success, hkeeps.confirmed, hplayed⟩
    | failed =>
      have hb := hs .contextNotTruncated false (by simp)
      obtain ⟨hsound, hsuccess⟩ := conclude_spec hb (o := .truncate .failure .requestFailed)
        (by simp) (by simp) .failure (by simp) capable
      have hsame := truncateOutcome_same ({ r with
        truncating := false, mode := .contextNotTruncated, confirmed := false }.observe
          (.truncate .failure .requestFailed)) .failure capable
      refine ⟨hsound, hsuccess, ?_, hsame.2.1⟩
      rw [decide_eq_true ⟨hwaits, rfl⟩, Bool.not_true, Bool.and_false]
      exact hsame.1
    | cancelled =>
      exact ⟨hs r.mode r.confirmed id, Iff.rfl, by simp [truncated], rfl⟩
  · rw [if_neg hwaits]
    exact ⟨h, Iff.rfl, by simp [hwaits], rfl⟩

theorem confirm_spec (capable : Bool) :
    (r.confirm capable).Sound ∧ (r.confirm capable).confirmed = true ∧
      (.success ∈ (r.confirm capable).outcomes ↔ r.outcomeObserved = false ∨ .success ∈ r.outcomes) ∧
      (r.confirm capable).playedMs = r.playedMs := by
  obtain ⟨b, hb, hbs, hbo, hobs, hplayed⟩ : ∃ b, (if r.confirmed then r else
      r.observe (.truncate .success .confirmed)) = b ∧ b.Sound ∧ b.outcomes = r.outcomes ∧
      b.outcomeObserved = r.outcomeObserved ∧ b.playedMs = r.playedMs := by
    refine ⟨_, rfl, ?_⟩
    split_ifs
    · exact ⟨h, rfl, rfl, rfl⟩
    · exact ⟨h.observe (by simp) (by simp), by simp, rfl, rfl⟩
  have ht := hbs.truncateOutcome .success capable
  have hsame := truncateOutcome_same b .success capable
  have hresult := outcomes_truncateOutcome hbs .success capable
  rw [confirm, hb]
  refine ⟨⟨ht.counted, ht.uncounted, fun _ => hsame.2.2.2, ht.finished, ht.acknowledgements,
    ht.placed, ht.unsent⟩, rfl, ?_, hsame.2.1.trans hplayed⟩
  have houtcomes : { b.truncateOutcome .success capable with confirmed := true }.outcomes =
      if b.outcomeObserved then b.outcomes else [.success] := hresult
  rw [houtcomes, hobs, hbo]
  cases r.outcomeObserved <;> simp

/-- An observation that is made under a condition. -/
theorem observe_if_spec (p : Prop) [Decidable p] {o : Observation}
    (hoc : ∀ result verified, o ≠ .truncateOutcome result verified)
    (hack : o ≠ .stopClear .acknowledged) :
    (if p then r.observe o else r).Sound ∧ Keeps r (if p then r.observe o else r) ∧
      (if p then r.observe o else r).playedMs = r.playedMs ∧
      (if p then r.observe o else r).outcomeObserved = r.outcomeObserved := by
  by_cases hp : p
  · rw [if_pos hp]
    refine ⟨h.observe hoc hack, ⟨?_, rfl⟩, rfl, rfl⟩
    cases o with
    | truncateOutcome result verified => exact absurd rfl (hoc result verified)
    | truncate result reason => simp
    | stopClear result => simp
  · rw [if_neg hp]
    exact ⟨h, Keeps.refl r, rfl, rfl⟩

theorem finishOthers_spec :
    r.finishOthers.Sound ∧ Keeps r r.finishOthers ∧ r.finishOthers.playedMs = r.playedMs ∧
      r.finishOthers.outcomeObserved = r.outcomeObserved := by
  obtain ⟨hs₁, hk₁, hp₁, ho₁⟩ := observe_if_spec h (r.playedMs.isNone = true)
    (o := .stopClear .ackUnavailable) (by simp) (by simp)
  have hlast := observe_if_spec hs₁
    ((if r.playedMs.isNone = true then r.observe (.stopClear .ackUnavailable) else r).mode =
        .contextTruncateRequested ∧
      (if r.playedMs.isNone = true then r.observe (.stopClear .ackUnavailable) else r).confirmed = false)
    (o := .truncate .notMeasurable .confirmationUnavailable) (by simp) (by simp)
  obtain ⟨hs₂, hk₂, hp₂, ho₂⟩ := hlast
  exact ⟨hs₂, ⟨hk₂.success.trans hk₁.success, hk₂.confirmed.trans hk₁.confirmed⟩, hp₂.trans hp₁,
    ho₂.trans ho₁⟩

theorem finish_spec (capable : Bool) :
    (r.finish capable).Sound ∧ Keeps r (r.finish capable) ∧
      (r.finish capable).playedMs = r.playedMs ∧ (r.finish capable).outcomeObserved = true := by
  rw [finish]
  by_cases hfinished : r.observationsFinished = true
  · rw [if_pos hfinished]
    exact ⟨h, Keeps.refl r, rfl, h.finished hfinished⟩
  rw [if_neg hfinished]
  obtain ⟨t, ht⟩ : ∃ t, { r with observationsFinished := true }.truncateOutcome
      (if r.confirmed then .success else .unknown) capable = t := ⟨_, rfl⟩
  have hts : t.Sound ∧ Keeps r t ∧ t.playedMs = r.playedMs ∧ t.outcomeObserved = true := by
    rw [← ht]
    rcases Bool.eq_false_or_eq_true r.outcomeObserved with hobs | hobs
    · rw [truncateOutcome_of_observed { r with observationsFinished := true } _ _ hobs]
      exact ⟨⟨h.counted, h.uncounted, h.confirmed, fun _ => hobs, h.acknowledgements, h.placed,
        h.unsent⟩, ⟨Iff.rfl, rfl⟩, rfl, hobs⟩
    · -- An outcome that was not counted belongs to a truncation that is not confirmed.
      have hconf : r.confirmed = false := by
        cases hc : r.confirmed with
        | false => rfl
        | true => cases (h.confirmed hc).symm.trans hobs
      have hr := h.truncateOutcome .unknown capable
      have hopen := truncateOutcome_of_open { r with observationsFinished := true } .unknown capable
        hobs
      have hopen' := truncateOutcome_of_open r .unknown capable hobs
      have hresult : (if r.confirmed = true then Outcome.success else .unknown) = .unknown :=
        if_neg (by simp [hconf])
      rw [hresult, hopen]
      rw [hopen'] at hr
      refine ⟨⟨hr.counted, hr.uncounted, hr.confirmed, fun _ => rfl, hr.acknowledgements, hr.placed,
        hr.unsent⟩, ⟨?_, rfl⟩, rfl, rfl⟩
      have hkeep := success_truncateOutcome h .unknown (by simp) capable
      rw [hopen'] at hkeep
      exact hkeep
  rw [ht]
  obtain ⟨hsound, hkeeps, hplayed, hobserved⟩ := finishOthers_spec hts.1
  exact ⟨hsound, ⟨hkeeps.success.trans hts.2.1.success, hkeeps.confirmed.trans hts.2.1.confirmed⟩,
    hplayed.trans hts.2.2.1, hobserved.trans hts.2.2.2⟩

end Ops

end Request

/-! ### What the steps do to the requests -/

namespace Controller

theorem get_modify (c : Controller) (reply k : Ident) (f : Request → Request) :
    Dict.get (c.modify reply f).requests k =
      (Dict.get c.requests k).map fun r => if reply = k then f r else r := by
  rw [modify]
  cases hg : Dict.get c.requests reply with
  | none =>
    by_cases hk : reply = k
    · rw [← hk, hg]
      rfl
    · simp [hk]
  | some r =>
    simp only [Dict.get_set]
    by_cases hk : reply = k
    · rw [if_pos hk, ← hk, hg]
      simp
    · simp [hk]

theorem get_map (d : Dict Ident Request) (f : Request → Request) (k : Ident) :
    Dict.get (d.map fun e => (e.1, f e.2)) k = (Dict.get d k).map f := by
  induction d with
  | nil => rfl
  | cons e d ih =>
    rw [List.map_cons, Dict.get, Dict.get]
    split_ifs
    · rfl
    · exact ih

theorem keys_modify (c : Controller) (reply : Ident) (f : Request → Request)
    (h : (c.requests.map Prod.fst).Nodup) : ((c.modify reply f).requests.map Prod.fst).Nodup := by
  rw [modify]
  cases Dict.get c.requests reply with
  | none => exact h
  | some r => exact Dict.nodup_set h reply (f r)

end Controller

/-- What a step does to the request of a reply. -/
def change (c : Controller) (i : Step) (k : Ident) (r : Request) : Request :=
  match i with
  | .upgrade _ => r
  | .sendEnds reply ok => if reply = k then r.sendEnds ok else r
  | .interruptEnds reply ended => if reply = k then r.interruptEnds ended else r
  | .stopped reply playedMs capable item session =>
    if reply = k then r.stopped playedMs capable item session else r
  | .truncateEnds reply ended capable => if reply = k then r.truncateEnds ended capable else r
  | .confirm event capable =>
    if (c.target event capable).map Prod.fst = some k then r.confirm capable else r
  | .finishObservations capable => r.finish capable

/-- Only an upgrade makes a request, and no step takes one away. -/
theorem get_step (c : Controller) (i : Step) (k : Ident) :
    (∀ r, Dict.get c.requests k = some r →
      Dict.get (step c i).requests k = some (change c i k r)) ∧
    (Dict.get c.requests k = none → ∀ r, Dict.get (step c i).requests k = some r → r = {}) := by
  have hmodify : ∀ (reply : Ident) (f : Request → Request),
      (∀ r, Dict.get c.requests k = some r →
        Dict.get (c.modify reply f).requests k = some (if reply = k then f r else r)) ∧
      (Dict.get c.requests k = none → ∀ r, Dict.get (c.modify reply f).requests k = some r →
        r = {}) := by
    intro reply f
    rw [Controller.get_modify]
    exact ⟨fun r hr => by rw [hr]; rfl, fun hnone r hr => by rw [hnone] at hr; cases hr⟩
  cases i with
  | upgrade reply =>
    simp only [step, Controller.upgrade, change]
    cases hg : Dict.get c.requests reply with
    | some r' => exact ⟨fun r hr => hr, fun hnone r hr => by cases hnone.symm.trans hr⟩
    | none =>
      simp only
      split_ifs
      · exact ⟨fun r hr => hr, fun hnone r hr => by cases hnone.symm.trans hr⟩
      · simp only [Option.getD_some, Dict.get_set]
        by_cases hk : reply = k
        · subst hk
          refine ⟨fun r hr => (by cases hg.symm.trans hr), fun _ r hr => ?_⟩
          rw [if_pos rfl] at hr
          exact (Option.some.inj hr).symm
        · rw [if_neg hk]
          exact ⟨fun r hr => hr, fun hnone r hr => by cases hnone.symm.trans hr⟩
  | sendEnds reply ok => exact hmodify reply _
  | interruptEnds reply ended => exact hmodify reply _
  | stopped reply playedMs capable item session =>
    have hm := hmodify reply fun r => r.stopped playedMs capable item session
    simp only [step, Controller.stopped]
    cases hg : Dict.get c.requests reply with
    | some r' => exact hm
    | none =>
      refine ⟨fun r hr => ?_, fun hnone r hr => by cases hnone.symm.trans hr⟩
      have hk : reply ≠ k := by
        rintro rfl
        cases hg.symm.trans hr
      rw [change, if_neg hk]
      exact hr
  | truncateEnds reply ended capable => exact hmodify reply _
  | confirm event capable =>
    simp only [step, Controller.confirm, change]
    cases c.target event capable with
    | none => exact ⟨fun r hr => by simpa using hr, fun hnone r hr => by cases hnone.symm.trans hr⟩
    | some e =>
      obtain ⟨reply, r'⟩ := e
      have hm := hmodify reply fun r => r.confirm capable
      simpa using hm
  | finishObservations capable =>
    have hget := Controller.get_map c.requests (fun r => r.finish capable) k
    simp only [step, Controller.finishObservations, change]
    rw [hget]
    exact ⟨fun r hr => by rw [hr]; rfl, fun hnone r hr => by rw [hnone] at hr; cases hr⟩

/-- Every request is sound, and there is one for each reply. -/
structure Inv (c : Controller) : Prop where
  keys : (c.requests.map Prod.fst).Nodup
  sound : ∀ k r, Dict.get c.requests k = some r → r.Sound

theorem change_sound {r : Request} (h : r.Sound) (c : Controller) (i : Step) (k : Ident) :
    (change c i k r).Sound := by
  cases i with
  | upgrade reply => exact h
  | sendEnds reply ok =>
    rw [change]
    split_ifs
    · exact (Request.sendEnds_spec h ok).1
    · exact h
  | interruptEnds reply ended =>
    rw [change]
    split_ifs
    · exact (Request.interruptEnds_spec h ended).1
    · exact h
  | stopped reply playedMs capable item session =>
    rw [change]
    split_ifs
    · exact (Request.stopped_spec h playedMs capable item session).1
    · exact h
  | truncateEnds reply ended capable =>
    rw [change]
    split_ifs
    · exact (Request.truncateEnds_spec h ended capable).1
    · exact h
  | confirm event capable =>
    rw [change]
    split_ifs
    · exact (Request.confirm_spec h capable).1
    · exact h
  | finishObservations capable => exact (Request.finish_spec h capable).1

theorem keys_step {c : Controller} (h : (c.requests.map Prod.fst).Nodup) (i : Step) :
    ((step c i).requests.map Prod.fst).Nodup := by
  cases i with
  | upgrade reply =>
    simp only [step, Controller.upgrade]
    cases Dict.get c.requests reply with
    | some r => exact h
    | none =>
      simp only
      split_ifs
      · exact h
      · exact Dict.nodup_set h reply {}
  | sendEnds reply ok => exact c.keys_modify reply _ h
  | interruptEnds reply ended => exact c.keys_modify reply _ h
  | stopped reply playedMs capable item session =>
    simp only [step, Controller.stopped]
    cases Dict.get c.requests reply with
    | some r => exact c.keys_modify reply _ h
    | none => exact h
  | truncateEnds reply ended capable => exact c.keys_modify reply _ h
  | confirm event capable =>
    simp only [step, Controller.confirm]
    cases c.target event capable with
    | none => exact h
    | some e => exact c.keys_modify e.1 _ h
  | finishObservations capable =>
    have hsame : (step c (.finishObservations capable)).requests.map Prod.fst =
        c.requests.map Prod.fst := by
      simp [step, Controller.finishObservations, Function.comp_def]
    rwa [hsame]

theorem Inv.step {c : Controller} (h : Inv c) (i : Step) : Inv (step c i) where
  keys := keys_step h.keys i
  sound := by
    intro k r hr
    cases hg : Dict.get c.requests k with
    | some r₀ =>
      obtain rfl := Option.some.inj (((get_step c i k).1 r₀ hg).symm.trans hr)
      exact change_sound (h.sound k r₀ hg) c i k
    | none =>
      rw [(get_step c i k).2 hg r hr]
      exact Request.sound_new

theorem run_concat (steps : List Step) (i : Step) : run (steps ++ [i]) = step (run steps) i := by
  rw [run, List.foldl_append]
  rfl

theorem inv_run (steps : List Step) : Inv (run steps) := by
  induction steps using List.reverseRecOn with
  | nil => exact ⟨List.nodup_nil, fun k r hr => by cases hr⟩
  | append_singleton steps i ih =>
    rw [run_concat]
    exact ih.step i

end CompanionBackend.BargeController
