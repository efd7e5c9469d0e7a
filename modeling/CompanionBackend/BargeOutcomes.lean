import CompanionBackend.BargeAccounting

/-!
# When the outcome counted is the outcome

The two ways in which a step can part the outcome that is counted from the confirmation, and that there
are no others.
-/
namespace CompanionBackend.BargeController

open ProviderEvents (Ident)
open Dictionaries

/-- No awaited truncate call fails after its confirmation, and no truncation is confirmed after its
outcome was counted. -/
def Timely (c : Controller) : Step → Prop
  | .truncateEnds reply ended _ => ended = .failed → ∀ r, Dict.get c.requests reply = some r →
      r.truncating = true → r.confirmed = false
  | .confirm event capable => ∀ reply r, c.target event capable = some (reply, r) →
      r.confirmed = false → r.outcomeObserved = false
  | _ => True

/-- The accounting of a sequence of steps, in every state on its way. -/
structure Accounting (steps : List Step) : Prop where
  /-- When the observations are finished, each request has one outcome, and it tells whether the
  truncation is confirmed. -/
  outcome : ∀ before after capable, steps = before ++ after → ∀ reply r,
    Dict.get (run (before ++ [.finishObservations capable])).requests reply = some r →
    ∃ o, r.outcomes = [o] ∧
      (o = .success ↔ (run (before ++ [.finishObservations capable])).confirmed reply = true)
  /-- The first acknowledgement sets the played position for good. -/
  played : ∀ before i after, steps = before ++ i :: after → ∀ reply r,
    Dict.get (run before).requests reply = some r →
    ∃ r', Dict.get (run (before ++ [i])).requests reply = some r' ∧
      (∀ p, r.playedMs = some p → r'.playedMs = some p) ∧
      ∀ p, r.playedMs = none → r'.playedMs = some p →
        ∃ capable item session, i = .stopped reply p capable item session
  /-- Only the event of the position that was sent confirms. -/
  confirmed : ∀ before i after, steps = before ++ i :: after → ∀ reply,
    (run before).confirmed reply = false → (run (before ++ [i])).confirmed reply = true →
    ∃ event capable r p, i = .confirm event capable ∧ event.isTruncated = true ∧
      Dict.get (run before).requests reply = some r ∧ r.sent = [p] ∧
      event.sessionId = p.sessionId ∧ event.itemId = some p.itemId ∧
      event.audioEndMs = some p.playedMs
  acknowledgements : ∀ before after, steps = before ++ after → ∀ reply r,
    Dict.get (run before).requests reply = some r → r.acknowledgements ≤ 1

/-! ### One step -/

section Steps

variable {c : Controller}

theorem target_spec (h : Inv c) {event : Event} {capable : Bool} {reply : Ident} {r : Request}
    (ht : c.target event capable = some (reply, r)) :
    event.isTruncated = true ∧ Dict.get c.requests reply = some r ∧
      r.accepts event capable = true := by
  rw [Controller.target] at ht
  split_ifs at ht with hkind
  exact ⟨hkind, Dict.get_of_mem h.keys (List.mem_of_find?_eq_some ht), List.find?_some (p := fun e : Ident × Request => e.2.accepts event capable) ht⟩

/-- What an accepted event names is what was sent. -/
theorem accepts_spec {r : Request} (h : r.Sound) {event : Event} {capable : Bool}
    (ha : r.accepts event capable = true) :
    ∃ p, r.sent = [p] ∧ event.sessionId = p.sessionId ∧ event.itemId = some p.itemId ∧
      event.audioEndMs = some p.playedMs := by
  rw [Request.accepts, Bool.and_eq_true, decide_eq_true_eq] at ha
  obtain ⟨⟨hmode, hsession, hitem, -, hend⟩, -⟩ := ha
  obtain ⟨p, i, hp, hi, hsent⟩ := h.placed (.inl hmode)
  exact ⟨_, hsent, hsession, hitem.trans hi, hend.trans hp⟩

/-- A step changes the flag by a confirmation or by a call that fails. -/
theorem change_confirmed {r : Request} (h : r.Sound) (i : Step) (k : Ident)
    (hconf : (change c i k r).confirmed = true) :
    r.confirmed = true ∨
      ∃ event capable, i = .confirm event capable ∧
        (c.target event capable).map Prod.fst = some k := by
  cases i with
  | upgrade reply => exact .inl hconf
  | sendEnds reply ok =>
    rw [change] at hconf
    split_ifs at hconf
    · rw [(Request.sendEnds_spec h ok).2.1.confirmed] at hconf
      exact .inl hconf
    · exact .inl hconf
  | interruptEnds reply ended =>
    rw [change] at hconf
    split_ifs at hconf
    · rw [(Request.interruptEnds_spec h ended).2.1.confirmed] at hconf
      exact .inl hconf
    · exact .inl hconf
  | stopped reply playedMs capable item session =>
    rw [change] at hconf
    split_ifs at hconf
    · rw [(Request.stopped_spec h playedMs capable item session).2.1.confirmed] at hconf
      exact .inl hconf
    · exact .inl hconf
  | truncateEnds reply ended capable =>
    rw [change] at hconf
    split_ifs at hconf
    · rw [(Request.truncateEnds_spec h ended capable).2.2.1, Bool.and_eq_true] at hconf
      exact .inl hconf.1
    · exact .inl hconf
  | confirm event capable =>
    rw [change] at hconf
    split_ifs at hconf with hk
    · exact .inr ⟨event, capable, rfl, hk⟩
    · exact .inl hconf
  | finishObservations capable =>
    rw [change, (Request.finish_spec h capable).2.1.confirmed] at hconf
    exact .inl hconf

theorem change_playedMs {r : Request} (h : r.Sound) (i : Step) (k : Ident) :
    (change c i k r).playedMs = r.playedMs ∨ ∃ p capable item session,
      i = .stopped k p capable item session ∧
        (change c i k r).playedMs = some (r.playedMs.getD p) := by
  cases i with
  | upgrade reply => exact .inl rfl
  | sendEnds reply ok =>
    refine .inl ?_
    rw [change]
    split_ifs
    · exact (Request.sendEnds_spec h ok).2.2
    · rfl
  | interruptEnds reply ended =>
    refine .inl ?_
    rw [change]
    split_ifs
    · exact (Request.interruptEnds_spec h ended).2.2
    · rfl
  | stopped reply playedMs capable item session =>
    by_cases hk : reply = k
    · subst hk
      refine .inr ⟨playedMs, capable, item, session, rfl, ?_⟩
      rw [change, if_pos rfl, (Request.stopped_spec h playedMs capable item session).2.2]
    · rw [change, if_neg hk]
      exact .inl rfl
  | truncateEnds reply ended capable =>
    refine .inl ?_
    rw [change]
    split_ifs
    · exact (Request.truncateEnds_spec h ended capable).2.2.2
    · rfl
  | confirm event capable =>
    refine .inl ?_
    rw [change]
    split_ifs
    · exact (Request.confirm_spec h capable).2.2.2
    · rfl
  | finishObservations capable => exact .inl (Request.finish_spec h capable).2.2.1

/-- A timely step keeps a request's outcome and flag together. -/
theorem change_agrees {r : Request} {k : Ident} (hinv : Inv c) (hr : Dict.get c.requests k = some r)
    (hagrees : r.Agrees) {i : Step} (htimely : Timely c i) : (change c i k r).Agrees := by
  have h := hinv.sound k r hr
  cases i with
  | upgrade reply => exact hagrees
  | sendEnds reply ok =>
    rw [change]
    split_ifs
    · exact (Request.sendEnds_spec h ok).2.1.agrees.mpr hagrees
    · exact hagrees
  | interruptEnds reply ended =>
    rw [change]
    split_ifs
    · exact (Request.interruptEnds_spec h ended).2.1.agrees.mpr hagrees
    · exact hagrees
  | stopped reply playedMs capable item session =>
    rw [change]
    split_ifs
    · exact (Request.stopped_spec h playedMs capable item session).2.1.agrees.mpr hagrees
    · exact hagrees
  | truncateEnds reply ended capable =>
    rw [change]
    split_ifs with hk
    · obtain ⟨-, hsuccess, hconf, -⟩ := Request.truncateEnds_spec h ended capable
      refine (Request.Keeps.mk hsuccess ?_).agrees.mpr hagrees
      rw [hconf]
      by_cases hfails : r.truncating = true ∧ ended = .failed
      · rw [htimely hfails.2 r (hk ▸ hr) hfails.1]
        rfl
      · rw [decide_eq_false hfails, Bool.not_false, Bool.and_true]
    · exact hagrees
  | confirm event capable =>
    rw [change]
    split_ifs with hk
    · obtain ⟨-, hconf, hsuccess, -⟩ := Request.confirm_spec h capable
      obtain ⟨⟨reply, r'⟩, ht, rfl⟩ := Option.map_eq_some_iff.mp hk
      obtain rfl : r' = r := Option.some.inj ((target_spec hinv ht).2.1.symm.trans hr)
      rw [Request.Agrees, hsuccess, hconf]
      refine ⟨fun _ => rfl, fun _ => ?_⟩
      cases hc : r'.confirmed with
      | true => exact .inr (hagrees.mpr hc)
      | false => exact .inl (htimely _ _ ht hc)
    · exact hagrees
  | finishObservations capable => exact (Request.finish_spec h capable).2.1.agrees.mpr hagrees

/-- A step that is not timely parts them. -/
theorem timely_of_agrees (hinv : Inv c) (hbefore : ∀ k r, Dict.get c.requests k = some r → r.Agrees)
    {i : Step} (hafter : ∀ k r, Dict.get (step c i).requests k = some r → r.Agrees) : Timely c i := by
  cases i with
  | truncateEnds reply ended capable =>
    rintro rfl r hr hwaits
    have h := hinv.sound reply r hr
    have hagrees := hafter reply _ ((get_step c _ reply).1 r hr)
    rw [change, if_pos rfl] at hagrees
    obtain ⟨-, hsuccess, hconf, -⟩ := Request.truncateEnds_spec h .failed capable
    rw [Request.Agrees, hsuccess, hconf, decide_eq_true ⟨hwaits, rfl⟩] at hagrees
    cases hc : r.confirmed with
    | false => rfl
    | true => simpa [hc] using hagrees.mp ((hbefore reply r hr).mpr hc)
  | confirm event capable =>
    intro reply r ht hconf
    have hr := (target_spec hinv ht).2.1
    have h := hinv.sound reply r hr
    have hagrees := hafter reply _ ((get_step c _ reply).1 r hr)
    rw [change, if_pos (by rw [ht]; rfl)] at hagrees
    obtain ⟨-, hflag, hsuccess, -⟩ := Request.confirm_spec h capable
    rcases hsuccess.mp (hagrees.mpr hflag) with hopen | hcounted
    · exact hopen
    · cases hconf.symm.trans ((hbefore reply r hr).mp hcounted)
  | upgrade reply => trivial
  | sendEnds reply ok => trivial
  | interruptEnds reply ended => trivial
  | stopped reply playedMs capable item session => trivial
  | finishObservations capable => trivial

theorem confirmed_eq {reply : Ident} {r : Request} (hr : Dict.get c.requests reply = some r) :
    c.confirmed reply = r.confirmed := by
  rw [Controller.confirmed, hr, Option.any_some]

/-- Finishing shows whether outcome and flag agree. -/
theorem finished_agrees (hinv : Inv c) {capable : Bool} {k : Ident} {r : Request}
    (hr : Dict.get (step c (.finishObservations capable)).requests k = some r) :
    ∃ o, r.outcomes = [o] ∧ ((o = .success ↔ r.confirmed = true) ↔ r.Agrees) := by
  have hobserved : r.outcomeObserved = true := by
    cases hg : Dict.get c.requests k with
    | some r₀ =>
      obtain rfl := Option.some.inj (((get_step c _ k).1 r₀ hg).symm.trans hr)
      exact (Request.finish_spec (hinv.sound k r₀ hg) capable).2.2.2
    | none =>
      have hget := Controller.get_map c.requests (fun r => r.finish capable) k
      rw [hg] at hget
      cases hget.symm.trans hr
  obtain ⟨o, ho⟩ := ((hinv.step _).sound k r hr).counted hobserved
  refine ⟨o, ho, ?_⟩
  rw [Request.Agrees, ho, List.mem_singleton, eq_comm]

end Steps

/-! ### Whole runs -/

theorem run_agrees {steps : List Step}
    (htimely : ∀ before i after, steps = before ++ i :: after → Timely (run before) i) :
    ∀ k r, Dict.get (run steps).requests k = some r → r.Agrees := by
  induction steps using List.reverseRecOn with
  | nil => exact fun k r hr => by cases hr
  | append_singleton steps i ih =>
    have hlast := htimely steps i [] rfl
    have hbefore := ih fun before j after hsplit =>
      htimely before j (after ++ [i]) (by rw [hsplit, List.append_assoc, List.cons_append])
    intro k r hr
    rw [run_concat] at hr
    cases hg : Dict.get (run steps).requests k with
    | some r₀ =>
      obtain rfl := Option.some.inj (((get_step _ i k).1 r₀ hg).symm.trans hr)
      exact change_agrees (inv_run steps) hg (hbefore k r₀ hg) hlast
    | none =>
      rw [(get_step _ i k).2 hg r hr]
      simp [Request.Agrees, Request.outcomes]

/-- What holds of every sequence of steps beside the outcomes. -/
theorem accounting_of_outcomes {steps : List Step}
    (houtcome : ∀ before after capable, steps = before ++ after → ∀ reply r,
      Dict.get (run (before ++ [.finishObservations capable])).requests reply = some r →
      ∃ o, r.outcomes = [o] ∧
        (o = .success ↔ (run (before ++ [.finishObservations capable])).confirmed reply = true)) :
    Accounting steps where
  outcome := houtcome
  played := by
    intro before i after _ reply r hr
    refine ⟨change (run before) i reply r, ?_, fun p hp => ?_, fun p hnone hp => ?_⟩
    · rw [run_concat]
      exact (get_step _ i reply).1 r hr
    · rcases change_playedMs ((inv_run before).sound reply r hr) i reply with hsame | hset
      · rw [hsame, hp]
      · obtain ⟨q, -, -, -, -, hset⟩ := hset
        rw [hset, hp, Option.getD_some]
    · rcases change_playedMs ((inv_run before).sound reply r hr) i reply with hsame | hset
      · cases hp.symm.trans (hsame.trans hnone)
      · obtain ⟨q, capable, item, session, hi, hset⟩ := hset
        rw [hset, hnone, Option.getD_none] at hp
        obtain rfl : q = p := Option.some.inj hp
        exact ⟨capable, item, session, hi⟩
  confirmed := by
    intro before i after _ reply hno hyes
    have hinv := inv_run before
    rw [run_concat] at hyes
    cases hg : Dict.get (run before).requests reply with
    | none =>
      rw [Controller.confirmed, Option.any_eq_true] at hyes
      obtain ⟨r, hr, hconf⟩ := hyes
      rw [(get_step _ i reply).2 hg r hr] at hconf
      cases hconf
    | some r =>
      rw [confirmed_eq hg] at hno
      rw [confirmed_eq ((get_step _ i reply).1 r hg)] at hyes
      rcases change_confirmed (hinv.sound reply r hg) i reply hyes with hwas | hevent
      · cases hno.symm.trans hwas
      · obtain ⟨event, capable, rfl, ht⟩ := hevent
        obtain ⟨⟨k, r'⟩, htarget, rfl⟩ := Option.map_eq_some_iff.mp ht
        obtain ⟨hkind, hr', haccepts⟩ := target_spec hinv htarget
        obtain rfl : r' = r := Option.some.inj (hr'.symm.trans hg)
        obtain ⟨p, hsent, hsession, hitem, hend⟩ := accepts_spec (hinv.sound k r' hg) haccepts
        exact ⟨event, capable, r', p, rfl, hkind, rfl, hsent, hsession, hitem, hend⟩
  acknowledgements := by
    intro before after _ reply r hr
    rw [((inv_run before).sound reply r hr).acknowledgements]
    exact Bool.toNat_le _

/-- The accounting of a sequence of steps is right exactly if each of them is timely. -/
theorem accounting_iff (steps : List Step) :
    Accounting steps ↔ ∀ before i after, steps = before ++ i :: after → Timely (run before) i := by
  have hfinish : ∀ (before : List Step) (capable : Bool) (k : Ident) (r : Request),
      Dict.get (run (before ++ [.finishObservations capable])).requests k = some r →
      ∃ o, r.outcomes = [o] ∧ ((o = .success ↔
        (run (before ++ [.finishObservations capable])).confirmed k = true) ↔ r.Agrees) := by
    intro before capable k r hr
    rw [confirmed_eq hr]
    rw [run_concat] at hr
    exact finished_agrees (inv_run before) hr
  constructor
  · intro h before i after hsplit
    -- Before and after the step the counted outcomes agree with the flags, as finishing shows.
    have hagree : ∀ first rest, steps = first ++ rest →
        ∀ k r, Dict.get (run first).requests k = some r → r.Agrees := by
      intro first rest hfirst k r hr
      have hchange := (get_step (run first) (.finishObservations true) k).1 r hr
      rw [← run_concat] at hchange
      obtain ⟨o, ho, hiff⟩ := hfinish first true k _ hchange
      obtain ⟨o', ho', hright⟩ := h.outcome first rest true hfirst k _ hchange
      obtain rfl : o = o' := by simpa using ho.symm.trans ho'
      have hspec := Request.finish_spec ((inv_run first).sound k r hr) true
      exact hspec.2.1.agrees.mp (hiff.mp hright)
    refine timely_of_agrees (inv_run before) (hagree before (i :: after) hsplit) ?_
    rw [← run_concat]
    exact hagree (before ++ [i]) after (by rw [hsplit, List.append_assoc, List.singleton_append])
  · intro htimely
    refine accounting_of_outcomes fun before after capable hsplit k r hr => ?_
    obtain ⟨o, ho, hiff⟩ := hfinish before capable k r hr
    refine ⟨o, ho, hiff.mpr (run_agrees (fun b i a hb => ?_) k r hr)⟩
    rcases List.eq_nil_or_concat a with rfl | ⟨a', j, rfl⟩
    · -- The last step finishes the observations.
      have hi : i = .finishObservations capable := by simpa using (List.append_inj' hb rfl).2.symm
      rw [hi]
      trivial
    · rw [List.concat_eq_append, ← List.cons_append, ← List.append_assoc] at hb
      have hb' := (List.append_inj' hb rfl).1
      exact htimely b i (a' ++ after) (by rw [hsplit, hb']; simp)

/-- The call is confirmed while it is awaited, and fails then. -/
def lateFailure : List Step :=
  [.upgrade "r1".toList, .stopped "r1".toList 100 true (some "item1".toList) (some "s1".toList),
    .confirm ⟨true, some "s1".toList, some "item1".toList, some 100⟩ true,
    .truncateEnds "r1".toList .failed true]

/-- A success is counted for a truncation that is not confirmed. -/
theorem lateFailure_counted :
    (Dict.get (run (lateFailure ++ [.finishObservations true])).requests "r1".toList).map
        Request.outcomes = some [.success] ∧
      (run (lateFailure ++ [.finishObservations true])).confirmed "r1".toList = false := by
  decide

end CompanionBackend.BargeController
