import CompanionBackend.VoiceMetrics

/-!
# Metrics follow savepoints

The pairs of an event and its owner that the listener keeps are those the history
calls survivors. Between a failed flush and the rollback it asks for, the two lists
agree up to what that rollback drops.
-/
namespace CompanionBackend.VoiceMetrics

open Runs ProviderEvents Savepoints

variable {σ : Type*}

theorem belongsToRollback_iff {previous t : SessionTransaction} :
    belongsToRollback previous t = true ↔ previous ∈ t.lineage := by
  induction t with
  | root n => simp [belongsToRollback, SessionTransaction.lineage, eq_comm (a := previous)]
  | savepoint n p ih => simp [belongsToRollback, SessionTransaction.lineage, ih,
    eq_comm (a := previous)]
  | subtransaction n p ih => simp [belongsToRollback, SessionTransaction.lineage, ih,
    eq_comm (a := previous)]

theorem boundary_subtransaction {n : ℕ} {c : SessionTransaction}
    (h : ∀ m p, c ≠ .subtransaction m p) : boundary (.subtransaction n c) = c := by
  cases c with
  | root m => rfl
  | savepoint m p => rfl
  | subtransaction m p => exact absurd rfl (h m p)

/-- Events with their owners. -/
abbrev Pairs := List (VoiceMetricEvent × Option SessionTransaction)

def SessionInfo.pairs (info : SessionInfo) : Pairs := info.events.zip info.owners

/-- The pairs left when a transaction and what is nested in it are dropped. -/
def dropped (t : SessionTransaction) (pairs : Pairs) : Pairs :=
  if t.nested = false then [] else pairs.filter fun pair => !ownerBelongs t pair.2

theorem dropped_append (t : SessionTransaction) (xs ys : Pairs) :
    dropped t (xs ++ ys) = dropped t xs ++ dropped t ys := by
  unfold dropped
  split_ifs <;> simp

theorem dropped_idem (t : SessionTransaction) (pairs : Pairs) :
    dropped t (dropped t pairs) = dropped t pairs := by
  unfold dropped
  split_ifs <;> simp

theorem ownerBelongs_of_lineage {a b : SessionTransaction} {owner : Option SessionTransaction}
    (hab : a ∈ b.lineage) (hb : ownerBelongs b owner = true) : ownerBelongs a owner = true := by
  cases owner with
  | none => simp [ownerBelongs] at hb
  | some o =>
    have ho : b ∈ o.lineage := belongsToRollback_iff.mp hb
    exact belongsToRollback_iff.mpr (SessionTransaction.lineage_trans hab ho)

/-- Dropping a savepoint also drops what is nested in it. -/
theorem dropped_dropped {a b : SessionTransaction} (hab : a ∈ b.lineage) (ha : a.nested = true)
    (hb : b.nested = true) (pairs : Pairs) : dropped a (dropped b pairs) = dropped a pairs := by
  simp only [dropped, ha, hb, Bool.true_eq_false, if_false, List.filter_filter]
  refine List.filter_congr fun pair _ => ?_
  cases hbelongs : ownerBelongs b pair.2 with
  | false => simp
  | true => simp [ownerBelongs_of_lineage hab hbelongs]

section Listener

variable {info : SessionInfo}

theorem discard_lengths (t : SessionTransaction) :
    (discardRolledBack info t).events.length = (discardRolledBack info t).owners.length := by
  unfold discardRolledBack
  dsimp only
  split_ifs <;> simp

theorem discard_pairs (t : SessionTransaction) :
    (discardRolledBack info t).pairs = dropped (boundary t) info.pairs := by
  unfold discardRolledBack dropped SessionInfo.pairs
  dsimp only
  split_ifs
  · rfl
  · exact (List.zip_of_prod rfl rfl).symm

@[simp] theorem discard_hook (t : SessionTransaction) :
    (discardRolledBack info t).rollbackHook = info.rollbackHook := by
  unfold discardRolledBack
  dsimp only
  split_ifs <;> rfl

theorem pairs_nil_of_events (h : info.events = []) : info.pairs = [] := by
  simp [SessionInfo.pairs, h]

theorem events_of_pairs (h : info.events.length = info.owners.length) :
    info.pairs.map Prod.fst = info.events :=
  List.map_fst_zip h.le

theorem dropped_nil (t : SessionTransaction) : dropped t [] = [] := by
  simp [dropped]

theorem foldl_discard (fired : List SessionTransaction) :
    (fired.foldl discardRolledBack info).pairs =
      fired.foldl (fun pairs t => dropped (boundary t) pairs) info.pairs := by
  induction fired generalizing info with
  | nil => rfl
  | cons t rest ih => rw [List.foldl_cons, List.foldl_cons, ih, discard_pairs]

/-- Once an outer transaction is among those rolled back nothing is kept. -/
theorem foldl_dropped_root {fired : List SessionTransaction} {t : SessionTransaction}
    (ht : t ∈ fired) (hroot : (boundary t).nested = false) (pairs : Pairs) :
    fired.foldl (fun pairs t => dropped (boundary t) pairs) pairs = [] := by
  have hnil (rest : List SessionTransaction) :
      rest.foldl (fun pairs t => dropped (boundary t) pairs) [] = ([] : Pairs) := by
    induction rest with
    | nil => rfl
    | cons u rest ih => rw [List.foldl_cons, dropped_nil, ih]
  induction fired generalizing pairs with
  | nil => simp at ht
  | cons u rest ih =>
    rw [List.foldl_cons]
    rcases List.mem_cons.mp ht with rfl | hrest
    · rw [dropped, if_pos hroot, hnil]
    · exact ih hrest _

theorem foldl_lengths (fired : List SessionTransaction)
    (h : info.events.length = info.owners.length) :
    (fired.foldl discardRolledBack info).events.length =
      (fired.foldl discardRolledBack info).owners.length := by
  induction fired generalizing info with
  | nil => exact h
  | cons t rest ih => exact ih (discard_lengths t)

theorem foldl_hook (fired : List SessionTransaction) :
    (fired.foldl discardRolledBack info).rollbackHook = info.rollbackHook := by
  induction fired generalizing info with
  | nil => rfl
  | cons t rest ih => rw [List.foldl_cons, ih, discard_hook]

end Listener

/-- An event with the transaction it was staged in. -/
def Staged.pair (e : Staged) : VoiceMetricEvent × Option SessionTransaction := (e.event, e.inside)

def MetricSession.survivingPairs (w : MetricSession σ) : Pairs :=
  (w.log.filter w.survives).map Staged.pair

theorem mem_enclosing {e : Staged} {t : SessionTransaction} :
    t ∈ e.enclosing ↔ ownerBelongs t e.inside = true ∧ t.nested = true := by
  cases h : e.inside <;> simp [Staged.enclosing, ownerBelongs, h, belongsToRollback_iff]

/-- Naming one more savepoint as rolled back drops its pairs. -/
theorem survivingPairs_undo (w : MetricSession σ) (t : SessionTransaction) :
    (w.undo t).survivingPairs = dropped t w.survivingPairs := by
  cases hnested : t.nested with
  | false => simp [MetricSession.undo, MetricSession.survivingPairs, dropped, hnested]
  | true =>
    simp only [MetricSession.undo, MetricSession.survivingPairs, dropped, hnested, if_true,
      Bool.true_eq_false, if_false, List.filter_map, List.filter_filter]
    congr 1
    refine List.filter_congr fun e _ => ?_
    have hmem : t ∈ e.enclosing ↔ ownerBelongs t e.inside = true := by
      simp [mem_enclosing, hnested]
    rw [Bool.eq_iff_iff]
    simp only [MetricSession.survives, List.all_eq_true, decide_eq_true_eq, List.mem_cons, not_or,
      Bool.and_eq_true, Function.comp_apply, Bool.not_eq_true', Staged.pair]
    constructor
    · intro h
      refine ⟨?_, fun u hu => (h u hu).2⟩
      by_contra hbelongs
      exact (h t (hmem.mpr (by simpa using hbelongs))).1 rfl
    · rintro ⟨hbelongs, h⟩ u hu
      refine ⟨?_, h u hu⟩
      rintro rfl
      simp [hmem.mp hu] at hbelongs

/-- What holds of a session with its metrics between two operations. -/
structure MetricSound (A : SessionApi σ) (w : MetricSession σ) : Prop where
  lengths : w.info.events.length = w.info.owners.length
  unhooked : w.info.rollbackHook = false → w.info.events = [] ∧ w.log = []
  /-- The kept pairs are the surviving ones. -/
  agreed : A.failed w.session = false → w.info.pairs = w.survivingPairs
  /-- After a failed flush they are so up to the transaction that has to be rolled back. -/
  suspect : ∀ c, A.failed w.session = true → A.current w.session = some c →
    dropped c w.info.pairs = dropped c w.survivingPairs
  spoiled : A.failed w.session = true → A.current w.session ≠ none
  /-- Between two operations no internal transaction is open. -/
  plain : ∀ t ∈ A.opened w.session, ∀ n p, t ≠ .subtransaction n p
  /-- No open transaction has been rolled back. -/
  standing : ∀ t ∈ A.opened w.session, t ∉ w.rolledBack
  openBorn : ∀ t ∈ A.opened w.session, t.id < A.born w.session
  rolledBorn : ∀ t ∈ w.rolledBack, t.id < A.born w.session

variable {A : SessionApi σ} {w : MetricSession σ}

/-- An operation of the session alone, whose open transactions were open before or are new. -/
theorem sound_session (hw : MetricSound A w) {s' : σ} (hfailed : A.failed w.session = false)
    (hfailed' : A.failed s' = false) (hborn : A.born w.session ≤ A.born s')
    (hopened : ∀ t ∈ A.opened s', t ∈ A.opened w.session ∨
      t.id = A.born w.session ∧ A.born w.session < A.born s' ∧ ∀ n p, t ≠ .subtransaction n p) :
    MetricSound A { w with session := s' } where
  lengths := hw.lengths
  unhooked := hw.unhooked
  agreed _ := hw.agreed hfailed
  suspect c h := absurd (hfailed'.symm.trans h) (by simp)
  spoiled h := absurd (hfailed'.symm.trans h) (by simp)
  plain t ht := by
    rcases hopened t ht with hold | ⟨-, -, hplain⟩
    · exact hw.plain t hold
    · exact hplain
  standing t ht hrolled := by
    rcases hopened t ht with hold | ⟨hid, -, -⟩
    · exact hw.standing t hold hrolled
    · have hlt := hw.rolledBorn t hrolled
      omega
  openBorn t ht := by
    rcases hopened t ht with hold | ⟨hid, hlt, -⟩
    · exact (hw.openBorn t hold).trans_le hborn
    · exact hid.trans_lt hlt
  rolledBorn t ht := (hw.rolledBorn t ht).trans_le hborn

theorem afterSoftRollback_lengths (hw : MetricSound A w) (fired : List SessionTransaction) :
    (afterSoftRollback w.info fired).events.length =
      (afterSoftRollback w.info fired).owners.length := by
  unfold afterSoftRollback
  split_ifs
  · exact foldl_lengths fired hw.lengths
  · exact hw.lengths

@[simp] theorem afterSoftRollback_hook (info : SessionInfo) (fired : List SessionTransaction) :
    (afterSoftRollback info fired).rollbackHook = info.rollbackHook := by
  unfold afterSoftRollback
  split_ifs
  · exact foldl_hook fired
  · rfl

/-- Without a listener there is nothing to drop. -/
theorem afterSoftRollback_pairs (hw : MetricSound A w) (fired : List SessionTransaction) :
    (afterSoftRollback w.info fired).pairs =
      fired.foldl (fun pairs t => dropped (boundary t) pairs) w.info.pairs := by
  unfold afterSoftRollback
  split_ifs with hhook
  · exact foldl_discard fired
  · rw [pairs_nil_of_events (hw.unhooked (by simpa using hhook)).1]
    induction fired with
    | nil => rfl
    | cons t rest ih => rw [List.foldl_cons, dropped_nil, ← ih]

theorem unhooked_after (hw : MetricSound A w) (fired : List SessionTransaction)
    (h : (afterSoftRollback w.info fired).rollbackHook = false) :
    (afterSoftRollback w.info fired).events = [] ∧ w.log = [] := by
  rw [afterSoftRollback_hook] at h
  obtain ⟨hevents, hlog⟩ := hw.unhooked h
  exact ⟨by simpa [afterSoftRollback, h] using hevents, hlog⟩

/-- Rolling one open transaction back leaves the survivors outside it. -/
theorem dropped_pairs (hw : MetricSound A w) {t : SessionTransaction}
    (ht : t ∈ A.opened w.session) :
    dropped t w.info.pairs = dropped t w.survivingPairs := by
  cases hfailed : A.failed w.session with
  | false => rw [hw.agreed hfailed]
  | true =>
    obtain ⟨c, hc, hmem⟩ := SessionApi.mem_opened.mp ht
    have hsuspect := hw.suspect c hfailed hc
    cases ht : t.nested with
    | false => simp [dropped, ht]
    | true =>
      -- the spoiled transaction has a savepoint above it, so it is one itself
      have hnested : c.nested = true := by
        cases c with
        | savepoint n p => rfl
        | subtransaction n p =>
          exact absurd rfl (hw.plain _ (SessionApi.mem_opened.mpr ⟨_, hc, .head _⟩) n p)
        | root n =>
          obtain rfl : t = .root n := by simpa [SessionTransaction.lineage] using hmem
          simp [SessionTransaction.nested] at ht
      calc dropped t w.info.pairs
          = dropped t (dropped c w.info.pairs) := (dropped_dropped hmem ht hnested _).symm
        _ = dropped t (dropped c w.survivingPairs) := by rw [hsuspect]
        _ = dropped t w.survivingPairs := dropped_dropped hmem ht hnested _

theorem boundary_of_opened (hw : MetricSound A w) {t : SessionTransaction}
    (ht : t ∈ A.opened w.session) : boundary t = t := by
  cases t with
  | root n => rfl
  | savepoint n p => rfl
  | subtransaction n p => exact absurd rfl (hw.plain _ ht n p)

theorem opened_parent {s : σ} {t p : SessionTransaction} (ht : t ∈ A.opened s)
    (hp : t.parent = some p) {u : SessionTransaction} (hu : u ∈ p.lineage) :
    u ∈ A.opened s ∧ u ≠ t := by
  obtain ⟨c, hc, hmem⟩ := SessionApi.mem_opened.mp ht
  refine ⟨SessionApi.mem_opened.mpr ⟨c, hc, ?_⟩, ?_⟩
  · exact SessionTransaction.lineage_trans (SessionTransaction.parent_lineage hp hu) hmem
  · rintro rfl
    exact SessionTransaction.not_mem_parent_lineage hp hu

/-- A transaction ended by its name leaves what it was nested in. -/
theorem opened_ended {s s' : σ} {t : SessionTransaction} (ht : t ∈ A.opened s)
    (hcurrent : A.current s' = t.parent) {u : SessionTransaction} (hu : u ∈ A.opened s') :
    u ∈ A.opened s ∧ u ≠ t := by
  obtain ⟨p, hp, hmem⟩ := SessionApi.mem_opened.mp hu
  exact opened_parent ht (hcurrent.symm.trans hp) hmem

theorem opened_of_none {s : σ} (h : A.current s = none) : A.opened s = [] := by
  simp [SessionApi.opened, h]

section Steps

variable {w' : MetricSession σ}

theorem step_autobegin (hA : A.Lawful) (hw : MetricSound A w)
    (h : step A w .autobegin = some w') : MetricSound A w' := by
  obtain ⟨s', hs', rfl⟩ := Option.map_eq_some_iff.mp h
  obtain ⟨hnone, hcurrent, hborn, hfailed'⟩ := hA.autobegin _ _ hs'
  have hfailed : A.failed w.session = false := by
    by_contra hspoiled
    exact hw.spoiled (by simpa using hspoiled) hnone
  refine sound_session hw hfailed hfailed' hborn.le fun t ht => .inr ?_
  obtain rfl : t = .root (A.born w.session) := by
    simpa [SessionApi.opened, hcurrent, SessionTransaction.lineage] using ht
  exact ⟨rfl, hborn, by simp⟩

theorem step_beginNested (hA : A.Lawful) (hw : MetricSound A w)
    (h : step A w .beginNested = some w') : MetricSound A w' := by
  obtain ⟨s', hs', rfl⟩ := Option.map_eq_some_iff.mp h
  obtain ⟨c, hc, hfailed, hcurrent, hborn, hfailed'⟩ := hA.beginNested _ _ hs'
  refine sound_session hw hfailed hfailed' hborn.le fun t ht => ?_
  have hmem : t = .savepoint (A.born w.session) c ∨ t ∈ c.lineage := by
    simpa [SessionApi.opened, hcurrent, SessionTransaction.lineage] using ht
  rcases hmem with rfl | hold
  · exact .inr ⟨rfl, hborn, by simp⟩
  · exact .inl (SessionApi.mem_opened.mpr ⟨c, hc, hold⟩)

theorem step_release (hA : A.Lawful) (hw : MetricSound A w) {t : SessionTransaction}
    (h : step A w (.release t) = some w') : MetricSound A w' := by
  obtain ⟨s', hs', rfl⟩ := Option.map_eq_some_iff.mp h
  obtain ⟨ht, -, hfailed, hcurrent, hborn, hfailed'⟩ := hA.release _ _ _ hs'
  exact sound_session hw hfailed hfailed' hborn fun u hu => .inl (opened_ended ht hcurrent hu).1

theorem step_commit (hA : A.Lawful) (hw : MetricSound A w)
    (h : step A w .commit = some w') : MetricSound A w' := by
  obtain ⟨s', hs', rfl⟩ := Option.map_eq_some_iff.mp h
  obtain ⟨hfailed, hcurrent, hborn, hfailed'⟩ := hA.commit _ _ hs'
  refine sound_session hw hfailed hfailed' hborn fun u hu => ?_
  simp [opened_of_none hcurrent] at hu

/-- Rolling back by name a savepoint, or the outer transaction. -/
theorem step_rollbackTo (hA : A.Lawful) (hw : MetricSound A w) {t : SessionTransaction}
    (h : step A w (.rollbackTo t) = some w') : MetricSound A w' := by
  obtain ⟨⟨s', fired⟩, hs', rfl⟩ := Option.map_eq_some_iff.mp h
  obtain ⟨ht, rfl, hcurrent, hborn, hfailed'⟩ := hA.rollbackTo _ _ _ _ hs'
  have hpairs : (afterSoftRollback w.info [t]).pairs = (w.undo t).survivingPairs := by
    rw [afterSoftRollback_pairs hw, survivingPairs_undo]
    simp only [List.foldl_cons, List.foldl_nil, boundary_of_opened hw ht]
    exact dropped_pairs hw ht
  have hrolled : ∀ u ∈ (w.undo t).rolledBack, u = t ∨ u ∈ w.rolledBack := by
    intro u hu
    unfold MetricSession.undo at hu
    split_ifs at hu
    · exact List.mem_cons.mp hu
    · exact .inr hu
  constructor
  · exact afterSoftRollback_lengths hw [t]
  · intro hhook
    obtain ⟨hevents, hlog⟩ := unhooked_after hw [t] hhook
    refine ⟨hevents, ?_⟩
    unfold MetricSession.undo
    split_ifs
    · exact hlog
    · rfl
  · exact fun _ => hpairs
  · exact fun c hspoiled => absurd (hfailed'.symm.trans hspoiled) (by simp)
  · exact fun hspoiled => absurd (hfailed'.symm.trans hspoiled) (by simp)
  · exact fun u hu => hw.plain u (opened_ended ht hcurrent hu).1
  · intro u hu hmem
    obtain ⟨hopened, hne⟩ := opened_ended ht hcurrent hu
    exact (hrolled u hmem).elim hne (hw.standing u hopened)
  · exact fun u hu => (hw.openBorn u (opened_ended ht hcurrent hu).1).trans_le hborn
  · intro u hu
    refine lt_of_lt_of_le ?_ hborn
    rcases hrolled u hu with rfl | hold
    · exact hw.openBorn u ht
    · exact hw.rolledBorn u hold

theorem step_failFlush (hA : A.Lawful) (hw : MetricSound A w)
    (h : step A w .failFlush = some w') : MetricSound A w' := by
  obtain ⟨⟨s', fired⟩, hs', rfl⟩ := Option.map_eq_some_iff.mp h
  obtain ⟨c, n, hc, hfailed, rfl, hcurrent, hborn, hfailed'⟩ := hA.failFlush _ _ _ hs'
  have hopen : A.opened s' = A.opened w.session := by
    rw [SessionApi.opened, SessionApi.opened, hcurrent, hc]
  have hself : c ∈ A.opened w.session :=
    SessionApi.mem_opened.mpr ⟨c, hc, SessionTransaction.self_mem_lineage c⟩
  constructor
  · exact afterSoftRollback_lengths hw _
  · exact unhooked_after hw _
  · exact fun hsound => absurd (hfailed'.symm.trans hsound) (by simp)
  · intro d _ hd
    obtain rfl : c = d := Option.some.inj (hcurrent.symm.trans hd)
    rw [afterSoftRollback_pairs hw, List.foldl_cons, List.foldl_nil,
      boundary_subtransaction (hw.plain c hself), dropped_idem, hw.agreed hfailed]
    rfl
  · exact fun _ => by simp [hcurrent]
  · exact fun u hu => hw.plain u (hopen ▸ hu)
  · exact fun u hu => hw.standing u (hopen ▸ hu)
  · exact fun u hu => (hw.openBorn u (hopen ▸ hu)).trans_le hborn
  · exact fun u hu => (hw.rolledBorn u hu).trans_le hborn

theorem step_rollback (hA : A.Lawful) (hw : MetricSound A w)
    (h : step A w .rollback = some w') : MetricSound A w' := by
  obtain rfl := Option.some.inj h
  obtain ⟨hfired, hcurrent, hborn, hfailed'⟩ := hA.rollback w.session
  have hopened : A.opened (A.rollback w.session).1 = [] := opened_of_none hcurrent
  have hpairs : (afterSoftRollback w.info (A.rollback w.session).2).pairs =
      (({ w with log := if A.current w.session = none then w.log else [] } :
        MetricSession σ)).survivingPairs := by
    rw [hfired]
    cases hc : A.current w.session with
    | none =>
      have hfailed : A.failed w.session = false := by
        by_contra hspoiled
        exact hw.spoiled (by simpa using hspoiled) hc
      rw [opened_of_none hc, afterSoftRollback_pairs hw, List.foldl_nil, hw.agreed hfailed]
      rfl
    | some c =>
      have hroot : c.outermost ∈ A.opened w.session :=
        SessionApi.mem_opened.mpr ⟨c, hc, c.outermost_mem_lineage⟩
      have houter : c.outermost.nested = false := by
        have hparent := c.outermost_parent
        cases ht : c.outermost <;> simp_all [SessionTransaction.parent, SessionTransaction.nested]
      rw [afterSoftRollback_pairs hw,
        foldl_dropped_root hroot (by rw [boundary_of_opened hw hroot, houter])]
      simp [MetricSession.survivingPairs]
  constructor
  · exact afterSoftRollback_lengths hw _
  · intro hhook
    obtain ⟨hevents, hlog⟩ := unhooked_after hw _ hhook
    exact ⟨hevents, by simp [hlog]⟩
  · exact fun _ => hpairs
  · exact fun c hspoiled => absurd (hfailed'.symm.trans hspoiled) (by simp)
  · exact fun hspoiled => absurd (hfailed'.symm.trans hspoiled) (by simp)
  · simp [hopened]
  · simp [hopened]
  · simp [hopened]
  · exact fun u hu => (hw.rolledBorn u hu).trans_le hborn

/-- The owner remembered is the innermost open transaction. -/
theorem owner_eq_current (hA : A.Lawful) (hw : MetricSound A w) :
    (A.getNestedTransaction w.session).or (A.getTransaction w.session) = A.current w.session := by
  rw [hA.getNestedTransaction, hA.getTransaction, SessionApi.opened]
  cases hc : A.current w.session with
  | none => rfl
  | some c =>
    cases c with
    | root n => rfl
    | savepoint n p => rfl
    | subtransaction n p =>
      exact absurd rfl (hw.plain _ (SessionApi.mem_opened.mpr ⟨_, hc, .head _⟩) n p)

/-- What is staged now is enclosed by open savepoints, none of them rolled back. -/
theorem staged_survives (hw : MetricSound A w) (event : VoiceMetricEvent) :
    w.survives ⟨event, A.current w.session⟩ = true := by
  refine List.all_eq_true.mpr fun t ht => ?_
  have hopened : t ∈ A.opened w.session := (List.mem_filter.mp ht).1
  simpa using hw.standing t hopened

theorem zip_replicate_owner (events : List VoiceMetricEvent) (owner : Option SessionTransaction) :
    events.zip (List.replicate events.length owner) = events.map fun event => (event, owner) := by
  induction events with
  | nil => rfl
  | cons event rest ih => simp [List.replicate_succ, ih]

/-- Everything staged now is a survivor. -/
theorem survivingPairs_stage (hw : MetricSound A w) (events : List VoiceMetricEvent)
    (info : SessionInfo) :
    ({ w with
        info := info
        log := w.log ++ events.map fun event => ⟨event, A.current w.session⟩ } :
      MetricSession σ).survivingPairs =
      w.survivingPairs ++ events.map fun event => (event, A.current w.session) := by
  let staged := events.map fun event => (⟨event, A.current w.session⟩ : Staged)
  have hnew : staged.filter w.survives = staged := by
    refine List.filter_eq_self.mpr fun e he => ?_
    obtain ⟨event, -, rfl⟩ := List.mem_map.mp he
    exact staged_survives hw event
  calc ((w.log ++ staged).filter w.survives).map Staged.pair
      = (w.log.filter w.survives ++ staged).map Staged.pair := by rw [List.filter_append, hnew]
    _ = w.survivingPairs ++ events.map fun event => (event, A.current w.session) := by
        rw [List.map_append, List.map_map]
        rfl

theorem step_stage (hA : A.Lawful) (hw : MetricSound A w) {events : List VoiceMetricEvent}
    (h : step A w (.stage events) = some w') : MetricSound A w' := by
  obtain rfl := Option.some.inj h
  have hpairs : (stageVoiceMetrics A w.session w.info events).pairs =
      w.info.pairs ++ events.map fun event => (event, A.current w.session) := by
    simp only [stageVoiceMetrics, SessionInfo.pairs, owner_eq_current hA hw]
    rw [List.zip_append hw.lengths, zip_replicate_owner]
  constructor
  · simp [stageVoiceMetrics, hw.lengths]
  · simp [stageVoiceMetrics]
  · intro hfailed
    rw [hpairs, survivingPairs_stage hw, hw.agreed hfailed]
  · intro c hfailed hc
    rw [hpairs, survivingPairs_stage hw, dropped_append, dropped_append, hw.suspect c hfailed hc]
  · exact hw.spoiled
  · exact hw.plain
  · exact hw.standing
  · exact hw.openBorn
  · exact hw.rolledBorn

theorem flush_info (info : SessionInfo) (metrics : Bool) :
    (flushVoiceMetrics info metrics).1 = { info with events := [], owners := [] } := by
  unfold flushVoiceMetrics
  dsimp only
  split_ifs <;> rfl

theorem step_flush (hw : MetricSound A w) {metrics : Bool}
    (h : step A w (.flush metrics) = some w') : MetricSound A w' := by
  obtain rfl := Option.some.inj h
  constructor
  · simp [flush_info]
  · simp [flush_info]
  · simp [flush_info, SessionInfo.pairs, MetricSession.survivingPairs]
  · simp [flush_info, SessionInfo.pairs, MetricSession.survivingPairs]
  · exact hw.spoiled
  · exact hw.plain
  · exact hw.standing
  · exact hw.openBorn
  · exact hw.rolledBorn

theorem step_sound (hA : A.Lawful) (hw : MetricSound A w) {i : SessionInput}
    (h : step A w i = some w') : MetricSound A w' := by
  cases i with
  | autobegin => exact step_autobegin hA hw h
  | beginNested => exact step_beginNested hA hw h
  | release t => exact step_release hA hw h
  | rollbackTo t => exact step_rollbackTo hA hw h
  | failFlush => exact step_failFlush hA hw h
  | commit => exact step_commit hA hw h
  | rollback => exact step_rollback hA hw h
  | stage events => exact step_stage hA hw h
  | flush metrics => exact step_flush hw h

end Steps

theorem start_sound {w : MetricSession σ} (hw : (machine A).start w) : MetricSound A w := by
  obtain ⟨⟨hcurrent, hfailed⟩, hinfo, -, hlog, hrolled⟩ := hw
  have hopened := opened_of_none hcurrent
  constructor
  · simp [hinfo]
  · simp [hinfo, hlog]
  · simp [hinfo, hlog, SessionInfo.pairs, MetricSession.survivingPairs]
  · simp [hfailed]
  · simp [hfailed]
  · simp [hopened]
  · simp [hopened]
  · simp [hopened]
  · simp [hrolled]

theorem reachable_sound (hA : A.Lawful) {w : MetricSession σ} (hw : (machine A).Reachable w) :
    MetricSound A w :=
  Machine.reachable_invariant (fun _ => start_sound)
    (fun _ _ _ hs hstep => step_sound hA hs hstep) hw

/-- What `emit_many` is called with. -/
def emission (events : List VoiceMetricEvent) : List (List VoiceMetricEvent) :=
  if events = [] then [] else [events]

theorem flush_emitted (info : SessionInfo) :
    (flushVoiceMetrics info true).2 = emission info.events := by
  unfold flushVoiceMetrics emission
  dsimp only
  split_ifs <;> simp_all

theorem events_eq_survivors {w : MetricSession σ} (hw : MetricSound A w)
    (hfailed : A.failed w.session = false) : w.info.events = w.survivors := by
  rw [← events_of_pairs hw.lengths, hw.agreed hfailed, MetricSession.survivingPairs, List.map_map]
  rfl

/-- What a flush after the end of the outer transaction emits. -/
structure FollowsSavepoints (A : SessionApi σ) (w : MetricSession σ) : Prop where
  /-- After a commit exactly the events of no rolled back savepoint, once each and in order. -/
  committed : ∀ w₁ w₂, step A w .commit = some w₁ → step A w₁ (.flush true) = some w₂ →
    w₂.emitted = w.emitted ++ emission w.survivors
  /-- After a rollback of the session none. -/
  rolledBack : ∀ w₁ w₂, A.current w.session ≠ none → step A w .rollback = some w₁ →
    step A w₁ (.flush true) = some w₂ → w₂.emitted = w.emitted
  /-- After a rollback of the outer transaction by its name none. -/
  outerRolledBack : ∀ t w₁ w₂, t.nested = false → step A w (.rollbackTo t) = some w₁ →
    step A w₁ (.flush true) = some w₂ → w₂.emitted = w.emitted

theorem survivors_of_log {w : MetricSession σ} (h : w.log = []) : w.survivors = [] := by
  simp [MetricSession.survivors, h]

theorem flush_after {w₁ w₂ : MetricSession σ} (hw : MetricSound A w₁)
    (hfailed : A.failed w₁.session = false) (h : step A w₁ (.flush true) = some w₂) :
    w₂.emitted = w₁.emitted ++ emission w₁.survivors := by
  obtain rfl := Option.some.inj h
  simp only [flush_emitted, events_eq_survivors hw hfailed]

theorem flush_follows_savepoints (A : SessionApi σ) (hA : A.Lawful) {w : MetricSession σ}
    (hw : (machine A).Reachable w) : FollowsSavepoints A w where
  committed w₁ w₂ hcommit hflush := by
    have hsound := step_sound hA (reachable_sound hA hw) hcommit
    obtain ⟨s', hs', rfl⟩ := Option.map_eq_some_iff.mp hcommit
    have hemitted := flush_after hsound (hA.commit _ _ hs').2.2.2 hflush
    exact hemitted
  rolledBack w₁ w₂ hopen hrollback hflush := by
    have hsound := step_sound hA (reachable_sound hA hw) hrollback
    obtain rfl := Option.some.inj hrollback
    have hemitted := flush_after hsound (hA.rollback w.session).2.2.2 hflush
    rw [hemitted, survivors_of_log (by simp [hopen])]
    simp [emission]
  outerRolledBack t w₁ w₂ ht hrollback hflush := by
    have hsound := step_sound hA (reachable_sound hA hw) hrollback
    obtain ⟨⟨s', fired⟩, hs', rfl⟩ := Option.map_eq_some_iff.mp hrollback
    have hemitted := flush_after hsound (hA.rollbackTo _ _ _ _ hs').2.2.2.2 hflush
    rw [hemitted, survivors_of_log (by simp [MetricSession.undo, ht])]
    simp [emission, MetricSession.undo, ht]

/-- Two savepoints inside each other, the inner one released and the outer one rolled back. -/
def partialRollback : List SessionInput :=
  let outer := SessionTransaction.savepoint 1 (.root 0)
  [.stage [⟨"voice.summary.result".toList, [], 1⟩], .autobegin, .beginNested, .beginNested,
    .stage [⟨"voice.followup.send".toList, [], 1⟩], .release (.savepoint 2 outer),
    .rollbackTo outer, .beginNested, .stage [⟨"voice.growth.points".toList, [], 2⟩]]

theorem flush_follows_savepoints_partial :
    FollowsSavepoints StackSession.api ((machine StackSession.api).after
      ⟨⟨[], false, 0⟩, ⟨false, [], []⟩, [], [], []⟩ partialRollback) :=
  flush_follows_savepoints StackSession.api StackSession.lawful
    (Machine.reachable_after ⟨⟨rfl, rfl⟩, rfl, rfl, rfl, rfl⟩ (by decide))

end CompanionBackend.VoiceMetrics
