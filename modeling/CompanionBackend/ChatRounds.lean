import CompanionBackend.ChatPipeline

/-!
# One round for each row and each generation

Only recovery runs take the bundle lock, so a debounced run and a recovery can
hold one window and one generation at a time. Two conditions keep rounds apart:
no other round is persisted between a run's reading of its window and its own
round, and no run reads the generation of a send whose row is not committed.
-/
namespace CompanionBackend.ChatRounds

open Runs TimelineSequence TaskSystems ChatPipeline

/-- The two conditions, on the state before the step. -/
def RoundsApart (d : ChatData) : ChatTask → ChatInput → Prop
  | .starting _, .next => d.uncommitted = []
  | .run _ b .checked, .persist messages => messages ≠ 0 → d.rounds.length = b.roundsSeen
  | _, _ => True

instance (d : ChatData) (t : ChatTask) (i : ChatInput) : Decidable (RoundsApart d t i) := by
  unfold RoundsApart
  split <;> infer_instance

/-- No two committed rounds share a row, and no two answer one generation. -/
structure OneRound (rounds : List Round) : Prop where
  packs : rounds.Pairwise fun r s => List.Disjoint r.pack s.pack
  gens : rounds.Pairwise fun r s => r.gen ≠ s.gen

/-! ### The invariant -/

structure RoundData (d : ChatData) : Prop where
  sequenced : Sequenced d
  oneRound : OneRound d.rounds
  /-- Rows of a committed round exist and are closed. -/
  ids : ∀ r ∈ d.rounds, ∀ id ∈ r.pack, id < d.users.length
  closed : ∀ r ∈ d.rounds, ∀ u ∈ d.users, u.id ∈ r.pack → isOpen d u = false
  round_gens : ∀ r ∈ d.rounds, r.gen < d.nextGen
  generation : ∀ gen, d.generation = some gen → gen < d.nextGen
  uncommitted : ∀ gen ∈ d.uncommitted, gen < d.nextGen
  /-- A generation that has its round leaves nothing to answer. -/
  settled : ∀ r ∈ d.rounds, d.generation = some r.gen →
    d.uncommitted = [] ∧ ∀ u ∈ d.users, isOpen d u = false

/-- What holds of a generation that a run has read. -/
structure GenRead (d : ChatData) (gen : GenId) : Prop where
  lt : gen < d.nextGen
  committed : d.generation = some gen → d.uncommitted = []

/-- What holds of a run until another round is persisted: a generation that is current, or was at
the last look, has no round yet, and the pack is open. -/
structure PackFresh (d : ChatData) (b : Bundle) (stage : Stage) : Prop where
  no_round : d.generation = some b.genBefore ∨ stage = .checked →
    ∀ r ∈ d.rounds, r.gen ≠ b.genBefore
  pack_open : ∀ id ∈ b.packRows, ∃ u ∈ d.users, u.id = id ∧ isOpen d u = true

structure RunOk (d : ChatData) (b : Bundle) (stage : Stage) : Prop where
  read : GenRead d b.genBefore
  seen : b.roundsSeen ≤ d.rounds.length
  fresh : d.rounds.length = b.roundsSeen → PackFresh d b stage

def TaskOk (d : ChatData) : ChatTask → Prop
  | .inserting gen => gen ∈ d.uncommitted
  | .fetching _ gen => GenRead d gen
  | .run _ b stage => RunOk d b stage
  | _ => True

/-- Two sends have different generations. -/
def Distinct : ChatTask → ChatTask → Prop
  | .inserting gen, .inserting gen' => gen ≠ gen'
  | _, _ => True

theorem Distinct.symm {t u : ChatTask} (h : Distinct t u) : Distinct u t := by
  cases t <;> cases u <;> first | exact trivial | exact Ne.symm h

theorem distinct_of_light {t u : ChatTask} (h : u.light = true) : Distinct t u := by
  cases t <;> cases u <;> first | exact trivial | exact absurd h (by simp [ChatTask.light])

theorem taskOk_of_light {d : ChatData} {t : ChatTask} (h : t.light = true) : TaskOk d t := by
  cases t <;> first | exact trivial | exact absurd h (by simp [ChatTask.light])

/-- What the steps of other tasks may do to the data. -/
structure Evolves (d d' : ChatData) : Prop where
  nextGen : d.nextGen ≤ d'.nextGen
  generation : d'.generation = some d.nextGen ∨
    d'.generation = d.generation ∧ (d.uncommitted = [] → d'.uncommitted = [])
  rounds : d.rounds.length < d'.rounds.length ∨ d'.rounds = d.rounds ∧
    ∀ u ∈ d.users, isOpen d u = true → ∃ u' ∈ d'.users, u'.id = u.id ∧ isOpen d' u' = true

theorem GenRead.evolves {d d' : ChatData} {gen : GenId} (h : GenRead d gen) (he : Evolves d d') :
    GenRead d' gen := by
  refine ⟨h.lt.trans_le he.nextGen, fun hgen => ?_⟩
  rcases he.generation with hfresh | ⟨hsame, hempty⟩
  · exact absurd (Option.some.inj (hgen.symm.trans hfresh)) h.lt.ne
  · exact hempty (h.committed (hsame.symm.trans hgen))

theorem RunOk.evolves {d d' : ChatData} {b : Bundle} {stage : Stage} (h : RunOk d b stage)
    (he : Evolves d d') : RunOk d' b stage := by
  rcases he.rounds with hmore | ⟨hsame, hopen⟩
  · refine ⟨h.read.evolves he, h.seen.trans hmore.le, fun hseen => ?_⟩
    have := h.seen
    omega
  · refine ⟨h.read.evolves he, by rw [hsame]; exact h.seen, fun hseen => ?_⟩
    rw [hsame] at hseen
    have hfresh := h.fresh hseen
    refine ⟨fun hcurrent => ?_, fun id hid => ?_⟩
    · rw [hsame]
      apply hfresh.no_round
      refine hcurrent.imp_left fun hgen => ?_
      rcases he.generation with hnew | ⟨hkeep, -⟩
      · exact absurd (Option.some.inj (hgen.symm.trans hnew)) h.read.lt.ne
      · exact hkeep.symm.trans hgen
    · obtain ⟨u, hu, rfl, huopen⟩ := hfresh.pack_open id hid
      exact hopen u hu huopen

/-- A run passes its last look only while its generation is current. -/
theorem RunOk.stage {d : ChatData} {b : Bundle} {stage stage' : Stage} (h : RunOk d b stage)
    (hchecked : stage' = .checked → d.generation = some b.genBefore) : RunOk d b stage' := by
  refine ⟨h.read, h.seen, fun hseen => ⟨?_, (h.fresh hseen).pack_open⟩⟩
  rintro (hcurrent | hstage)
  · exact (h.fresh hseen).no_round (.inl hcurrent)
  · exact (h.fresh hseen).no_round (.inl (hchecked hstage))

/-- Stability of the assertions other than a send's own. -/
theorem TaskOk.evolves {d d' : ChatData} {t : ChatTask} (h : TaskOk d t) (he : Evolves d d')
    (hsend : ∀ gen, t = .inserting gen → gen ∈ d'.uncommitted) : TaskOk d' t := by
  cases t with
  | inserting gen => exact hsend gen rfl
  | fetching locked gen => exact GenRead.evolves h he
  | run locked b stage => exact RunOk.evolves h he
  | _ => exact trivial

/-! ### Steps -/

theorem isOpen_congr {d d' : ChatData} (h : d'.assistants = d.assistants) (u : UserRow) :
    isOpen d' u = isOpen d u := by
  simp only [isOpen, maxAssistantSortSeq, h]

theorem evolves_of_agrees {d d' : ChatData} (h : Agrees d d') : Evolves d d' := by
  refine ⟨h.nextGen.ge, .inr ⟨h.generation, fun hempty => h.uncommitted.trans hempty⟩,
    .inr ⟨h.rounds, fun u hu hopen => ⟨u, h.users ▸ hu, rfl, ?_⟩⟩⟩
  rwa [isOpen_congr h.assistants]

theorem roundData_of_agrees {d d' : ChatData} (hd : RoundData d) (h : Agrees d d') :
    RoundData d' := by
  refine ⟨hd.sequenced.agrees h, ?_, ?_, ?_, ?_, ?_, ?_, ?_⟩
  · rw [h.rounds]
    exact hd.oneRound
  · rw [h.rounds, h.users]
    exact hd.ids
  · rw [h.rounds, h.users]
    intro r hr u hu hid
    rw [isOpen_congr h.assistants]
    exact hd.closed r hr u hu hid
  · rw [h.rounds, h.nextGen]
    exact hd.round_gens
  · rw [h.generation, h.nextGen]
    exact hd.generation
  · rw [h.uncommitted, h.nextGen]
    exact hd.uncommitted
  · rw [h.rounds, h.generation, h.uncommitted, h.users]
    simp only [isOpen_congr h.assistants]
    exact hd.settled

/-- A fresh generation has no round and no run. -/
theorem evolves_bump (d : ChatData) (uncommitted : List GenId) :
    Evolves d { bumpGeneration d with uncommitted := uncommitted } :=
  ⟨Nat.le_succ _, .inl rfl, .inr ⟨rfl, fun u hu hopen => ⟨u, hu, rfl, hopen⟩⟩⟩

theorem roundData_bump {d : ChatData} (hd : RoundData d) {uncommitted : List GenId}
    (hlt : ∀ gen ∈ uncommitted, gen < d.nextGen + 1) :
    RoundData { bumpGeneration d with uncommitted := uncommitted } := by
  refine ⟨⟨hd.sequenced.users, hd.sequenced.assistants, hd.sequenced.ids⟩, hd.oneRound, hd.ids,
    hd.closed, fun r hr => (hd.round_gens r hr).trans_le (Nat.le_succ _), ?_, hlt, ?_⟩
  · intro gen hgen
    obtain rfl := Option.some.inj hgen
    exact Nat.lt_succ_self _
  · intro r hr hgen
    exact absurd (Option.some.inj hgen) (hd.round_gens r hr).ne'

theorem evolves_inserted {d : ChatData} {uncommitted : List GenId}
    (hempty : d.uncommitted = [] → uncommitted = []) :
    Evolves d { inserted d with uncommitted := uncommitted } :=
  ⟨le_rfl, .inr ⟨rfl, hempty⟩,
    .inr ⟨rfl, fun u hu hopen => ⟨u, List.mem_append_left _ hu, rfl, hopen⟩⟩⟩

theorem roundData_inserted {d : ChatData} {gen : GenId} (hd : RoundData d)
    (hgen : gen ∈ d.uncommitted) {uncommitted : List GenId}
    (hsub : uncommitted ⊆ d.uncommitted) :
    RoundData { inserted d with uncommitted := uncommitted } := by
  have hseq := hd.sequenced.inserted
  refine ⟨⟨hseq.users, hseq.assistants, hseq.ids⟩, hd.oneRound, ?_, ?_, hd.round_gens,
    hd.generation, fun gen hmem => hd.uncommitted gen (hsub hmem), ?_⟩
  · intro r hr id hid
    have hlen : (inserted d).users.length = d.users.length + 1 := by simp [inserted]
    change id < (inserted d).users.length
    rw [hlen]
    exact Nat.lt_succ_of_lt (hd.ids r hr id hid)
  · intro r hr u hu hid
    rcases List.mem_append.mp hu with hu | hu
    · exact hd.closed r hr u hu hid
    · obtain rfl := List.mem_singleton.mp hu
      exact absurd (hd.ids r hr _ hid) (lt_irrefl _)
  · intro r hr hcurrent
    have hempty := (hd.settled r hr hcurrent).1
    rw [hempty] at hgen
    exact absurd hgen List.not_mem_nil

/-- A change of other columns. -/
theorem evolves_update {d d' : ChatData} {ids : List RowId} {f : UserRow → UserRow}
    (hf : KeepsRow f) (husers : d'.users = updateRows ids f d.users)
    (hassistants : d'.assistants = d.assistants) (hrounds : d'.rounds = d.rounds)
    (hgen : d'.generation = d.generation) (hnext : d'.nextGen = d.nextGen)
    (huncommitted : d'.uncommitted = d.uncommitted) : Evolves d d' := by
  refine ⟨hnext.ge, .inr ⟨hgen, fun hempty => huncommitted.trans hempty⟩,
    .inr ⟨hrounds, fun u hu hopen => ?_⟩⟩
  refine ⟨if u.id ∈ ids then f u else u, ?_, ?_, ?_⟩
  · rw [husers]
    exact mem_updateRows.mpr ⟨u, hu, rfl⟩
  · split_ifs
    · exact (hf u).1
    · rfl
  · rw [isOpen_iff, hassistants]
    have hlt := isOpen_iff.mp hopen
    split_ifs
    · rw [(hf u).2]
      exact hlt
    · exact hlt

theorem roundData_update {d d' : ChatData} {ids : List RowId} {f : UserRow → UserRow}
    (hd : RoundData d) (hseq : Sequenced d') (hf : KeepsRow f)
    (husers : d'.users = updateRows ids f d.users) (hassistants : d'.assistants = d.assistants)
    (hrounds : d'.rounds = d.rounds) (hgen : d'.generation = d.generation)
    (hnext : d'.nextGen = d.nextGen) (huncommitted : d'.uncommitted = d.uncommitted) :
    RoundData d' := by
  have hclosed : ∀ u' ∈ d'.users, ∃ u ∈ d.users, u'.id = u.id ∧ isOpen d' u' = isOpen d u := by
    intro u' hu'
    rw [husers] at hu'
    obtain ⟨u, hu, hid, hsort, -⟩ := origin_of_update hf hu'
    refine ⟨u, hu, hid, ?_⟩
    rw [isOpen_congr hassistants]
    simp only [isOpen, hsort]
  refine ⟨hseq, ?_, ?_, ?_, ?_, ?_, ?_, ?_⟩
  · rw [hrounds]
    exact hd.oneRound
  · rw [hrounds, husers, length_updateRows]
    exact hd.ids
  · rw [hrounds]
    intro r hr u' hu' hid'
    obtain ⟨u, hu, hid, hopen⟩ := hclosed u' hu'
    rw [hopen]
    exact hd.closed r hr u hu (hid ▸ hid')
  · rw [hrounds, hnext]
    exact hd.round_gens
  · rw [hgen, hnext]
    exact hd.generation
  · rw [huncommitted, hnext]
    exact hd.uncommitted
  · rw [hrounds, hgen, huncommitted]
    intro r hr hcurrent
    refine ⟨(hd.settled r hr hcurrent).1, fun u' hu' => ?_⟩
    obtain ⟨u, hu, -, hopen⟩ := hclosed u' hu'
    rw [hopen]
    exact (hd.settled r hr hcurrent).2 u hu

theorem evolves_persist {b : Bundle} {messages : ℕ} {d d' : ChatData}
    (hp : Persisted b messages d d') : Evolves d d' := by
  refine ⟨hp.nextGen.ge, .inr ⟨hp.generation, fun hempty => hp.uncommitted.trans hempty⟩, .inl ?_⟩
  rw [hp.rounds, List.length_append]
  exact Nat.lt_succ_self _

/-- A round persisted by a run that saw all earlier ones is the first for its rows and for its
generation. -/
theorem roundData_persist {b : Bundle} {messages : ℕ} {d d' : ChatData} (hd : RoundData d)
    (hrun : RunOk d b .checked) (hseen : d.rounds.length = b.roundsSeen)
    (hp : Persisted b messages d d') : RoundData d' := by
  have hfresh := hrun.fresh hseen
  have hclosed := closed_of_persisted hd.sequenced hp
  have hlen : d'.users.length = d.users.length := by rw [hp.users, length_updateRows]
  refine ⟨hd.sequenced.persisted hp, ⟨?_, ?_⟩, ?_, ?_, ?_, ?_, ?_, ?_⟩
  · rw [hp.rounds]
    refine List.pairwise_append.mpr ⟨hd.oneRound.packs, List.pairwise_singleton _ _, ?_⟩
    intro r hr s hs id hid hid'
    obtain rfl := List.mem_singleton.mp hs
    -- The row is closed by the old round, and open for the run.
    obtain ⟨u, hu, rfl, hopen⟩ := hfresh.pack_open id hid'
    rw [hd.closed r hr u hu hid] at hopen
    exact absurd hopen Bool.false_ne_true
  · rw [hp.rounds]
    refine List.pairwise_append.mpr ⟨hd.oneRound.gens, List.pairwise_singleton _ _, ?_⟩
    intro r hr s hs
    obtain rfl := List.mem_singleton.mp hs
    exact hfresh.no_round (.inr rfl) r hr
  · rw [hp.rounds, hlen]
    intro r hr id hid
    rcases List.mem_append.mp hr with hr | hr
    · exact hd.ids r hr id hid
    · obtain rfl := List.mem_singleton.mp hr
      obtain ⟨u, hu, rfl, -⟩ := hfresh.pack_open id hid
      exact hd.sequenced.ids u hu
  · intro r _ u hu _
    exact hclosed u hu
  · rw [hp.rounds, hp.nextGen]
    intro r hr
    rcases List.mem_append.mp hr with hr | hr
    · exact hd.round_gens r hr
    · obtain rfl := List.mem_singleton.mp hr
      exact hrun.read.lt
  · rw [hp.generation, hp.nextGen]
    exact hd.generation
  · rw [hp.uncommitted, hp.nextGen]
    exact hd.uncommitted
  · rw [hp.rounds, hp.generation, hp.uncommitted]
    intro r hr hcurrent
    refine ⟨?_, hclosed⟩
    rcases List.mem_append.mp hr with hr | hr
    · exact (hd.settled r hr hcurrent).1
    · obtain rfl := List.mem_singleton.mp hr
      exact hrun.read.committed hcurrent

/-- A run that has just read a nonempty window has an open pack and no round for its generation. -/
theorem runOk_fetched {d : ChatData} {b : Bundle} {stage : Stage} (hd : RoundData d)
    (hread : GenRead d b.genBefore) (hrows : b.openRows = (fetchOpenWindow d).map (·.id))
    (hne : b.openRows ≠ []) (hpack : b.packRows = packOf b.openRows)
    (hseen : b.roundsSeen = d.rounds.length) (hstage : stage ≠ .checked) : RunOk d b stage := by
  have hopen : ∀ id ∈ b.openRows, ∃ u ∈ d.users, u.id = id ∧ isOpen d u = true := by
    rw [hrows]
    intro id hid
    obtain ⟨u, hu, rfl⟩ := List.mem_map.mp hid
    obtain ⟨hmem, huopen⟩ := mem_fetchOpenWindow.mp hu
    exact ⟨u, hmem, rfl, huopen⟩
  refine ⟨hread, hseen.le, fun _ => ⟨?_, ?_⟩⟩
  · rintro (hcurrent | hchecked)
    · intro r hr hgen
      obtain ⟨id, hid⟩ := List.exists_mem_of_ne_nil _ hne
      obtain ⟨u, hu, -, huopen⟩ := hopen id hid
      rw [(hd.settled r hr (hgen ▸ hcurrent)).2 u hu] at huopen
      exact absurd huopen Bool.false_ne_true
    · exact absurd hchecked hstage
  · rw [hpack]
    intro id hid
    exact hopen id (packOf_subset _ hid)

/-- A step that leaves no send and keeps the uncommitted generations establishes the invariant. -/
theorem establishes_of_evolves {d d' : ChatData} {t : ChatTask} {ts : List ChatTask}
    (hd : RoundData d') (he : Evolves d d') (hts : ∀ t' ∈ ts, TaskOk d' t')
    (hsends : ∀ t' ∈ ts, ∀ u, Distinct t' u) (hpairwise : ts.Pairwise Distinct)
    (huncommitted : ∀ gen, Distinct t (.inserting gen) → gen ∈ d.uncommitted →
      gen ∈ d'.uncommitted) :
    TaskSystem.Establishes RoundData TaskOk Distinct d d' t ts := by
  refine ⟨hd, hts, hpairwise, fun u hu htu => ⟨hu.evolves he ?_, fun t' ht' => (hsends t' ht' u).symm⟩⟩
  rintro gen rfl
  exact huncommitted gen htu hu

theorem establishes_single {d d' : ChatData} {t t' : ChatTask} (hd : RoundData d')
    (he : Evolves d d') (ht' : TaskOk d' t') (hsend : ∀ u, Distinct t' u)
    (huncommitted : ∀ gen, Distinct t (.inserting gen) → gen ∈ d.uncommitted →
      gen ∈ d'.uncommitted) :
    TaskSystem.Establishes RoundData TaskOk Distinct d d' t [t'] := by
  refine establishes_of_evolves hd he ?_ ?_ (List.pairwise_singleton _ _) huncommitted
  · intro u hu
    obtain rfl := List.mem_singleton.mp hu
    exact ht'
  · intro u hu
    obtain rfl := List.mem_singleton.mp hu
    exact hsend

theorem establishes_none {d d' : ChatData} {t : ChatTask} (hd : RoundData d')
    (he : Evolves d d') (huncommitted : ∀ gen, Distinct t (.inserting gen) →
      gen ∈ d.uncommitted → gen ∈ d'.uncommitted) :
    TaskSystem.Establishes RoundData TaskOk Distinct d d' t [] :=
  establishes_of_evolves hd he (by simp) (by simp) List.Pairwise.nil huncommitted

theorem distinct_run (locked : Bool) (b : Bundle) (stage : Stage) (u : ChatTask) :
    Distinct (.run locked b stage) u := by
  cases u <;> exact trivial

theorem mem_erase_of_distinct {d : ChatData} {gen gen' : GenId}
    (h : Distinct (.inserting gen) (.inserting gen')) (hmem : gen' ∈ d.uncommitted) :
    gen' ∈ d.uncommitted.erase gen :=
  (List.mem_erase_of_ne (Ne.symm h)).mpr hmem

theorem erase_eq_nil {gens : List GenId} (gen : GenId) (h : gens = []) : gens.erase gen = [] := by
  rw [h]
  rfl

/-- Every step that meets the conditions keeps the invariant and what other tasks rely on. -/
theorem step_establishes {d d' : ChatData} {t : ChatTask} {i : ChatInput} {ts : List ChatTask}
    (hd : RoundData d) (ht : TaskOk d t) (hok : RoundsApart d t i)
    (hstep : ChatStep d t i d' ts) :
    TaskSystem.Establishes RoundData TaskOk Distinct d d' t ts := by
  have hseq := hd.sequenced.step hstep
  cases hstep with
  | light ha hts =>
    refine establishes_of_evolves (roundData_of_agrees hd ha) (evolves_of_agrees ha) ?_ ?_ ?_ ?_
    · intro t' ht'
      exact taskOk_of_light (hts t' ht')
    · intro t' ht' u
      exact (distinct_of_light (hts t' ht')).symm
    · exact List.Pairwise.imp_of_mem (fun _ hb _ => distinct_of_light (hts _ hb))
        (List.pairwise_of_forall (R := fun _ _ => True) fun _ _ => trivial)
    · intro gen _ hmem
      rwa [ha.uncommitted]
  | begin =>
    have hlt : ∀ gen ∈ d.nextGen :: d.uncommitted, gen < d.nextGen + 1 := by
      intro gen hmem
      rcases List.mem_cons.mp hmem with rfl | hmem
      · exact Nat.lt_succ_self _
      · exact (hd.uncommitted gen hmem).trans_le (Nat.le_succ _)
    refine ⟨roundData_bump hd hlt, ?_, List.pairwise_singleton _ _, fun u hu _ => ⟨?_, ?_⟩⟩
    · intro t' ht'
      obtain rfl := List.mem_singleton.mp ht'
      exact List.mem_cons_self
    · apply hu.evolves (evolves_bump d _)
      rintro gen rfl
      exact List.mem_cons_of_mem _ hu
    · intro t' ht'
      obtain rfl := List.mem_singleton.mp ht'
      cases u with
      | inserting gen => exact (hd.uncommitted gen hu).ne
      | _ => exact trivial
  | bump =>
    refine establishes_single (roundData_bump hd ?_) (evolves_bump d _) trivial ?_ fun _ _ h => h
    · intro gen hmem
      exact (hd.uncommitted gen hmem).trans_le (Nat.le_succ _)
    · intro u
      exact (distinct_of_light rfl).symm
  | insert gen =>
    refine establishes_single (roundData_inserted hd ht List.erase_subset) (evolves_inserted (erase_eq_nil gen))
      trivial ?_ fun gen' hdistinct hmem => mem_erase_of_distinct hdistinct hmem
    intro u
    exact (distinct_of_light rfl).symm
  | abandon gen =>
    refine establishes_none ?_ ?_ fun gen' hdistinct hmem => mem_erase_of_distinct hdistinct hmem
    · refine ⟨hseq, hd.oneRound, hd.ids, hd.closed, hd.round_gens, hd.generation, ?_, ?_⟩
      · intro gen' hmem
        exact hd.uncommitted gen' (List.mem_of_mem_erase hmem)
      · intro r hr hcurrent
        exact ⟨erase_eq_nil gen (hd.settled r hr hcurrent).1, (hd.settled r hr hcurrent).2⟩
    · exact ⟨le_rfl, .inr ⟨rfl, erase_eq_nil gen⟩,
        .inr ⟨rfl, fun u hu hopen => ⟨u, hu, rfl, hopen⟩⟩⟩
  | hold hgen =>
    refine establishes_single hd (evolves_of_agrees (Agrees.refl d)) ?_ ?_ fun _ _ h => h
    · exact ⟨hd.generation _ hgen, fun _ => hok⟩
    · intro u
      cases u <;> exact trivial
  | fetch hgen hrows hne hpack hseen hstage =>
    subst hgen
    refine establishes_single hd (evolves_of_agrees (Agrees.refl d)) ?_ (distinct_run _ _ _)
      fun _ _ h => h
    refine runOk_fetched hd ht hrows hne hpack hseen ?_
    rcases hstage with rfl | ⟨rfl, -⟩ <;> simp
  | mark locked b =>
    have hkeeps : KeepsRow fun u => { u with skippedInPrompt := true } := fun _ => ⟨rfl, rfl⟩
    have he : Evolves d (markOutsidePackSkipped b d) :=
      evolves_update hkeeps rfl rfl rfl rfl rfl rfl
    refine establishes_single (roundData_update hd hseq hkeeps rfl rfl rfl rfl rfl rfl) he
      ?_ (distinct_run _ _ _) fun _ _ h => h
    exact RunOk.stage (RunOk.evolves ht he) (by simp)
  | move hstage hchecked =>
    refine establishes_single hd (evolves_of_agrees (Agrees.refl d)) ?_ (distinct_run _ _ _)
      fun _ _ h => h
    exact RunOk.stage ht hchecked
  | fail locked b status =>
    have ha := agrees_release locked (markPackFailed b status d)
    have hkeeps : KeepsRow fun u => { u with status := status } := fun _ => ⟨rfl, rfl⟩
    refine establishes_none
      (roundData_update hd hseq hkeeps ha.users ha.assistants ha.rounds ha.generation ha.nextGen
        ha.uncommitted)
      (evolves_update hkeeps ha.users ha.assistants ha.rounds ha.generation ha.nextGen
        ha.uncommitted) fun gen _ hmem => ?_
    rwa [ha.uncommitted]
  | persist hp =>
    refine establishes_none (roundData_persist hd ht (hok hp.messages_ne) hp) (evolves_persist hp)
      fun gen _ hmem => ?_
    rwa [hp.uncommitted]

theorem roundData_initial {d : ChatData} (h : chatSystem.initial d) : RoundData d := by
  obtain ⟨husers, hassistants, hrounds, huncommitted, hgen⟩ := h
  refine ⟨⟨?_, ?_, ?_⟩, ⟨?_, ?_⟩, ?_, ?_, ?_, ?_, ?_, ?_⟩ <;>
    simp [husers, hassistants, hrounds, huncommitted, hgen]

/-- While rounds are kept apart, every user row belongs to the pack of at most one committed round,
and every generation has at most one. -/
theorem one_round (w : World ChatData ChatTask)
    (h : chatSystem.machine.ReachableUnder (TaskSystem.guard RoundsApart) w) :
    OneRound w.data.rounds := by
  refine (TaskSystem.reachableUnder_holds (G := RoundData) (T := TaskOk) (R := Distinct)
    (fun _ _ => Distinct.symm) (fun d => roundData_initial) ?_ ?_ h).data.oneRound
  · intro d i ts _ hts
    have hlight := chatAccept_light hts
    refine ⟨fun t ht => taskOk_of_light (hlight t ht), ?_, ?_⟩
    · exact List.Pairwise.imp_of_mem (fun _ hb _ => distinct_of_light (hlight _ hb))
        (List.pairwise_of_forall (R := fun _ _ => True) fun _ _ => trivial)
    · intro u t ht
      exact distinct_of_light (hlight t ht)
  · intro d t i d' ts hd ht hok hadvance
    exact step_establishes hd ht hok (chatAdvance_step hadvance)

/-- A message is answered, and then a second one. -/
def twiceAnsweredChat : World ChatData ChatTask :=
  chatSystem.machine.after emptyChat
    (checkedRun ++ .task 0 (.persist 1) :: checkedRun ++ [.task 0 (.persist 2)])

theorem one_round_twiceAnswered :
    twiceAnsweredChat.data.rounds = [⟨0, 0, [0]⟩, ⟨1, 1, [1]⟩] ∧
      OneRound twiceAnsweredChat.data.rounds :=
  ⟨by decide,
    one_round twiceAnsweredChat
      (Machine.reachableUnder_after emptyChat_start (by decide) (by decide))⟩

/-- A second message makes the first run schedule a recovery; the recovery and the debounced run of
the second message then read one window, call the model and persist, one after the other. -/
def doublyAnsweredChat : World ChatData ChatTask :=
  chatSystem.machine.after emptyChat
    (.request .send :: List.replicate 6 (.task 0 .next) ++
      [.request .send, .task 1 .next, .task 1 .next] ++ List.replicate 10 (.task 0 .next) ++
      [.task 0 (.answer true), .task 0 (.answer true), .task 0 .next, .task 0 .next,
        .task 0 (.persist 1), .task 0 (.persist 1)])

/-- Both rounds answer both rows, for one generation. -/
theorem rows_answered_twice :
    chatSystem.machine.Reachable doublyAnsweredChat ∧
      doublyAnsweredChat.data.rounds = [⟨0, 1, [0, 1]⟩, ⟨1, 1, [0, 1]⟩] ∧
      ¬ OneRound doublyAnsweredChat.data.rounds := by
  have hrounds : doublyAnsweredChat.data.rounds = [⟨0, 1, [0, 1]⟩, ⟨1, 1, [0, 1]⟩] := by
    decide
  refine ⟨Machine.reachable_after emptyChat_start (by decide), hrounds, fun h => ?_⟩
  have hgens := h.gens
  rw [hrounds] at hgens
  exact absurd hgens (by decide)

end CompanionBackend.ChatRounds
