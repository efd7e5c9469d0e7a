import CompanionBackend.TurnService

/-!
# Privacy of the recorded turns

Whatever the provider sends, playback proves and the gates decide, a row holds a
text only after its side has passed, and it never goes back on a hit. The writes
of one call follow each other, since each locks the row of the call; several
services may write it, one after each reconnect.
-/
namespace CompanionBackend.TurnPrivacy

open ProviderEvents TurnRecords EventReordering TurnService Runs
open VoiceModels (TurnStatus TextEvidence)

/-- The text of a side may be stored. -/
def Storable (row : VoiceCallTurn) (dir : Direction) : Prop :=
  row.crisisStatus dir = .passed ∧ row.contentSafetyStatus dir ≠ .pending

/-- What a row may hold. -/
structure TextsPrivate (row : VoiceCallTurn) : Prop where
  user : row.userTextFinal ≠ none → Storable row .user
  assistant : row.assistantTextGenerated ≠ none ∨ row.assistantTextEffective ≠ none →
    Storable row .assistant
  memory : row.memoryStatus = .pending → row.passedAll = true ∧
    ∃ u a, row.userTextFinal = some u ∧ u ≠ [] ∧ row.assistantTextEffective = some a ∧ a ≠ []

/-- A committed row; its evidence is that of a text which may be stored. -/
structure RowPrivate (row : VoiceCallTurn) : Prop extends TextsPrivate row where
  evidence : ¬ Storable row .assistant → row.effectiveTextEvidence = .none

/-- What later writes leave as it is. -/
structure RowPersists (row row' : VoiceCallTurn) : Prop where
  index : row'.turnIndex = row.turnIndex
  question : row'.questionId = row.questionId
  crisis : (row.crisisStatus .assistant).hit = true ∨ row.crisisStatus .assistant = .isolationFailed →
    row'.crisisStatus .assistant = row.crisisStatus .assistant
  safety : row.contentSafetyStatus .assistant = .matched →
    row'.contentSafetyStatus .assistant = .matched
  status : row.turnStatus ≠ .collecting → row'.turnStatus = row.turnStatus

def Persists (turns turns' : List VoiceCallTurn) : Prop :=
  ∀ row ∈ turns, ∃ row' ∈ turns', RowPersists row row'

/-- The rows of a call: their indices are contiguous from one, and each question has one row. -/
structure TurnsPrivate (turns : List VoiceCallTurn) : Prop where
  indices : turns.map (·.turnIndex) = List.range' 1 turns.length
  questions : (turns.map (·.questionId)).Nodup
  rows : ∀ row ∈ turns, RowPrivate row

theorem RowPersists.refl (row : VoiceCallTurn) : RowPersists row row :=
  ⟨rfl, rfl, fun _ => rfl, id, fun _ => rfl⟩

theorem RowPersists.trans {r₁ r₂ r₃ : VoiceCallTurn} (h : RowPersists r₁ r₂)
    (h' : RowPersists r₂ r₃) : RowPersists r₁ r₃ := by
  refine ⟨h'.index.trans h.index, h'.question.trans h.question, fun hbad => ?_,
    fun hsafety => h'.safety (h.safety hsafety), fun hstatus => ?_⟩
  · have hkept := h.crisis hbad
    rw [← hkept] at hbad
    exact (h'.crisis hbad).trans hkept
  · have hkept := h.status hstatus
    rw [← hkept] at hstatus
    exact (h'.status hstatus).trans hkept

theorem Persists.refl (turns : List VoiceCallTurn) : Persists turns turns :=
  fun row hrow => ⟨row, hrow, .refl row⟩

theorem Persists.trans {t₁ t₂ t₃ : List VoiceCallTurn} (h : Persists t₁ t₂) (h' : Persists t₂ t₃) :
    Persists t₁ t₃ := by
  intro row hrow
  obtain ⟨row', hrow', hpersists⟩ := h row hrow
  obtain ⟨row'', hrow'', hpersists'⟩ := h' row' hrow'
  exact ⟨row'', hrow'', hpersists.trans hpersists'⟩

/-- A transaction keeps the rows private and what persists of them. -/
def Keeps (db db' : TurnDb) : Prop :=
  TurnsPrivate db.turns → TurnsPrivate db'.turns ∧ Persists db.turns db'.turns

theorem Keeps.refl (db : TurnDb) : Keeps db db := fun h => ⟨h, .refl _⟩

theorem Keeps.trans {d₁ d₂ d₃ : TurnDb} (h : Keeps d₁ d₂) (h' : Keeps d₂ d₃) : Keeps d₁ d₃ := by
  intro hd
  obtain ⟨hd₂, hp⟩ := h hd
  obtain ⟨hd₃, hp'⟩ := h' hd₂
  exact ⟨hd₃, hp.trans hp'⟩

/-! ### Replacing a row -/

/-- Replacing the row of a question by one that persists it. -/
theorem keeps_putRow {db : TurnDb} {row row' : VoiceCallTurn} (hrow : row ∈ db.turns)
    (hpersists : RowPersists row row') (hprivate : RowPrivate row → RowPrivate row') :
    Keeps db (db.putRow row') := by
  intro hd
  have hunique : ∀ r ∈ db.turns, r.questionId = row'.questionId → r = row := by
    intro r hr hquestion
    exact List.inj_on_of_nodup_map hd.questions hr hrow (hquestion.trans hpersists.question)
  have hkept : ∀ r ∈ db.turns, RowPersists r (if r.questionId = row'.questionId then row' else r) := by
    intro r hr
    split_ifs with hquestion
    · rw [hunique r hr hquestion]
      exact hpersists
    · exact .refl r
  refine ⟨⟨?_, ?_, ?_⟩, fun r hr => ⟨_, List.mem_map_of_mem hr, hkept r hr⟩⟩
  · rw [TurnDb.putRow, List.length_map, ← hd.indices, List.map_map]
    exact List.map_congr_left fun r hr => (hkept r hr).index
  · rw [TurnDb.putRow, List.map_map]
    have hsame : db.turns.map ((·.questionId) ∘ fun r =>
        if r.questionId = row'.questionId then row' else r) = db.turns.map (·.questionId) :=
      List.map_congr_left fun r hr => (hkept r hr).question
    rw [hsame]
    exact hd.questions
  · intro r hr
    obtain ⟨r₀, hr₀, rfl⟩ := List.mem_map.mp hr
    split_ifs with hquestion
    · exact hprivate (hd.rows row hrow)
    · exact hd.rows r₀ hr₀

theorem mem_putRow {db : TurnDb} {row row' : VoiceCallTurn} (hrow : row ∈ db.turns)
    (hquestion : row'.questionId = row.questionId) : row' ∈ (db.putRow row').turns := by
  refine List.mem_map.mpr ⟨row, hrow, ?_⟩
  rw [if_pos hquestion.symm]

/-- The later of two replacements counts. -/
theorem putRow_putRow (db : TurnDb) {row row' : VoiceCallTurn}
    (hquestion : row'.questionId = row.questionId) :
    (db.putRow row).putRow row' = db.putRow row' := by
  unfold TurnDb.putRow
  congr 1
  rw [List.map_map]
  refine List.map_congr_left fun r _ => ?_
  by_cases hr : r.questionId = row.questionId <;> simp [hr, hquestion]

/-! ### The row of a question -/

theorem foldr_max_range' (n a : ℕ) : (List.range' 1 n).foldr max a = max n a := by
  induction n generalizing a with
  | zero => simp
  | succ n ih =>
    rw [List.range'_concat, List.foldr_append, ih]
    simp only [List.foldr_cons, List.foldr_nil]
    omega

theorem rowPrivate_new (index : ℕ) (draft : TurnDraft) : RowPrivate (.new index draft) := by
  refine ⟨⟨?_, ?_, ?_⟩, fun _ => rfl⟩ <;> simp [VoiceCallTurn.new]

/-- A new row takes the next index. -/
theorem keeps_append {db : TurnDb} {draft : TurnDraft} (hnone : db.row draft.questionId = none) :
    Keeps db { db with turns := db.turns ++ [.new (db.lastIndex + 1) draft] } := by
  intro hd
  have hlast : db.lastIndex = db.turns.length := by
    rw [TurnDb.lastIndex, hd.indices, foldr_max_range', Nat.max_zero]
  refine ⟨⟨?_, ?_, ?_⟩, fun r hr => ⟨r, List.mem_append_left _ hr, .refl r⟩⟩
  · simp only [List.map_append, List.map_cons, List.map_nil, List.length_append,
      List.length_singleton, hd.indices, hlast, VoiceCallTurn.new]
    rw [List.range'_concat, Nat.one_mul, Nat.add_comm 1]
  · simp only [List.map_append, List.map_cons, List.map_nil]
    refine List.nodup_append.mpr ⟨hd.questions, List.nodup_singleton _, ?_⟩
    intro q hq q' hq'
    obtain ⟨r, hr, rfl⟩ := List.mem_map.mp hq
    obtain rfl := List.mem_singleton.mp hq'
    have hne := List.find?_eq_none.mp hnone r hr
    change ¬ r.questionId = draft.questionId
    exact fun heq => hne (decide_eq_true heq)
  · intro r hr
    rcases List.mem_append.mp hr with hr | hr
    · exact hd.rows r hr
    · obtain rfl := List.mem_singleton.mp hr
      exact rowPrivate_new _ _

/-- `_turn` finds or makes the row. -/
theorem turn_keeps {db db' : TurnDb} {draft : TurnDraft} {row : VoiceCallTurn}
    (h : turn db draft = .ok (db', row)) : Keeps db db' ∧ row ∈ db'.turns := by
  unfold turn at h
  split_ifs at h
  split at h
  · next hnone =>
    simp only [Except.ok.injEq, Prod.mk.injEq] at h
    obtain ⟨rfl, rfl⟩ := h
    exact ⟨keeps_append hnone, List.mem_append_right _ (List.mem_singleton_self _)⟩
  · next row' hfound =>
    have hrow : row' ∈ db.turns := List.mem_of_find?_eq_some hfound
    split at h
    · simp only [Except.ok.injEq, Prod.mk.injEq] at h
      obtain ⟨rfl, rfl⟩ := h
      exact ⟨.refl db, hrow⟩
    · split_ifs at h
      simp only [Except.ok.injEq, Prod.mk.injEq] at h
      obtain ⟨rfl, rfl⟩ := h
      refine ⟨keeps_putRow hrow ⟨rfl, rfl, fun _ => rfl, id, fun _ => rfl⟩ fun hprivate => ?_,
        mem_putRow hrow rfl⟩
      exact ⟨⟨hprivate.user, hprivate.assistant, hprivate.memory⟩, hprivate.evidence⟩

/-! ### Writing one side -/

theorem mergeSafety_ne_pending {previous decided : SafetyStatus} (h : decided ≠ .pending) :
    mergeSafety previous decided ≠ .pending := by
  unfold mergeSafety
  split_ifs <;> simp [h]

theorem storable_assessed {row : VoiceCallTurn} {dir : Direction} {d : GateDecision} {isolated : Bool}
    (hpermits : d.permitsText = true) : Storable (row.assessed dir d isolated) dir := by
  simp only [GateDecision.permitsText, Bool.and_eq_true, decide_eq_true_eq, bne_iff_ne] at hpermits
  constructor
  · simp [VoiceCallTurn.assessed, hpermits.1, CrisisStatus.hit]
  · simpa [VoiceCallTurn.assessed] using mergeSafety_ne_pending hpermits.2

/-- An assessment of the user's side, which leaves a text there only when it has passed. -/
theorem store_user {row row' : VoiceCallTurn} {draft draft' : TurnDraft} {text : Text}
    {d : GateDecision} {isolated permits allowed : Bool} (hopen : row.settled .user = false)
    (h : store (row.assessed .user d isolated) draft .user text d permits = (draft', row', allowed)) :
    RowPersists row row' ∧ (RowPrivate row → RowPrivate row') := by
  simp only [VoiceCallTurn.settled, Bool.or_eq_false_iff, bne_eq_false_iff_eq,
    Option.isSome_eq_false_iff, Option.isNone_iff_eq_none] at hopen
  obtain ⟨hcollecting, hnone, -⟩ := hopen
  have hside : ∀ t : Option Text, (t ≠ none → d.permitsText = true) →
      RowPersists row { row.assessed .user d isolated with userTextFinal := t } ∧
        (RowPrivate row → RowPrivate { row.assessed .user d isolated with userTextFinal := t }) := by
    intro t ht
    refine ⟨⟨rfl, rfl, fun _ => ?_, fun hsafety => ?_, fun _ => rfl⟩, fun hrow => ?_⟩
    · simp [VoiceCallTurn.assessed]
    · simpa [VoiceCallTurn.assessed] using hsafety
    have hassistant : Storable { row.assessed .user d isolated with userTextFinal := t } .assistant ↔
        Storable row .assistant := by
      simp [Storable, VoiceCallTurn.assessed]
    refine ⟨⟨fun hsome => ?_, fun hsome => ?_, fun hmemory => ?_⟩, fun hbad => ?_⟩
    · change Storable (row.assessed .user d isolated) .user
      exact storable_assessed (ht hsome)
    · exact hassistant.mpr (hrow.assistant hsome)
    · simp [VoiceCallTurn.assessed] at hmemory
    · exact hrow.evidence fun hok => hbad (hassistant.mpr hok)
  unfold store at h
  simp only at h
  split_ifs at h with hhit hpermits
  · simp only [Prod.mk.injEq] at h
    rw [← h.2.1]
    exact hside none (by simp)
  · simp only [Prod.mk.injEq] at h
    rw [← h.2.1]
    exact hside (some text) fun _ => hpermits
  · simp only [Prod.mk.injEq] at h
    rw [← h.2.1]
    have hkept := hside none (by simp)
    rwa [show ({ row.assessed .user d isolated with userTextFinal := none } : VoiceCallTurn) =
      row.assessed .user d isolated by rw [← hnone]; rfl] at hkept

/-- An assessment of the assistant's side. Only what is proved afterwards decides its evidence. -/
theorem store_assistant {row row' : VoiceCallTurn} {draft draft' : TurnDraft} {text : Text}
    {d : GateDecision} {isolated permits allowed : Bool} (hopen : row.settled .assistant = false)
    (h : store (row.assessed .assistant d isolated) draft .assistant text d permits =
      (draft', row', allowed)) :
    RowPersists row row' ∧ (TextsPrivate row → TextsPrivate row') ∧ row'.turnStatus = .collecting ∧
      (allowed = true → Storable row' .assistant) := by
  simp only [VoiceCallTurn.settled, Bool.or_eq_false_iff, bne_eq_false_iff_eq,
    decide_eq_false_iff_not] at hopen
  obtain ⟨hcollecting, hfailed, hhit⟩ := hopen
  have hside : ∀ g e : Option Text, (g ≠ none ∨ e ≠ none → d.permitsText = true) →
      let row' := { row.assessed .assistant d isolated with
        assistantTextGenerated := g, assistantTextEffective := e }
      RowPersists row row' ∧ (TextsPrivate row → TextsPrivate row') := by
    intro g e hge
    refine ⟨⟨rfl, rfl, fun hbad => ?_, fun hsafety => ?_, fun _ => rfl⟩, fun hrow => ?_⟩
    · rcases hbad with hbad | hbad
      · rw [hbad] at hhit
        cases hhit
      · exact absurd hbad hfailed
    · simp [VoiceCallTurn.assessed, mergeSafety, hsafety]
    · refine ⟨fun hsome => ?_, fun hsome => ?_, fun hmemory => ?_⟩
      · simpa [Storable, VoiceCallTurn.assessed] using hrow.user hsome
      · change Storable (row.assessed .assistant d isolated) .assistant
        exact storable_assessed (hge hsome)
      · simp [VoiceCallTurn.assessed] at hmemory
  unfold store at h
  by_cases hbad : (d.crisis.hit || !d.permitsText) = true
  · simp only [hbad, if_true, Prod.mk.injEq] at h
    rw [← h.2.1, ← h.2.2]
    obtain ⟨hpersists, hprivate⟩ := hside none none (by simp)
    exact ⟨hpersists, hprivate, hcollecting, by simp⟩
  · simp only [hbad, Bool.false_eq_true, if_false, Prod.mk.injEq] at h
    rw [← h.2.1]
    have hpermits : d.permitsText = true := by
      by_contra hnot
      exact hbad (by simp [hnot])
    obtain ⟨hpersists, hprivate⟩ :=
      hside (if permits then nonempty draft.generated else none) (nonempty text) fun _ => hpermits
    refine ⟨hpersists, hprivate, hcollecting, fun _ => ?_⟩
    change Storable (row.assessed .assistant d isolated) .assistant
    exact storable_assessed hpermits

/-- A write leaves the row of its question as it was, or as `store` makes it. -/
theorem writeText_cases {db : TurnDb} {draft : TurnDraft} {dir : Direction} {text : Text}
    {g : GateAnswers} {w : Written} (h : writeText db draft dir text g = .ok w) :
    ∃ db₁ row, turn db draft = .ok (db₁, row) ∧
      ((row.settled dir = true ∧ w = ⟨db₁, draft, row, false⟩) ∨
        (row.settled dir = false ∧ w.db = db₁.putRow w.row ∧
          ∃ d, store (row.assessed dir d g.isolated) draft dir text d g.permitsGenerated =
            (w.draft, w.row, w.allowed))) := by
  obtain ⟨⟨db₁, row⟩, hturn, hrest⟩ := bind_eq_ok.mp h
  refine ⟨db₁, row, hturn, ?_⟩
  by_cases hsettled : row.settled dir = true
  · simp only [hsettled, if_true, Except.ok.injEq] at hrest
    exact .inl ⟨hsettled, hrest.symm⟩
  · simp only [hsettled, Bool.false_eq_true, if_false] at hrest
    split_ifs at hrest
    simp only [Except.ok.injEq] at hrest
    subst hrest
    exact .inr ⟨by simpa using hsettled, rfl, _, rfl⟩

/-- What a write of the user's text leaves. -/
theorem writeText_user {db : TurnDb} {draft : TurnDraft} {text : Text} {g : GateAnswers}
    {w : Written} (h : writeText db draft .user text g = .ok w) :
    Keeps db w.db ∧ w.row ∈ w.db.turns := by
  obtain ⟨db₁, row, hturn, ⟨-, rfl⟩ | ⟨hopen, hdb, d, hstore⟩⟩ := writeText_cases h
  · exact turn_keeps hturn
  · obtain ⟨hkeeps, hrow⟩ := turn_keeps hturn
    obtain ⟨hpersists, hprivate⟩ := store_user hopen hstore
    rw [hdb]
    exact ⟨hkeeps.trans (keeps_putRow hrow hpersists hprivate), mem_putRow hrow hpersists.question⟩

/-- A final transcript. -/
theorem writeFinal_keeps {db db' : TurnDb} {d : TurnDraft} {text : Text}
    {confidence : Option Confidence} {g : GateAnswers}
    (h : writeFinal db d text confidence g = .ok db') : Keeps db db' := by
  obtain ⟨w, hwritten, hrest⟩ := bind_eq_ok.mp h
  obtain ⟨hkeeps, hrow⟩ := writeText_user hwritten
  cases hc : checkedConfidence confidence with
  | error err =>
    rw [hc] at hrest
    cases hrest
  | ok c =>
    rw [hc] at hrest
    simp only [Except.map, Except.ok.injEq] at hrest
    subst hrest
    split_ifs
    · refine hkeeps.trans (keeps_putRow hrow ⟨rfl, rfl, fun _ => rfl, id, fun _ => rfl⟩ fun hp => ?_)
      exact ⟨⟨hp.user, hp.assistant, hp.memory⟩, hp.evidence⟩
    · exact hkeeps

/-! ### What playback has proved -/

theorem proved_private {row : VoiceCallTurn} {result : EffectiveText} {allowed : Bool}
    (hrow : TextsPrivate row) (hallowed : allowed = true → Storable row .assistant) :
    RowPrivate (row.proved result allowed) := by
  refine ⟨⟨hrow.user, hrow.assistant, hrow.memory⟩, fun hbad => ?_⟩
  have hdenied : allowed = false := by
    by_contra hok
    exact hbad (hallowed (by simpa using hok))
  simp [VoiceCallTurn.proved, hdenied]

theorem exists_of_getD {t : Option Text} (h : (t.getD []).isEmpty = false) :
    ∃ u, t = some u ∧ u ≠ [] := by
  cases t with
  | none => simp at h
  | some u => exact ⟨u, rfl, by simpa using h⟩

theorem ended_private {row : VoiceCallTurn} (result : EffectiveText) (hrow : RowPrivate row) :
    RowPrivate (row.ended result) := by
  refine ⟨⟨hrow.user, hrow.assistant, fun hmemory => ?_⟩, hrow.evidence⟩
  simp only [VoiceCallTurn.ended] at hmemory
  split_ifs at hmemory with htexts
  · simp only [Bool.and_eq_true, Bool.not_eq_true'] at htexts
    obtain ⟨⟨huser, hassistant⟩, hpassed⟩ := htexts
    obtain ⟨u, hu, hu'⟩ := exists_of_getD huser
    obtain ⟨a, ha, ha'⟩ := exists_of_getD hassistant
    exact ⟨hpassed, u, a, hu, hu', ha, ha'⟩
  · exact hrow.memory hmemory

theorem eligible_memory {row : VoiceCallTurn} (h : eligibleTurn row = true) :
    row.passedAll = true ∧
      ∃ u a, row.userTextFinal = some u ∧ u ≠ [] ∧ row.assistantTextEffective = some a ∧ a ≠ [] := by
  simp only [eligibleTurn, Bool.and_eq_true, Bool.not_eq_true'] at h
  obtain ⟨⟨⟨⟨⟨⟨-, hcompact⟩, -⟩, hassistant⟩, -⟩, -⟩, hpassed⟩ := h
  have huser : (row.userTextFinal.getD []).isEmpty = false := by
    by_contra hempty
    simp only [Bool.not_eq_false, List.isEmpty_iff] at hempty
    simp [hempty, compact] at hcompact
  obtain ⟨u, hu, hu'⟩ := exists_of_getD huser
  obtain ⟨a, ha, ha'⟩ := exists_of_getD hassistant
  exact ⟨hpassed, u, a, hu, hu', ha, ha'⟩

/-- The job of a turn decides its memory status alone. -/
theorem stageJob_spec {db db' : TurnDb} {row row' : VoiceCallTurn} {a : JobAnswer}
    (h : stageJob db row a = .ok (db', row')) :
    db'.turns = db.turns ∧ (∃ m, row' = { row with memoryStatus := m }) ∧
      (RowPrivate row → RowPrivate row') := by
  have hsame : Except.ok (ε := TurnError) (db, row) = .ok (db', row') →
      db'.turns = db.turns ∧ (∃ m, row' = { row with memoryStatus := m }) ∧
        (RowPrivate row → RowPrivate row') := by
    intro heq
    simp only [Except.ok.injEq, Prod.mk.injEq] at heq
    obtain ⟨rfl, rfl⟩ := heq
    exact ⟨rfl, ⟨row.memoryStatus, rfl⟩, id⟩
  cases a with
  | failed => cases h
  | locked => exact hsame h
  | free =>
    unfold stageJob at h
    split_ifs at h with hjob
    · exact hsame h
    all_goals
      simp only [Except.ok.injEq, Prod.mk.injEq] at h
      obtain ⟨rfl, rfl⟩ := h
      refine ⟨rfl, ⟨_, rfl⟩, fun hrow => ⟨⟨hrow.user, hrow.assistant, fun hmemory => ?_⟩, hrow.evidence⟩⟩
    · cases hmemory
    · next heligible => exact eligible_memory heligible
    · cases hmemory

/-- What a write of a reply's text leaves: its row may have been replaced once, and is to be replaced
again by what playback has proved. -/
structure ReplyWritten (db db₁ : TurnDb) (row : VoiceCallTurn) (w : Written) : Prop where
  keeps : Keeps db db₁
  found : row ∈ db₁.turns
  rows : w.db = db₁ ∧ w.row = row ∨ w.db = db₁.putRow w.row ∧ w.row.turnStatus = .collecting
  persists : RowPersists row w.row
  texts : TextsPrivate row → TextsPrivate w.row
  allowed : w.allowed = true → Storable w.row .assistant

theorem writeText_assistant {db : TurnDb} {draft : TurnDraft} {text : Text} {g : GateAnswers}
    {w : Written} (h : writeText db draft .assistant text g = .ok w) :
    ∃ db₁ row, ReplyWritten db db₁ row w := by
  obtain ⟨db₁, row, hturn, hcase⟩ := writeText_cases h
  obtain ⟨hkeeps, hrow⟩ := turn_keeps hturn
  refine ⟨db₁, row, ?_⟩
  rcases hcase with ⟨-, rfl⟩ | ⟨hopen, hdb, d, hstore⟩
  · exact ⟨hkeeps, hrow, .inl ⟨rfl, rfl⟩, .refl row, id, by simp⟩
  · obtain ⟨hpersists, htexts, hcollecting, hallowed⟩ := store_assistant hopen hstore
    exact ⟨hkeeps, hrow, .inr ⟨hdb, hcollecting⟩, hpersists, htexts, hallowed⟩

/-- Replacing the row of the reply after its text has been written. -/
theorem ReplyWritten.keeps_put {db db₁ : TurnDb} {row row' : VoiceCallTurn} {w : Written}
    (h : ReplyWritten db db₁ row w) (hpersists : RowPersists w.row row')
    (hprivate : RowPrivate row → RowPrivate row') : Keeps db (w.db.putRow row') := by
  have hput : w.db.putRow row' = db₁.putRow row' := by
    rcases h.rows with ⟨hdb, -⟩ | ⟨hdb, -⟩
    · rw [hdb]
    · rw [hdb, putRow_putRow db₁ hpersists.question]
  rw [hput]
  exact h.keeps.trans (keeps_putRow h.found (h.persists.trans hpersists) hprivate)

/-- The row of a reply that has ended, with the job of its turn. -/
theorem keeps_ended {db db₁ db' : TurnDb} {row : VoiceCallTurn} {w : Written}
    {result : EffectiveText} {job : JobAnswer} (h : ReplyWritten db db₁ row w)
    (hcollecting : w.row.turnStatus = .collecting)
    (hjob : ((stageJob w.db ((w.row.proved result w.allowed).ended result) job).map
      fun (db, row) => db.putRow row) = .ok db') : Keeps db db' := by
  cases hstaged : stageJob w.db ((w.row.proved result w.allowed).ended result) job with
  | error err =>
    rw [hstaged] at hjob
    cases hjob
  | ok staged =>
    obtain ⟨db₂, row'⟩ := staged
    obtain ⟨hturns, ⟨m, rfl⟩, hprivate⟩ := stageJob_spec hstaged
    rw [hstaged] at hjob
    simp only [Except.map, Except.ok.injEq] at hjob
    subst hjob
    -- The list of jobs plays no part.
    have hsame : ∀ r, (db₂.putRow r).turns = (w.db.putRow r).turns := fun r => by
      simp only [TurnDb.putRow, hturns]
    unfold Keeps
    rw [hsame]
    exact h.keeps_put ⟨rfl, rfl, fun _ => rfl, id, fun hstatus => absurd hcollecting hstatus⟩
      fun hp => hprivate (ended_private result (proved_private (h.texts hp.toTextsPrivate) h.allowed))

/-- A playback result. -/
theorem stageEffective_keeps {hasJobs : Bool} {db db' : TurnDb} {draft : TurnDraft}
    {result : EffectiveText} {g : GateAnswers} {job : JobAnswer}
    (h : (stageEffective hasJobs db draft result g job).2 = .ok db') : Keeps db db' := by
  unfold stageEffective at h
  split at h
  · cases h
  next w hwritten =>
  obtain ⟨db₁, row, hw⟩ := writeText_assistant hwritten
  have hprivate : RowPrivate row → RowPrivate (w.row.proved result w.allowed) :=
    fun hp => proved_private (hw.texts hp.toTextsPrivate) hw.allowed
  split_ifs at h with hstatus hfinished hjobs
  · simp only [Except.ok.injEq] at h
    subst h
    rcases hw.rows with ⟨hdb, -⟩ | ⟨-, hcollecting⟩
    · rw [hdb]
      exact hw.keeps
    · exact absurd hcollecting hstatus
  · exact keeps_ended hw (by simpa using hstatus) h
  · simp only [Except.ok.injEq] at h
    subst h
    exact hw.keeps_put ⟨rfl, rfl, fun _ => rfl, id, fun h => absurd (by simpa using hstatus) h⟩
      fun hp => ended_private result (hprivate hp)
  · simp only [Except.ok.injEq] at h
    subst h
    exact hw.keeps_put ⟨rfl, rfl, fun _ => rfl, id, fun _ => rfl⟩ hprivate

/-! ### What the service does -/

theorem committed_keeps {db : TurnDb} {tx : Except TurnError TurnDb} (a : CommitAnswer)
    (h : ∀ db', tx = .ok db' → Keeps db db') : Keeps db (committed db tx a) := by
  unfold committed
  split
  · next db' =>
    split_ifs
    · exact h db' rfl
    · exact .refl db
  · exact .refl db

theorem recordEvent_keeps (s : TurnState) (d : TurnDraft) (e : ProviderEvent) (a : EventAnswers)
    (cancelled : Bool) : Keeps s.db (recordEvent s d e a cancelled).1.db := by
  unfold recordEvent
  split
  · unfold asrFinal
    by_cases hseen : d.finalSeen = true
    · rw [if_pos hseen]
      exact .refl _
    · rw [if_neg hseen]
      split
      · split_ifs
        · exact .refl _
        · exact committed_keeps _ fun _ h => writeFinal_keeps h
        · exact committed_keeps _ fun _ h => writeFinal_keeps h
      · exact .refl _
  · unfold chatText
    split
    · split_ifs <;> exact .refl _
    · exact .refl _
  · exact .refl _
  · exact .refl _
  · exact .refl _

/-- Every event. -/
theorem handle_keeps (a : EventAnswers) (cancelled : Bool) (s : TurnState) (e : ProviderEvent) :
    Keeps s.db (handle a cancelled s e).1.db := by
  unfold handle
  split_ifs
  · exact .refl _
  · exact .refl _
  · exact .refl _
  · unfold handleQuestion
    split
    · exact .refl _
    · split_ifs
      · exact .refl _
      · split
        · exact .refl _
        · next service _ _ _ service' d' _ =>
          exact recordEvent_keeps { s with service := service' } d' e a cancelled

/-- Every playback result. -/
theorem applyEffective_keeps (s : TurnState) (reply : Ident) (result : EffectiveText)
    (a : ApplyAnswers) (cancelled : Bool) :
    Keeps s.db (applyEffective s reply result a cancelled).1.db := by
  unfold applyEffective
  by_cases hmismatched : mismatched result = true
  · rw [if_pos hmismatched]
    exact .refl _
  rw [if_neg hmismatched]
  by_cases hfrozen : s.service.frozen = true
  · rw [if_pos hfrozen]
    exact .refl _
  rw [if_neg hfrozen]
  split
  · exact .refl _
  next d _ =>
  by_cases hclosed : d.closed = true
  · rw [if_pos hclosed]
    exact .refl _
  rw [if_neg hclosed]
  split
  · exact .refl _
  · split_ifs
    · exact committed_keeps _ fun _ h => stageEffective_keeps h
    · exact committed_keeps _ fun _ h => stageEffective_keeps h

theorem flushPending_keeps {answers : Ident → ApplyAnswers} {service : VoiceTurnService}
    {db db' : TurnDb} {pending : List (Ident × EffectiveText)}
    (h : (flushPending answers service db pending).2 = .ok db') : Keeps db db' := by
  induction pending generalizing service db with
  | nil =>
    simp only [flushPending, Except.ok.injEq] at h
    subst h
    exact .refl _
  | cons p rest ih =>
    obtain ⟨reply, result⟩ := p
    simp only [flushPending] at h
    split at h
    · cases h
    · split at h
      · cases h
      · next hstaged => exact (stageEffective_keeps hstaged).trans (ih h)

theorem abort_keeps {db : TurnDb} {row : VoiceCallTurn} (hrow : row ∈ db.turns) :
    Keeps db (abort db row) := by
  unfold abort
  split_ifs with hcollecting
  · refine keeps_putRow hrow ⟨rfl, rfl, fun _ => rfl, id, fun h => absurd hcollecting h⟩ fun hp => ?_
    exact ⟨⟨hp.user, hp.assistant, fun hmemory => by cases hmemory⟩, hp.evidence⟩
  · exact .refl _

theorem flushDrafts_keeps {answers : Ident → GateAnswers} {db db' : TurnDb}
    {drafts : List TurnDraft} (h : flushDrafts answers db drafts = .ok db') : Keeps db db' := by
  induction drafts generalizing db with
  | nil =>
    simp only [flushDrafts, Except.ok.injEq] at h
    subst h
    exact .refl _
  | cons d rest ih =>
    simp only [flushDrafts] at h
    split_ifs at h
    · exact ih h
    · obtain ⟨db₁, hwritten, hrest⟩ := bind_eq_ok.mp h
      obtain ⟨⟨db₂, row⟩, hturn, hflush⟩ := bind_eq_ok.mp hrest
      obtain ⟨hkeeps, hrow⟩ := turn_keeps hturn
      have hfirst : Keeps db db₁ := by
        split at hwritten
        · simp only [Except.ok.injEq] at hwritten
          subst hwritten
          exact .refl _
        · next text _ =>
          cases hw : writeText db d .user text (answers d.questionId) with
          | error err =>
            rw [hw] at hwritten
            cases hwritten
          | ok w =>
            rw [hw] at hwritten
            simp only [Except.map, Except.ok.injEq] at hwritten
            subst hwritten
            exact (writeText_user hw).1
      exact (hfirst.trans hkeeps).trans ((abort_keeps hrow).trans (ih hflush))

/-- The end of the call. -/
theorem finalFlush_keeps (s : TurnState) (effective : Ident → ApplyAnswers)
    (final : Ident → GateAnswers) (commit : CommitAnswer) :
    Keeps s.db (finalFlush s effective final commit).1.db := by
  unfold finalFlush
  split_ifs
  · exact .refl _
  · refine committed_keeps _ fun db' h => ?_
    obtain ⟨db₁, hpending, hdrafts⟩ := bind_eq_ok.mp h
    exact (flushPending_keeps hpending).trans (flushDrafts_keeps hdrafts)

/-! ### Every run of a call -/

/-- The rows of a call and the services that have recorded it, one for each provider session. -/
structure CallTurns where
  db : TurnDb
  services : List (Buffer TurnState ProviderEvent)

/-- What happens to the turns of a call. -/
inductive CallInput
  | opened (sessionId : Ident) (hasJobs : Bool)
  | consume (k : ℕ) (e : ProviderEvent) (answers : ℕ → EventAnswers) (cancelled : ℕ → Bool)
  | applyEffective (k : ℕ) (reply : Ident) (result : EffectiveText) (a : ApplyAnswers)
    (cancelled : Bool)
  | freeze (k : ℕ)
  | finalFlush (k : ℕ) (effective : Ident → ApplyAnswers) (final : Ident → GateAnswers)
    (commit : CommitAnswer)
  /-- Others change the row of the call. -/
  | callChanged (call : Option CallState)

/-- One operation of a service, on the rows as they are. -/
def CallTurns.operate (w : CallTurns) (k : ℕ)
    (f : Buffer TurnState ProviderEvent → Buffer TurnState ProviderEvent) : Option CallTurns :=
  w.services[k]?.map fun b =>
    let b := f { b with inner := ⟨b.inner.service, w.db⟩ }
    ⟨b.inner.db, w.services.set k b⟩

/-- The turns of the call with the given identity. -/
def callTurns (callId : Ident) : Machine CallTurns CallInput where
  start w := w.db.turns = [] ∧ w.services = []
  step w
    | .opened sessionId hasJobs =>
      some { w with services := w.services ++ [.init ⟨.new callId sessionId hasJobs, w.db⟩] }
    | .consume k e answers cancelled => w.operate k fun b =>
      ((turnReorderer callId b.inner.service.sessionId answers cancelled).deliver b e.sequence e).1
    | .applyEffective k reply result a cancelled => w.operate k fun b =>
      { b with inner := (TurnService.applyEffective b.inner reply result a cancelled).1 }
    | .freeze k => w.operate k fun b =>
      { b with pending := ∅, inner := { b.inner with service := b.inner.service.freeze } }
    | .finalFlush k effective final commit => w.operate k fun b =>
      { b with inner := (TurnService.finalFlush b.inner effective final commit).1 }
    | .callChanged call => some { w with db := { w.db with call } }

theorem operate_keeps {w w' : CallTurns} {k : ℕ}
    {f : Buffer TurnState ProviderEvent → Buffer TurnState ProviderEvent}
    (hf : ∀ b, Keeps b.inner.db (f b).inner.db) (h : w.operate k f = some w') : Keeps w.db w'.db := by
  obtain ⟨b, -, rfl⟩ := Option.map_eq_some_iff.mp h
  exact hf { b with inner := ⟨b.inner.service, w.db⟩ }

theorem deliver_keeps (callId sessionId : Ident) (answers : ℕ → EventAnswers) (cancelled : ℕ → Bool)
    (b : Buffer TurnState ProviderEvent) (e : ProviderEvent) :
    Keeps b.inner.db
      ((turnReorderer callId sessionId answers cancelled).deliver b e.sequence e).1.inner.db :=
  Reorderer.deliver_invariant (I := fun s => Keeps b.inner.db s.db)
    (fun s e h => h.trans (handle_keeps (answers e.sequence) (cancelled e.sequence) s e))
    e.sequence e (.refl _)

theorem step_keeps {callId : Ident} {w w' : CallTurns} {i : CallInput}
    (h : (callTurns callId).step w i = some w') : Keeps w.db w'.db := by
  cases i with
  | opened sessionId hasJobs =>
    obtain rfl := Option.some.inj h
    exact .refl _
  | consume k e answers cancelled =>
    simp only [callTurns] at h
    exact operate_keeps (fun b => deliver_keeps callId b.inner.service.sessionId answers cancelled b e) h
  | applyEffective k reply result a cancelled =>
    simp only [callTurns] at h
    exact operate_keeps (fun b => applyEffective_keeps b.inner reply result a cancelled) h
  | freeze k =>
    simp only [callTurns] at h
    refine operate_keeps ?_ h
    intro b
    exact .refl b.inner.db
  | finalFlush k effective final commit =>
    simp only [callTurns] at h
    exact operate_keeps (fun b => finalFlush_keeps b.inner effective final commit) h
  | callChanged call =>
    obtain rfl := Option.some.inj h
    exact .refl w.db

theorem turnsPrivate_nil : TurnsPrivate [] :=
  ⟨rfl, List.nodup_nil, fun _ h => absurd h List.not_mem_nil⟩

/-- At every moment of every call the rows are private and numbered without a gap; a hit and an end
stay from then on. -/
theorem turn_privacy (callId : Ident) {w : CallTurns} (hw : (callTurns callId).Reachable w) :
    TurnsPrivate w.db.turns ∧
      ∀ is w', (callTurns callId).run w is = some w' → Persists w.db.turns w'.db.turns := by
  have hprivate : TurnsPrivate w.db.turns := by
    refine Machine.reachable_invariant (I := fun w => TurnsPrivate w.db.turns) ?_ ?_ hw
    · intro w hstart
      rw [hstart.1]
      exact turnsPrivate_nil
    · intro w i w' hp hstep
      exact (step_keeps hstep hp).1
  refine ⟨hprivate, fun is w' hrun => ?_⟩
  have hkept := Machine.run_invariant (I := fun w' => TurnsPrivate w'.db.turns ∧
    Persists w.db.turns w'.db.turns) ?_ ⟨hprivate, .refl _⟩ hrun
  · exact hkept.2
  · intro w₁ i w₂ hw₁ hstep
    obtain ⟨hprivate₂, hpersists⟩ := step_keeps hstep hw₁.1
    exact ⟨hprivate₂, hw₁.2.trans hpersists⟩

/-- One question is asked and answered, and the answer heard in full. -/
def answeredCall : List CallInput :=
  let passed : GateAnswers := ⟨some ⟨.passed, .passed⟩, true, true, true⟩
  let committed : CommitAnswer := ⟨true, false⟩
  let event (kind : EventKind) (sequence : ℕ) (reply : Option Ident) (payload : Payload) : CallInput :=
    .consume 0 ⟨kind, ['c'], ['s'], sequence, some ['q'], reply, payload, none⟩
      (fun _ => ⟨passed, committed⟩) fun _ => false
  [.opened ['s'] true, event .asrFinal 1 none (.text ['h', 'i']),
    event .chatText 2 (some ['r']) (.text ['y', 'o']), event .ttsFinished 3 (some ['r']) .absent,
    .applyEffective 0 ['r'] ⟨['y', 'o'], .full, some 40, true, false⟩ ⟨passed, .free, committed⟩ false]

theorem turn_privacy_answered :
    let w := (callTurns ['c']).after ⟨⟨some ⟨.connected, false⟩, [], []⟩, []⟩ answeredCall
    (w.db.turns.map (·.assistantTextEffective) = [some ['y', 'o']] ∧
      w.db.turns.map (·.memoryStatus) = [.pending]) ∧
    TurnsPrivate w.db.turns ∧
      ∀ is w', (callTurns ['c']).run w is = some w' → Persists w.db.turns w'.db.turns :=
  ⟨⟨by decide, by decide⟩,
    turn_privacy ['c'] (Machine.reachable_after ⟨rfl, rfl⟩ (by decide))⟩

end CompanionBackend.TurnPrivacy
