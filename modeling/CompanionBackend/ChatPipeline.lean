import Mathlib.Data.List.Sort
import CompanionBackend.TaskSystems
import CompanionBackend.TimelineSequence

/-!
# Text chat of one user

`enqueue_send`, `enqueue_resend` and the debounced and recovery runs of
`_execute_llm_bundle` as tasks: between two awaits a task is one step, and every
await lets any other task of the user run. Redis commands and database
transactions are atomic. Texts, prompts and the model's answers are outside; only
whether a call succeeds is an input. A request that fails, an exception that the
outer handler catches and a cancelled debounce task all end a task at an await.
-/
namespace CompanionBackend.ChatPipeline

open Runs TimelineSequence TaskSystems

abbrev RowId := ℕ
/-- A generation token; tokens are fresh UUIDs. -/
abbrev GenId := ℕ
abbrev RoundId := ℕ

/-- `delivery_status` of a user row. -/
inductive DeliveryStatus
  | pendingLlm | delivered | failedTimeout | failedError | failedBlocked
  deriving DecidableEq, Repr

/-- A `conversation_log` row with role `user`. -/
structure UserRow where
  id : RowId
  sortSeq : ℤ
  status : DeliveryStatus
  skippedInPrompt : Bool
  roundId : Option RoundId
  deriving DecidableEq, Repr

/-- A `conversation_log` row with role `assistant`. -/
structure AssistantRow where
  sortSeq : ℤ
  roundId : RoundId
  deriving DecidableEq, Repr

/-- A committed `_persist_bundle_success`, with the generation its run had read. -/
structure Round where
  id : RoundId
  gen : GenId
  pack : List RowId
  deriving DecidableEq, Repr

/-- The tables and keys of one user. `rounds` and `uncommitted` are histories: the committed
rounds, and the generations of sends whose row is not committed yet. -/
structure ChatData where
  users : List UserRow
  assistants : List AssistantRow
  counter : Option ℤ
  generation : Option GenId
  nextGen : GenId
  debounceToken : Option ℕ
  nextToken : ℕ
  bundleLock : Bool
  rounds : List Round
  uncommitted : List GenId
  deriving Repr

/-- The locals of a run: the generation it read, the rows of the window and of the pack, and,
as a history, how many rounds were committed when it read the window. -/
structure Bundle where
  genBefore : GenId
  openRows : List RowId
  packRows : List RowId
  roundsSeen : ℕ
  deriving DecidableEq, Repr

/-- Where a run of `_execute_llm_bundle` that has read its window stands. -/
inductive Stage
  /-- Rows outside the pack are to be marked skipped. -/
  | outside
  /-- The prompt is being built; `gen_check` comes next. -/
  | prompting
  /-- The model is being called. -/
  | calling
  /-- The call failed; the generation is to be read again. -/
  | callFailed
  /-- The call succeeded; `gen_after_llm` comes next. -/
  | answered
  /-- The generation was read for the last time; content safety, step 5.5 and persistence follow. -/
  | checked
  /-- `_mark_pack_failed` comes next. -/
  | failing (status : DeliveryStatus)
  deriving DecidableEq, Repr

/-- `locked` says that the run belongs to a recovery, which holds the bundle lock. -/
inductive ChatTask
  | send
  | inserting (gen : GenId)
  | scheduling
  | sleeping (token : ℕ)
  | resend
  | resending
  | recovery
  | starting (locked : Bool)
  | fetching (locked : Bool) (gen : GenId)
  | run (locked : Bool) (b : Bundle) (stage : Stage)
  | allocating (count : ℤ)
  deriving DecidableEq, Repr

/-- Requests, and the outcomes of awaits. -/
inductive ChatInput
  | send | resend | triggerRecovery | allocate (count : ℤ)
  /-- The awaited operation succeeds. -/
  | next
  /-- The model answers, or fails. -/
  | answer (ok : Bool)
  /-- A content-safety check of the messages rejects them. -/
  | blocked
  /-- All checks pass; persist this many messages. -/
  | persist (messages : ℕ)
  /-- The task ends: an exception, a cancellation, a refused resend quota. -/
  | abort
  deriving DecidableEq, Repr

/-! ### The open window -/

/-- `_max_assistant_sort_seq`. -/
def maxAssistantSortSeq (d : ChatData) : Option ℤ := (d.assistants.map (·.sortSeq)).max?

/-- The row comes after the last assistant row. -/
def isOpen (d : ChatData) (u : UserRow) : Bool :=
  match maxAssistantSortSeq d with
  | some maxA => decide (maxA < u.sortSeq)
  | none => true

/-- `fetch_open_window_user_rows`. -/
def fetchOpenWindow (d : ChatData) : List UserRow :=
  (d.users.filter (isOpen d)).insertionSort fun u v => u.sortSeq ≤ v.sortSeq

/-- `open_window_has_bang`. -/
def openWindowHasBang (rows : List UserRow) : Bool :=
  rows.any fun u => u.status = .failedTimeout || u.status = .failedError

/-- `_should_block_new_send`. -/
def shouldBlockNewSend (rows : List UserRow) : Bool :=
  decide (5 ≤ (rows.filter fun u => decide (u.status ≠ .delivered)).length) &&
    !openWindowHasBang rows

/-- `_open_window_only_pending_llm`. -/
def openWindowOnlyPendingLlm (rows : List UserRow) : Bool :=
  let pending := rows.filter fun u => decide (u.status ≠ .delivered)
  !pending.isEmpty && pending.all fun u => decide (u.status = .pendingLlm)

/-- `open_rows[-10:]`. -/
def packOf (rows : List RowId) : List RowId := rows.drop (rows.length - 10)

/-! ### Transactions -/

/-- Change the rows with these ids. -/
def updateRows (ids : List RowId) (f : UserRow → UserRow) (rows : List UserRow) : List UserRow :=
  rows.map fun u => if u.id ∈ ids then f u else u

/-- The insertion of `enqueue_send`. -/
def insertRow (d : ChatData) : Except TimelineError ChatData := do
  let (seqs, next) ← allocateSortSeq d.counter 1
  let rows := seqs.map fun seq => ⟨d.users.length, seq, .pendingLlm, false, none⟩
  pure { d with users := d.users ++ rows, counter := some next }

/-- `_mark_outside_pack_skipped`. -/
def markOutsidePackSkipped (b : Bundle) (d : ChatData) : ChatData :=
  { d with
    users := updateRows (b.openRows.filter (· ∉ b.packRows))
      (fun u => { u with skippedInPrompt := true }) d.users }

/-- `_mark_pack_failed`. -/
def markPackFailed (b : Bundle) (status : DeliveryStatus) (d : ChatData) : ChatData :=
  { d with users := updateRows b.packRows (fun u => { u with status := status }) d.users }

/-- `_persist_bundle_success`; without messages nothing is written. -/
def persistBundleSuccess (b : Bundle) (messages : ℕ) (d : ChatData) :
    Except TimelineError ChatData := do
  if messages = 0 then pure d
  else
    let (seqs, next) ← allocateSortSeq d.counter messages
    let round := d.rounds.length
    pure { d with
      users := updateRows b.packRows (fun u =>
        { u with status := .delivered, skippedInPrompt := false, roundId := some round }) d.users
      assistants := d.assistants ++ seqs.map fun seq => ⟨seq, round⟩
      counter := some next
      rounds := d.rounds ++ [⟨round, b.genBefore, b.packRows⟩] }

/-- A new generation replaces the old one. -/
def bumpGeneration (d : ChatData) : ChatData :=
  { d with generation := some d.nextGen, nextGen := d.nextGen + 1 }

/-- A recovery releases its lock when its run ends. -/
def release (locked : Bool) (d : ChatData) : ChatData :=
  if locked then { d with bundleLock := false } else d

/-! ### Steps -/

/-- One step of a run of `_execute_llm_bundle` that has read its window. -/
def advanceRun (d : ChatData) (locked : Bool) (b : Bundle) :
    Stage → ChatInput → Option (ChatData × List ChatTask)
  | .outside, .next => some (markOutsidePackSkipped b d, [.run locked b .prompting])
  | .prompting, .next =>
    if d.generation = some b.genBefore then some (d, [.run locked b .calling])
    else some (release locked d, [.recovery])
  | .calling, .answer ok => some (d, [.run locked b (if ok then .answered else .callFailed)])
  | .callFailed, .next =>
    if d.generation = some b.genBefore then some (d, [.run locked b (.failing .failedTimeout)])
    else some (release locked d, [])
  | .answered, .next =>
    if d.generation = some b.genBefore then some (d, [.run locked b .checked])
    else some (release locked d, [.recovery])
  | .checked, .blocked => some (d, [.run locked b (.failing .failedBlocked)])
  | .checked, .persist messages =>
    (persistBundleSuccess b messages d).toOption.map fun d => (release locked d, [])
  | .failing status, .next => some (release locked (markPackFailed b status d), [])
  | _, .abort => some (release locked d, [])
  | _, _ => none

def chatAdvance (d : ChatData) : ChatTask → ChatInput → Option (ChatData × List ChatTask)
  | .send, .next =>
    some ({ bumpGeneration d with uncommitted := d.nextGen :: d.uncommitted },
      [.inserting d.nextGen])
  | .inserting gen, .next =>
    (insertRow d).toOption.map fun d =>
      ({ d with uncommitted := d.uncommitted.erase gen }, [.scheduling])
  | .inserting gen, .abort => some ({ d with uncommitted := d.uncommitted.erase gen }, [])
  | .scheduling, .next =>
    some ({ d with debounceToken := some d.nextToken, nextToken := d.nextToken + 1 },
      [.sleeping d.nextToken])
  | .sleeping token, .next =>
    some (d, if d.debounceToken = some token then [.starting false] else [])
  | .resend, .next => some (d, if openWindowHasBang (fetchOpenWindow d) then [.resending] else [])
  | .resending, .next => some (bumpGeneration d, [.starting false])
  | .recovery, .next =>
    if d.bundleLock then some (d, []) else some ({ d with bundleLock := true }, [.starting true])
  | .starting locked, .next =>
    match d.generation with
    | some gen => some (d, [.fetching locked gen])
    | none => some (release locked d, [])
  | .fetching locked gen, .next =>
    let rows := (fetchOpenWindow d).map (·.id)
    if rows = [] then some (release locked d, [])
    else
      let b : Bundle := ⟨gen, rows, packOf rows, d.rounds.length⟩
      some (d, [.run locked b (if 10 < rows.length then .outside else .prompting)])
  | .run locked b stage, i => advanceRun d locked b stage i
  | .allocating count, .next =>
    (allocateSortSeq d.counter count).toOption.map fun r => ({ d with counter := some r.2 }, [])
  | .starting locked, .abort | .fetching locked _, .abort => some (release locked d, [])
  | _, .abort => some (d, [])
  | _, _ => none

/-- What is asked of the chat service; other services allocate timeline numbers of the user. -/
def chatAccept (d : ChatData) : ChatInput → Option (List ChatTask)
  | .send => some [.send]
  | .resend => some [.resend]
  | .triggerRecovery =>
    let rows := fetchOpenWindow d
    some (if shouldBlockNewSend rows && openWindowOnlyPendingLlm rows then [.recovery] else [])
  | .allocate count => some [.allocating count]
  | _ => none

/-- The chat of a new user. -/
def chatSystem : TaskSystem ChatData ChatTask ChatInput where
  initial d := d.users = [] ∧ d.assistants = [] ∧ d.rounds = [] ∧ d.uncommitted = [] ∧
    d.generation = none
  accept := chatAccept
  advance := chatAdvance

/-! ### What one step does -/

/-- The rows, the rounds and the generation are as they were; numbers may have been allocated. -/
structure Agrees (d d' : ChatData) : Prop where
  users : d'.users = d.users
  assistants : d'.assistants = d.assistants
  rounds : d'.rounds = d.rounds
  generation : d'.generation = d.generation
  nextGen : d'.nextGen = d.nextGen
  uncommitted : d'.uncommitted = d.uncommitted
  counter : nextSeq d.counter ≤ nextSeq d'.counter

theorem Agrees.refl (d : ChatData) : Agrees d d := ⟨rfl, rfl, rfl, rfl, rfl, rfl, le_rfl⟩

theorem agrees_release (locked : Bool) (d : ChatData) : Agrees d (release locked d) := by
  unfold release
  split_ifs
  · exact ⟨rfl, rfl, rfl, rfl, rfl, rfl, le_rfl⟩
  · exact Agrees.refl d

/-- The task carries no generation. -/
def ChatTask.light : ChatTask → Bool
  | .inserting _ | .fetching _ _ | .run _ _ _ => false
  | _ => true

/-- The data after an insertion. -/
def inserted (d : ChatData) : ChatData :=
  { d with
    users := d.users ++ [⟨d.users.length, nextSeq d.counter, .pendingLlm, false, none⟩]
    counter := some (nextSeq d.counter + 1) }

/-- The round a run would commit. -/
def nextRound (b : Bundle) (d : ChatData) : Round := ⟨d.rounds.length, b.genBefore, b.packRows⟩

/-- A delivered row of a round. -/
def deliveredIn (round : RoundId) (u : UserRow) : UserRow :=
  { u with status := .delivered, skippedInPrompt := false, roundId := some round }

/-- The data after a round with `messages` rows was committed. -/
structure Persisted (b : Bundle) (messages : ℕ) (d d' : ChatData) : Prop where
  messages_ne : messages ≠ 0
  users : d'.users = updateRows b.packRows (deliveredIn d.rounds.length) d.users
  assistants : ∃ seqs : List ℤ, d'.assistants =
      d.assistants ++ seqs.map (fun seq => ⟨seq, d.rounds.length⟩) ∧ seqs ≠ [] ∧
      ∀ seq ∈ seqs, nextSeq d.counter ≤ seq ∧ seq < nextSeq d'.counter
  counter : nextSeq d.counter ≤ nextSeq d'.counter
  rounds : d'.rounds = d.rounds ++ [nextRound b d]
  generation : d'.generation = d.generation
  nextGen : d'.nextGen = d.nextGen
  uncommitted : d'.uncommitted = d.uncommitted

/-- The inversion of `chatAdvance`. -/
inductive ChatStep (d : ChatData) : ChatTask → ChatInput → ChatData → List ChatTask → Prop
  | light {t : ChatTask} {i : ChatInput} {d' : ChatData} {ts : List ChatTask} (h : Agrees d d')
      (hts : ∀ t' ∈ ts, t'.light = true) : ChatStep d t i d' ts
  | begin : ChatStep d .send .next
      { bumpGeneration d with uncommitted := d.nextGen :: d.uncommitted } [.inserting d.nextGen]
  | bump : ChatStep d .resending .next (bumpGeneration d) [.starting false]
  | insert (gen : GenId) : ChatStep d (.inserting gen) .next
      { inserted d with uncommitted := d.uncommitted.erase gen } [.scheduling]
  | abandon (gen : GenId) : ChatStep d (.inserting gen) .abort
      { d with uncommitted := d.uncommitted.erase gen } []
  | hold {locked : Bool} {gen : GenId} (h : d.generation = some gen) :
      ChatStep d (.starting locked) .next d [.fetching locked gen]
  | fetch {locked : Bool} {gen : GenId} {b : Bundle} {stage : Stage} (hgen : b.genBefore = gen)
      (hrows : b.openRows = (fetchOpenWindow d).map (·.id)) (hne : b.openRows ≠ [])
      (hpack : b.packRows = packOf b.openRows) (hseen : b.roundsSeen = d.rounds.length)
      (hstage : stage = .outside ∨ stage = .prompting ∧ b.openRows.length ≤ 10) :
      ChatStep d (.fetching locked gen) .next d [.run locked b stage]
  | mark (locked : Bool) (b : Bundle) : ChatStep d (.run locked b .outside) .next
      (markOutsidePackSkipped b d) [.run locked b .prompting]
  | move {locked : Bool} {b : Bundle} {stage stage' : Stage} {i : ChatInput}
      (hstage : stage ≠ .outside ∧ stage' ≠ .outside)
      (hchecked : stage' = .checked → d.generation = some b.genBefore) :
      ChatStep d (.run locked b stage) i d [.run locked b stage']
  | fail (locked : Bool) (b : Bundle) (status : DeliveryStatus) :
      ChatStep d (.run locked b (.failing status)) .next
        (release locked (markPackFailed b status d)) []
  | persist {locked : Bool} {b : Bundle} {messages : ℕ} {d' : ChatData}
      (h : Persisted b messages d d') :
      ChatStep d (.run locked b .checked) (.persist messages) d' []

/-- Requests start light tasks. -/
theorem chatAccept_light {d : ChatData} {i : ChatInput} {ts : List ChatTask}
    (h : chatAccept d i = some ts) : ∀ t ∈ ts, t.light = true := by
  cases i with
  | send | resend =>
    obtain rfl := Option.some.inj h
    simp [ChatTask.light]
  | allocate count =>
    obtain rfl := Option.some.inj h
    simp [ChatTask.light]
  | triggerRecovery =>
    obtain rfl := Option.some.inj h
    split_ifs <;> simp [ChatTask.light]
  | _ => exact absurd h (by simp [chatAccept])

theorem insertRow_eq (d : ChatData) : insertRow d = .ok (inserted d) := by
  rw [insertRow, allocateSortSeq_one]
  rfl

theorem persistBundleSuccess_zero (b : Bundle) (d : ChatData) :
    persistBundleSuccess b 0 d = .ok d := rfl

theorem persistBundleSuccess_cases {b : Bundle} {messages : ℕ} {d d' : ChatData}
    (h : persistBundleSuccess b messages d = .ok d') :
    (messages = 0 ∧ d' = d) ∨ Persisted b messages d d' := by
  unfold persistBundleSuccess at h
  split_ifs at h with hzero
  · exact .inl ⟨hzero, (pure_eq_ok.mp h).symm⟩
  · obtain ⟨⟨seqs, next⟩, halloc, h⟩ := bind_eq_ok.mp h
    obtain rfl := pure_eq_ok.mp h
    obtain ⟨-, hbounds, hnext⟩ := allocateSortSeq_spec halloc
    obtain ⟨-, hseqs, -⟩ := allocateSortSeq_eq_ok.mp halloc
    have hle : nextSeq d.counter ≤ nextSeq (some next) := by
      change _ ≤ next
      omega
    refine .inr ⟨hzero, rfl, ⟨seqs, rfl, ?_, hbounds⟩, hle, rfl, rfl, rfl, rfl⟩
    rw [hseqs]
    simpa using hzero

theorem persisted_release {b : Bundle} {messages : ℕ} {d d' : ChatData} (locked : Bool)
    (h : Persisted b messages d d') : Persisted b messages d (release locked d') := by
  have ha := agrees_release locked d'
  obtain ⟨seqs, hseqs, hne, hbounds⟩ := h.assistants
  have hcounter : nextSeq (release locked d').counter = nextSeq d'.counter := by
    unfold release
    split_ifs <;> rfl
  exact ⟨h.messages_ne, ha.users.trans h.users, ⟨seqs, ha.assistants.trans hseqs, hne, by rwa [hcounter]⟩,
    by rw [hcounter]; exact h.counter, ha.rounds.trans h.rounds,
    ha.generation.trans h.generation, ha.nextGen.trans h.nextGen,
    ha.uncommitted.trans h.uncommitted⟩

/-- A task that ends only releases its lock. -/
theorem ends_light {d d' : ChatData} {t : ChatTask} {i : ChatInput} {ts : List ChatTask}
    {locked : Bool} (h : some (release locked d, ([] : List ChatTask)) = some (d', ts)) :
    ChatStep d t i d' ts := by
  obtain ⟨rfl, rfl⟩ := Prod.mk.inj (Option.some.inj h)
  exact .light (agrees_release locked d) (by simp)

theorem recovers_light {d d' : ChatData} {t : ChatTask} {i : ChatInput} {ts : List ChatTask}
    {locked : Bool} (h : some (release locked d, [ChatTask.recovery]) = some (d', ts)) :
    ChatStep d t i d' ts := by
  obtain ⟨rfl, rfl⟩ := Prod.mk.inj (Option.some.inj h)
  exact .light (agrees_release locked d) (by simp [ChatTask.light])

theorem stays_light {d d' : ChatData} {t : ChatTask} {i : ChatInput} {us ts : List ChatTask}
    (h : some (d, us) = some (d', ts)) (hus : ∀ t' ∈ us, t'.light = true) :
    ChatStep d t i d' ts := by
  obtain ⟨rfl, rfl⟩ := Prod.mk.inj (Option.some.inj h)
  exact .light (Agrees.refl d) hus

theorem advanceRun_step {d d' : ChatData} {locked : Bool} {b : Bundle} {stage : Stage}
    {i : ChatInput} {ts : List ChatTask} (h : advanceRun d locked b stage i = some (d', ts)) :
    ChatStep d (.run locked b stage) i d' ts := by
  unfold advanceRun at h
  split at h
  · obtain ⟨rfl, rfl⟩ := Prod.mk.inj (Option.some.inj h)
    exact .mark locked b
  · split_ifs at h with hgen
    · obtain ⟨rfl, rfl⟩ := Prod.mk.inj (Option.some.inj h)
      exact .move ⟨by simp, by simp⟩ (by simp)
    · exact recovers_light h
  · obtain ⟨rfl, rfl⟩ := Prod.mk.inj (Option.some.inj h)
    refine .move ⟨by simp, ?_⟩ ?_
    · split_ifs <;> simp
    · split_ifs <;> simp
  · split_ifs at h with hgen
    · obtain ⟨rfl, rfl⟩ := Prod.mk.inj (Option.some.inj h)
      exact .move ⟨by simp, by simp⟩ (by simp)
    · exact ends_light h
  · split_ifs at h with hgen
    · obtain ⟨rfl, rfl⟩ := Prod.mk.inj (Option.some.inj h)
      exact .move ⟨by simp, by simp⟩ fun _ => hgen
    · exact recovers_light h
  · obtain ⟨rfl, rfl⟩ := Prod.mk.inj (Option.some.inj h)
    exact .move ⟨by simp, by simp⟩ (by simp)
  · obtain ⟨d₁, hd₁, heq⟩ := Option.map_eq_some_iff.mp h
    obtain ⟨rfl, rfl⟩ := Prod.mk.inj heq
    rcases persistBundleSuccess_cases (toOption_eq_some.mp hd₁) with ⟨-, rfl⟩ | hpersist
    · exact .light (agrees_release locked _) (by simp)
    · exact .persist (persisted_release locked hpersist)
  · obtain ⟨rfl, rfl⟩ := Prod.mk.inj (Option.some.inj h)
    exact .fail locked b _
  · exact ends_light h
  · exact absurd h (by simp)

theorem chatAdvance_step {d d' : ChatData} {t : ChatTask} {i : ChatInput} {ts : List ChatTask}
    (h : chatAdvance d t i = some (d', ts)) : ChatStep d t i d' ts := by
  unfold chatAdvance at h
  split at h
  · obtain ⟨rfl, rfl⟩ := Prod.mk.inj (Option.some.inj h)
    exact .begin
  · rw [insertRow_eq] at h
    obtain ⟨rfl, rfl⟩ := Prod.mk.inj (Option.some.inj h)
    exact .insert _
  · obtain ⟨rfl, rfl⟩ := Prod.mk.inj (Option.some.inj h)
    exact .abandon _
  · obtain ⟨rfl, rfl⟩ := Prod.mk.inj (Option.some.inj h)
    exact .light ⟨rfl, rfl, rfl, rfl, rfl, rfl, le_rfl⟩ (by simp [ChatTask.light])
  · refine stays_light h ?_
    split_ifs <;> simp [ChatTask.light]
  · refine stays_light h ?_
    split_ifs <;> simp [ChatTask.light]
  · obtain ⟨rfl, rfl⟩ := Prod.mk.inj (Option.some.inj h)
    exact .bump
  · split_ifs at h with hlock
    · exact stays_light h (by simp)
    · obtain ⟨rfl, rfl⟩ := Prod.mk.inj (Option.some.inj h)
      exact .light ⟨rfl, rfl, rfl, rfl, rfl, rfl, le_rfl⟩ (by simp [ChatTask.light])
  · split at h
    · obtain ⟨rfl, rfl⟩ := Prod.mk.inj (Option.some.inj h)
      exact .hold (by assumption)
    · exact ends_light h
  · simp only at h
    split_ifs at h with hrows hmany
    · exact ends_light h
    · obtain ⟨rfl, rfl⟩ := Prod.mk.inj (Option.some.inj h)
      exact .fetch rfl rfl hrows rfl rfl (.inl rfl)
    · obtain ⟨rfl, rfl⟩ := Prod.mk.inj (Option.some.inj h)
      exact .fetch rfl rfl hrows rfl rfl (.inr ⟨rfl, not_lt.mp hmany⟩)
  · exact advanceRun_step h
  · obtain ⟨⟨seqs, next⟩, halloc, heq⟩ := Option.map_eq_some_iff.mp h
    obtain ⟨rfl, rfl⟩ := Prod.mk.inj heq
    obtain ⟨-, -, hnext⟩ := allocateSortSeq_spec (toOption_eq_some.mp halloc)
    have hcount := (allocateSortSeq_eq_ok.mp (toOption_eq_some.mp halloc)).1
    refine .light ⟨rfl, rfl, rfl, rfl, rfl, rfl, ?_⟩ (by simp)
    change _ ≤ next
    omega
  · exact ends_light h
  · exact ends_light h
  · exact stays_light h (by simp)
  · exact absurd h (by simp)

/-! ### Rows and numbers -/

theorem isOpen_iff {d : ChatData} {u : UserRow} :
    isOpen d u = true ↔ ∀ a ∈ d.assistants, a.sortSeq < u.sortSeq := by
  unfold isOpen
  cases hmax : maxAssistantSortSeq d with
  | none =>
    have hnil : d.assistants = [] := by simpa [maxAssistantSortSeq] using hmax
    simp [hnil]
  | some m =>
    obtain ⟨hmem, hle⟩ := List.max?_eq_some_iff.mp hmax
    simp only [decide_eq_true_iff]
    constructor
    · intro h a ha
      exact lt_of_le_of_lt (hle a.sortSeq (List.mem_map_of_mem ha)) h
    · intro h
      obtain ⟨a, ha, rfl⟩ := List.mem_map.mp hmem
      exact h a ha

theorem mem_fetchOpenWindow {d : ChatData} {u : UserRow} :
    u ∈ fetchOpenWindow d ↔ u ∈ d.users ∧ isOpen d u = true := by
  rw [fetchOpenWindow, (List.perm_insertionSort _ _).mem_iff, List.mem_filter]

theorem packOf_subset (rows : List RowId) : packOf rows ⊆ rows := List.drop_subset _ _

theorem packOf_of_le {rows : List RowId} (h : rows.length ≤ 10) : packOf rows = rows := by
  rw [packOf, Nat.sub_eq_zero_of_le h, List.drop_zero]

theorem mem_updateRows {ids : List RowId} {f : UserRow → UserRow} {rows : List UserRow}
    {u' : UserRow} : u' ∈ updateRows ids f rows ↔
      ∃ u ∈ rows, u' = if u.id ∈ ids then f u else u := by
  simp only [updateRows, List.mem_map]
  constructor
  · rintro ⟨u, hu, rfl⟩
    exact ⟨u, hu, rfl⟩
  · rintro ⟨u, hu, rfl⟩
    exact ⟨u, hu, rfl⟩

@[simp] theorem length_updateRows (ids : List RowId) (f : UserRow → UserRow)
    (rows : List UserRow) : (updateRows ids f rows).length = rows.length := by simp [updateRows]

/-- Numbers lie below the counter, and ids below the number of rows. -/
structure Sequenced (d : ChatData) : Prop where
  users : ∀ u ∈ d.users, u.sortSeq < nextSeq d.counter
  assistants : ∀ a ∈ d.assistants, a.sortSeq < nextSeq d.counter
  ids : ∀ u ∈ d.users, u.id < d.users.length

/-- The update keeps what identifies a row. -/
def KeepsRow (f : UserRow → UserRow) : Prop := ∀ u, (f u).id = u.id ∧ (f u).sortSeq = u.sortSeq

theorem keepsRow_deliveredIn (round : RoundId) : KeepsRow (deliveredIn round) := fun _ => ⟨rfl, rfl⟩

theorem origin_of_update {ids : List RowId} {f : UserRow → UserRow} (hf : KeepsRow f)
    {rows : List UserRow} {u' : UserRow} (h : u' ∈ updateRows ids f rows) :
    ∃ u ∈ rows, u'.id = u.id ∧ u'.sortSeq = u.sortSeq ∧ u' = if u.id ∈ ids then f u else u := by
  obtain ⟨u, hu, rfl⟩ := mem_updateRows.mp h
  refine ⟨u, hu, ?_, ?_, rfl⟩
  · split_ifs
    · exact (hf u).1
    · rfl
  · split_ifs
    · exact (hf u).2
    · rfl

theorem Sequenced.update {d d' : ChatData} {ids : List RowId} {f : UserRow → UserRow}
    (h : Sequenced d) (hf : KeepsRow f) (husers : d'.users = updateRows ids f d.users)
    (hcounter : nextSeq d.counter ≤ nextSeq d'.counter)
    (hassistants : ∀ a ∈ d'.assistants, a.sortSeq < nextSeq d'.counter) : Sequenced d' := by
  refine ⟨?_, hassistants, ?_⟩
  · intro u' hu'
    rw [husers] at hu'
    obtain ⟨u, hu, -, hseq, -⟩ := origin_of_update hf hu'
    have := h.users u hu
    omega
  · intro u' hu'
    rw [husers] at hu' ⊢
    obtain ⟨u, hu, hid, -, -⟩ := origin_of_update hf hu'
    rw [length_updateRows, hid]
    exact h.ids u hu

theorem Sequenced.agrees {d d' : ChatData} (h : Sequenced d) (ha : Agrees d d') : Sequenced d' := by
  have hcounter := ha.counter
  refine ⟨?_, ?_, ?_⟩
  · rw [ha.users]
    intro u hu
    have := h.users u hu
    omega
  · rw [ha.assistants]
    intro a haa
    have := h.assistants a haa
    omega
  · rw [ha.users]
    exact h.ids

theorem Sequenced.persisted {b : Bundle} {messages : ℕ} {d d' : ChatData} (h : Sequenced d)
    (hp : Persisted b messages d d') : Sequenced d' := by
  obtain ⟨seqs, hseqs, -, hbounds⟩ := hp.assistants
  refine h.update (keepsRow_deliveredIn _) hp.users hp.counter fun a ha => ?_
  rw [hseqs] at ha
  rcases List.mem_append.mp ha with ha | ha
  · have := h.assistants a ha
    have := hp.counter
    omega
  · obtain ⟨seq, hseq, rfl⟩ := List.mem_map.mp ha
    exact (hbounds seq hseq).2

theorem Sequenced.inserted {d : ChatData} (h : Sequenced d) : Sequenced (inserted d) := by
  have hnext : nextSeq (ChatPipeline.inserted d).counter = nextSeq d.counter + 1 := rfl
  refine ⟨?_, ?_, ?_⟩
  · intro u hu
    rw [hnext]
    rcases List.mem_append.mp hu with hu | hu
    · have := h.users u hu
      omega
    · obtain rfl := List.mem_singleton.mp hu
      change nextSeq d.counter < nextSeq d.counter + 1
      omega
  · intro a ha
    rw [hnext]
    have := h.assistants a ha
    omega
  · intro u hu
    have hlen : (ChatPipeline.inserted d).users.length = d.users.length + 1 := by
      simp [ChatPipeline.inserted]
    rw [hlen]
    rcases List.mem_append.mp hu with hu | hu
    · exact Nat.lt_succ_of_lt (h.ids u hu)
    · obtain rfl := List.mem_singleton.mp hu
      exact Nat.lt_succ_self _

/-- Numbers stay below the counter over every step. -/
theorem Sequenced.step {d d' : ChatData} {t : ChatTask} {i : ChatInput} {ts : List ChatTask}
    (h : Sequenced d) (hstep : ChatStep d t i d' ts) : Sequenced d' := by
  cases hstep with
  | light ha _ => exact h.agrees ha
  | begin => exact ⟨h.users, h.assistants, h.ids⟩
  | bump => exact ⟨h.users, h.assistants, h.ids⟩
  | insert gen => exact ⟨h.inserted.users, h.inserted.assistants, h.inserted.ids⟩
  | abandon gen => exact ⟨h.users, h.assistants, h.ids⟩
  | hold _ => exact h
  | fetch _ _ _ _ _ _ => exact h
  | mark locked b =>
    exact h.update (f := fun u => { u with skippedInPrompt := true }) (fun _ => ⟨rfl, rfl⟩) rfl
      le_rfl h.assistants
  | move _ _ => exact h
  | fail locked b status =>
    refine Sequenced.agrees ?_ (agrees_release locked _)
    exact h.update (f := fun u => { u with status := status }) (fun _ => ⟨rfl, rfl⟩) rfl le_rfl
      h.assistants
  | persist hp => exact h.persisted hp

/-- After a round no row that existed before it is open. -/
theorem closed_of_persisted {b : Bundle} {messages : ℕ} {d d' : ChatData} (h : Sequenced d)
    (hp : Persisted b messages d d') : ∀ u ∈ d'.users, isOpen d' u = false := by
  intro u' hu'
  rw [hp.users] at hu'
  obtain ⟨u, hu, -, hseq, -⟩ := origin_of_update (keepsRow_deliveredIn _) hu'
  obtain ⟨seqs, hseqs, hne, hbounds⟩ := hp.assistants
  obtain ⟨seq, hmem⟩ := List.exists_mem_of_ne_nil seqs hne
  by_contra hopen
  rw [Bool.not_eq_false, isOpen_iff, hseqs] at hopen
  have hlt := hopen ⟨seq, d.rounds.length⟩
    (List.mem_append_right _ (List.mem_map.mpr ⟨seq, hmem, rfl⟩))
  have := h.users u hu
  have := (hbounds seq hmem).1
  simp only [hseq] at hlt
  omega

/-! ### Runs of the examples -/

/-- The chat of a user who has not written yet. -/
def emptyChat : World ChatData ChatTask := ⟨⟨[], [], none, none, 0, none, 0, false, [], []⟩, []⟩

theorem emptyChat_start : chatSystem.machine.start emptyChat := ⟨⟨rfl, rfl, rfl, rfl, rfl⟩, rfl⟩

/-- A message is sent and its run gets as far as the content-safety checks. -/
def checkedRun : List (Input ChatInput) :=
  .request .send :: List.replicate 7 (.task 0 .next) ++ [.task 0 (.answer true), .task 0 .next]

end CompanionBackend.ChatPipeline
