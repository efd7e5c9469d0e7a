import CompanionBackend.ChatPipeline

/-!
# The open window and the rows a round answers

A round closes every row below the numbers it allocates when it is persisted, but
it answers the window it read before the model was called. Content safety and
step 5.5 suspend the run in between without another look at the generation, so a
row committed meanwhile is closed by a round that never saw it.
-/
namespace CompanionBackend.ChatWindow

open Runs TimelineSequence TaskSystems ChatPipeline

/-- The row is delivered by a committed round whose pack has it. -/
def Answered (d : ChatData) (u : UserRow) : Prop :=
  u.status = .delivered ∧ ∃ r ∈ d.rounds, u.roundId = some r.id ∧ u.id ∈ r.pack

/-- The row is still in the window, answered, or deliberately skipped. -/
def Kept (d : ChatData) (u : UserRow) : Prop :=
  isOpen d u = true ∨ Answered d u ∨ u.skippedInPrompt = true

instance (d : ChatData) (u : UserRow) : Decidable (Answered d u) :=
  inferInstanceAs (Decidable (_ ∧ _))

instance (d : ChatData) (u : UserRow) : Decidable (Kept d u) :=
  inferInstanceAs (Decidable (_ ∨ _ ∨ _))

/-- Persisting a round and marking a pack as failed are safe: the round has seen every row it is
about to close, and no row of the pack was delivered by another run, skipped rows apart. -/
def WindowCurrent (d : ChatData) : ChatTask → ChatInput → Prop
  | .run _ b .checked, .persist messages =>
    messages ≠ 0 → ∀ u ∈ d.users, isOpen d u = true →
      u.id ∈ b.openRows ∨ u.skippedInPrompt = true
  | .run _ b (.failing _), .next =>
    ∀ u ∈ d.users, u.id ∈ b.packRows → u.status = .delivered → u.skippedInPrompt = true
  | _, _ => True

def windowCurrent (d : ChatData) : ChatTask → ChatInput → Bool
  | .run _ b .checked, .persist messages =>
    messages ≠ 0 → ∀ u ∈ d.users, isOpen d u = true →
      u.id ∈ b.openRows ∨ u.skippedInPrompt = true
  | .run _ b (.failing _), .next =>
    ∀ u ∈ d.users, u.id ∈ b.packRows → u.status = .delivered → u.skippedInPrompt = true
  | _, _ => true

theorem windowCurrent_iff (d : ChatData) (t : ChatTask) (i : ChatInput) :
    windowCurrent d t i = true ↔ WindowCurrent d t i := by
  unfold windowCurrent WindowCurrent
  split <;> simp only [decide_eq_true_eq]

instance (d : ChatData) (t : ChatTask) (i : ChatInput) : Decidable (WindowCurrent d t i) :=
  decidable_of_iff _ (windowCurrent_iff d t i)

/-! ### The invariant -/

structure WindowData (d : ChatData) : Prop where
  sequenced : Sequenced d
  kept : ∀ u ∈ d.users, Kept d u

/-- A run has read rows that exist, and has marked those it left out of its pack. -/
structure RunOk (d : ChatData) (b : Bundle) (stage : Stage) : Prop where
  ids : ∀ id ∈ b.openRows, id < d.users.length
  outside : stage ≠ .outside → ∀ u ∈ d.users, u.id ∈ b.openRows → u.id ∉ b.packRows →
    Answered d u ∨ u.skippedInPrompt = true

def TaskOk (d : ChatData) : ChatTask → Prop
  | .run _ b stage => RunOk d b stage
  | _ => True

/-- No row disappears, a row that was answered or skipped stays one of them, and new rows have
new ids. -/
structure Evolves (d d' : ChatData) : Prop where
  length : d.users.length ≤ d'.users.length
  origin : ∀ u' ∈ d'.users, d.users.length ≤ u'.id ∨ ∃ u ∈ d.users, u.id = u'.id ∧
    (Answered d u ∨ u.skippedInPrompt = true → Answered d' u' ∨ u'.skippedInPrompt = true)

theorem RunOk.evolves {d d' : ChatData} {b : Bundle} {stage : Stage} (h : RunOk d b stage)
    (he : Evolves d d') : RunOk d' b stage := by
  refine ⟨fun id hid => (h.ids id hid).trans_le he.length, ?_⟩
  intro hstage u' hu' hwindow hpack
  rcases he.origin u' hu' with hnew | ⟨u, hu, hid, hkeep⟩
  · exact absurd (h.ids u'.id hwindow) (not_lt.mpr hnew)
  · rw [← hid] at hwindow hpack
    exact hkeep (h.outside hstage u hu hwindow hpack)

theorem Evolves.trans {d d' d'' : ChatData} (h : Evolves d d') (h' : Evolves d' d'') :
    Evolves d d'' := by
  refine ⟨h.length.trans h'.length, fun u'' hu'' => ?_⟩
  rcases h'.origin u'' hu'' with hnew | ⟨u', hu', hid', hkeep'⟩
  · exact .inl (h.length.trans hnew)
  · rcases h.origin u' hu' with hnew | ⟨u, hu, hid, hkeep⟩
    · exact .inl (hid' ▸ hnew)
    · exact .inr ⟨u, hu, hid.trans hid', fun hold => hkeep' (hkeep hold)⟩

theorem TaskOk.evolves {d d' : ChatData} {t : ChatTask} (h : TaskOk d t) (he : Evolves d d') :
    TaskOk d' t := by
  cases t with
  | run locked b stage => exact RunOk.evolves h he
  | _ => exact trivial

theorem taskOk_of_light {d : ChatData} {t : ChatTask} (h : t.light = true) : TaskOk d t := by
  cases t <;> first | exact trivial | exact absurd h (by simp [ChatTask.light])

theorem answered_of_rounds {d d' : ChatData} {u : UserRow}
    (hrounds : ∀ r ∈ d.rounds, r ∈ d'.rounds) (h : Answered d u) : Answered d' u := by
  obtain ⟨hstatus, r, hr, hround⟩ := h
  exact ⟨hstatus, r, hrounds r hr, hround⟩

/-- The rows are the same, and no round was lost. -/
theorem evolves_of_users {d d' : ChatData} (husers : d'.users = d.users)
    (hrounds : d'.rounds = d.rounds) : Evolves d d' := by
  refine ⟨by rw [husers], fun u hu => .inr ⟨u, husers ▸ hu, rfl, ?_⟩⟩
  refine Or.imp_left (answered_of_rounds fun r hr => ?_)
  rwa [hrounds]

theorem kept_of_agrees {d d' : ChatData} {u : UserRow} (hassistants : d'.assistants = d.assistants)
    (hrounds : d'.rounds = d.rounds) (h : Kept d u) : Kept d' u := by
  rcases h with hopen | hanswered | hskipped
  · left
    rw [isOpen_iff, hassistants]
    exact isOpen_iff.mp hopen
  · right; left
    refine answered_of_rounds (fun r hr => ?_) hanswered
    rwa [hrounds]
  · exact .inr (.inr hskipped)

/-! ### Steps -/

theorem evolves_inserted (d : ChatData) (uncommitted : List GenId) :
    Evolves d { inserted d with uncommitted := uncommitted } := by
  refine ⟨by simp [inserted], fun u hu => ?_⟩
  rcases List.mem_append.mp hu with hu | hu
  · exact .inr ⟨u, hu, rfl, id⟩
  · obtain rfl := List.mem_singleton.mp hu
    exact .inl le_rfl

theorem windowData_inserted {d : ChatData} (h : WindowData d) (uncommitted : List GenId) :
    WindowData { inserted d with uncommitted := uncommitted } := by
  have hseq := h.sequenced.inserted
  refine ⟨⟨hseq.users, hseq.assistants, hseq.ids⟩, fun u hu => ?_⟩
  rcases List.mem_append.mp hu with hu | hu
  · exact kept_of_agrees rfl rfl (h.kept u hu)
  · obtain rfl := List.mem_singleton.mp hu
    -- The new number is above every assistant row.
    left
    rw [isOpen_iff]
    exact h.sequenced.assistants

theorem evolves_mark (b : Bundle) (d : ChatData) : Evolves d (markOutsidePackSkipped b d) := by
  refine ⟨by simp [markOutsidePackSkipped], fun u' hu' => ?_⟩
  obtain ⟨u, hu, rfl⟩ := mem_updateRows.mp hu'
  refine .inr ⟨u, hu, ?_, ?_⟩
  · split_ifs <;> rfl
  · split_ifs
    · intro _
      exact .inr rfl
    · exact id

theorem kept_mark {b : Bundle} {d : ChatData} {u' : UserRow} (h : ∀ u ∈ d.users, Kept d u)
    (hu' : u' ∈ (markOutsidePackSkipped b d).users) : Kept (markOutsidePackSkipped b d) u' := by
  obtain ⟨u, hu, rfl⟩ := mem_updateRows.mp hu'
  split_ifs
  · exact .inr (.inr rfl)
  · exact kept_of_agrees rfl rfl (h u hu)

/-- After the marks the rows outside the pack are skipped. -/
theorem runOk_marked {b : Bundle} {d : ChatData} (h : RunOk d b .outside) :
    RunOk (markOutsidePackSkipped b d) b .prompting := by
  refine ⟨?_, fun _ u' hu' hwindow hpack => ?_⟩
  · simpa [markOutsidePackSkipped] using h.ids
  · obtain ⟨u, hu, rfl⟩ := mem_updateRows.mp hu'
    right
    by_cases hmem : u.id ∈ b.openRows.filter (· ∉ b.packRows)
    · rw [if_pos hmem]
    · rw [if_neg hmem] at hwindow hpack
      exact absurd (List.mem_filter.mpr ⟨hwindow, by simpa using hpack⟩) hmem

/-- Rows that are not delivered, or skipped, can be marked failed. -/
theorem evolves_fail {b : Bundle} {status : DeliveryStatus} {d : ChatData}
    (hok : ∀ u ∈ d.users, u.id ∈ b.packRows → u.status = .delivered → u.skippedInPrompt = true) :
    Evolves d (markPackFailed b status d) := by
  refine ⟨by simp [markPackFailed], fun u' hu' => ?_⟩
  obtain ⟨u, hu, rfl⟩ := mem_updateRows.mp hu'
  refine .inr ⟨u, hu, ?_, ?_⟩
  · split_ifs <;> rfl
  · split_ifs with hpack
    · rintro (hanswered | hskipped)
      · exact .inr (hok u hu hpack hanswered.1)
      · exact .inr hskipped
    · exact id

theorem kept_fail {b : Bundle} {status : DeliveryStatus} {d : ChatData} {u' : UserRow}
    (h : ∀ u ∈ d.users, Kept d u)
    (hok : ∀ u ∈ d.users, u.id ∈ b.packRows → u.status = .delivered → u.skippedInPrompt = true)
    (hu' : u' ∈ (markPackFailed b status d).users) : Kept (markPackFailed b status d) u' := by
  obtain ⟨u, hu, rfl⟩ := mem_updateRows.mp hu'
  split_ifs with hpack
  · rcases h u hu with hopen | hanswered | hskipped
    · exact .inl (isOpen_iff.mpr (isOpen_iff.mp hopen))
    · exact .inr (.inr (hok u hu hpack hanswered.1))
    · exact .inr (.inr hskipped)
  · exact kept_of_agrees rfl rfl (h u hu)

/-- A delivered row of the new round is answered by it. -/
theorem answered_deliveredIn {b : Bundle} {messages : ℕ} {d d' : ChatData} {u : UserRow}
    (hp : Persisted b messages d d') (hpack : u.id ∈ b.packRows) :
    Answered d' (deliveredIn d.rounds.length u) := by
  refine ⟨rfl, nextRound b d, ?_, rfl, hpack⟩
  rw [hp.rounds]
  exact List.mem_append_right _ (List.mem_singleton.mpr rfl)

theorem rounds_of_persisted {b : Bundle} {messages : ℕ} {d d' : ChatData}
    (hp : Persisted b messages d d') : ∀ r ∈ d.rounds, r ∈ d'.rounds := by
  intro r hr
  rw [hp.rounds]
  exact List.mem_append_left _ hr

theorem evolves_persist {b : Bundle} {messages : ℕ} {d d' : ChatData}
    (hp : Persisted b messages d d') : Evolves d d' := by
  refine ⟨by rw [hp.users, length_updateRows], fun u' hu' => ?_⟩
  rw [hp.users] at hu'
  obtain ⟨u, hu, rfl⟩ := mem_updateRows.mp hu'
  refine .inr ⟨u, hu, ?_, ?_⟩
  · split_ifs <;> rfl
  · split_ifs with hpack
    · intro _
      exact .inl (answered_deliveredIn hp hpack)
    · exact Or.imp_left (answered_of_rounds (rounds_of_persisted hp))

/-- A round that has seen every open row closes none without answering or skipping it. -/
theorem kept_persist {b : Bundle} {messages : ℕ} {d d' : ChatData} {u' : UserRow}
    (h : ∀ u ∈ d.users, Kept d u) (hrun : RunOk d b .checked)
    (hok : ∀ u ∈ d.users, isOpen d u = true → u.id ∈ b.openRows ∨ u.skippedInPrompt = true)
    (hp : Persisted b messages d d') (hu' : u' ∈ d'.users) : Kept d' u' := by
  rw [hp.users] at hu'
  obtain ⟨u, hu, rfl⟩ := mem_updateRows.mp hu'
  split_ifs with hpack
  · exact .inr (.inl (answered_deliveredIn hp hpack))
  · right
    apply Or.imp_left (answered_of_rounds (rounds_of_persisted hp))
    rcases h u hu with hopen | hclosed
    · rcases hok u hu hopen with hwindow | hskipped
      · exact hrun.outside (by simp) u hu hwindow hpack
      · exact .inr hskipped
    · exact hclosed

/-- Every step that meets the condition keeps the invariant and what other runs rely on. -/
theorem step_establishes {d d' : ChatData} {t : ChatTask} {i : ChatInput} {ts : List ChatTask}
    (hd : WindowData d) (ht : TaskOk d t) (hok : WindowCurrent d t i)
    (hstep : ChatStep d t i d' ts) :
    TaskSystem.Establishes WindowData TaskOk (fun _ _ => True) d d' t ts := by
  have hseq := hd.sequenced.step hstep
  suffices h : Evolves d d' ∧ (∀ u ∈ d'.users, Kept d' u) ∧ ∀ t' ∈ ts, TaskOk d' t' from
    ⟨⟨hseq, h.2.1⟩, h.2.2, List.pairwise_of_forall fun _ _ => trivial,
      fun u hu _ => ⟨hu.evolves h.1, fun _ _ => trivial⟩⟩
  cases hstep with
  | light ha hts =>
    refine ⟨evolves_of_users ha.users ha.rounds, fun u hu => ?_, fun t' ht' => ?_⟩
    · exact kept_of_agrees ha.assistants ha.rounds (hd.kept u (ha.users ▸ hu))
    · exact taskOk_of_light (hts t' ht')
  | begin =>
    exact ⟨evolves_of_users rfl rfl, fun u hu => kept_of_agrees rfl rfl (hd.kept u hu),
      by simp [TaskOk]⟩
  | bump =>
    exact ⟨evolves_of_users rfl rfl, fun u hu => kept_of_agrees rfl rfl (hd.kept u hu),
      by simp [TaskOk]⟩
  | insert gen =>
    exact ⟨evolves_inserted d _, (windowData_inserted hd _).kept, by simp [TaskOk]⟩
  | abandon gen =>
    exact ⟨evolves_of_users rfl rfl, fun u hu => kept_of_agrees rfl rfl (hd.kept u hu), by simp⟩
  | hold _ => exact ⟨evolves_of_users rfl rfl, hd.kept, by simp [TaskOk]⟩
  | fetch _ hrows _ hpack _ hstage =>
    refine ⟨evolves_of_users rfl rfl, hd.kept, fun t' ht' => ?_⟩
    obtain rfl := List.mem_singleton.mp ht'
    refine ⟨?_, ?_⟩
    · rw [hrows]
      intro id hid
      obtain ⟨u, hu, rfl⟩ := List.mem_map.mp hid
      exact hd.sequenced.ids u (mem_fetchOpenWindow.mp hu).1
    · rcases hstage with rfl | ⟨-, hshort⟩
      · intro hne
        exact absurd rfl hne
      · intro _ u _ hwindow hout
        rw [hpack, packOf_of_le hshort] at hout
        exact absurd hwindow hout
  | mark locked b =>
    refine ⟨evolves_mark b d, fun u hu => kept_mark hd.kept hu, fun t' ht' => ?_⟩
    obtain rfl := List.mem_singleton.mp ht'
    exact runOk_marked ht
  | move hstage _ =>
    refine ⟨evolves_of_users rfl rfl, hd.kept, fun t' ht' => ?_⟩
    obtain rfl := List.mem_singleton.mp ht'
    have hrun : RunOk d _ _ := ht
    exact ⟨hrun.ids, fun _ => hrun.outside hstage.1⟩
  | fail locked b status =>
    have ha := agrees_release locked (markPackFailed b status d)
    refine ⟨?_, fun u hu => ?_, by simp⟩
    · exact (evolves_fail hok).trans (evolves_of_users ha.users ha.rounds)
    · exact kept_of_agrees ha.assistants ha.rounds (kept_fail hd.kept hok (ha.users ▸ hu))
  | persist hp =>
    exact ⟨evolves_persist hp,
      fun u hu => kept_persist hd.kept ht (hok hp.messages_ne) hp hu, by simp⟩

theorem windowData_initial {d : ChatData} (h : chatSystem.initial d) : WindowData d := by
  obtain ⟨husers, hassistants, -⟩ := h
  refine ⟨⟨?_, ?_, ?_⟩, ?_⟩ <;> simp [husers, hassistants]

theorem reachable_holds {w : World ChatData ChatTask}
    (h : chatSystem.machine.ReachableUnder (TaskSystem.guard WindowCurrent) w) :
    TaskSystem.Holds WindowData TaskOk (fun _ _ => True) w := by
  refine TaskSystem.reachableUnder_holds (fun _ _ _ => trivial) (fun d => windowData_initial) ?_ ?_ h
  · intro d i ts _ hts
    exact ⟨fun t ht => taskOk_of_light (chatAccept_light hts t ht), List.pairwise_of_forall fun _ _ => trivial,
      fun _ _ _ => trivial⟩
  · intro d t i d' ts hd ht hok hadvance
    exact step_establishes hd ht hok (chatAdvance_step hadvance)

/-- While every persisted round has seen the rows it closes and no delivered row is marked failed,
every user row is in the window, answered by a committed round that contains it, or skipped; so no
assistant row stands above a user row that is neither answered nor skipped. -/
theorem no_message_lost (w : World ChatData ChatTask)
    (h : chatSystem.machine.ReachableUnder (TaskSystem.guard WindowCurrent) w) :
    (∀ u ∈ w.data.users, Kept w.data u) ∧
      ∀ a ∈ w.data.assistants, ∀ u ∈ w.data.users, u.sortSeq < a.sortSeq →
        Answered w.data u ∨ u.skippedInPrompt = true := by
  have hkept := (reachable_holds h).data.kept
  refine ⟨hkept, fun a ha u hu hlt => ?_⟩
  rcases hkept u hu with hopen | hclosed
  · have := isOpen_iff.mp hopen a ha
    omega
  · exact hclosed

/-- The message is answered by two assistant rows. -/
def answeredChat : World ChatData ChatTask :=
  chatSystem.machine.after emptyChat (checkedRun ++ [.task 0 (.persist 2)])

theorem no_message_lost_answered :
    answeredChat.data.users = [⟨0, 1, .delivered, false, some 0⟩] ∧
      ∀ u ∈ answeredChat.data.users, Kept answeredChat.data u :=
  ⟨by decide,
    (no_message_lost answeredChat
      (Machine.reachableUnder_after emptyChat_start (by decide) (by decide))).1⟩

/-- A second message is committed while the checks of the first reply run. -/
def overtakenChat : World ChatData ChatTask :=
  chatSystem.machine.after emptyChat
    (checkedRun ++ [.request .send, .task 1 .next, .task 1 .next, .task 0 (.persist 1)])

/-- Its row is closed by a round that has not seen it. -/
theorem overtaken_message_lost :
    chatSystem.machine.Reachable overtakenChat ∧
      ∃ u ∈ overtakenChat.data.users, ¬ Kept overtakenChat.data u :=
  ⟨Machine.reachable_after emptyChat_start (by decide), by decide⟩

end CompanionBackend.ChatWindow
