import CompanionBackend.DelayedJobs

/-!
# Delayed jobs are delivered at most once

A worker owns the row it has claimed until the row has its final status. Of each step it is said
once what becomes of the rows, from which follow the exclusive claims, one delivery for each row,
and that no row stays behind unless a step outside the try blocks raises.
-/
namespace CompanionBackend.DelayedDelivery

open Runs TaskSystems TaskSystem ProviderEvents DelayedJobs
open GrowthCounters (Instant)

/-- A row of one of the tables. -/
inductive JobKey
  | aware (id : ℕ)
  | comment (id : ℕ)
  deriving DecidableEq

namespace JobData

/-- The status of a row. -/
def status (d : JobData) : JobKey → Option Status
  | .aware id => (d.aware.queue[id]?).map AwareRow.status
  | .comment id => (d.reply.comments[id]?).map FeedComment.genStatus

end JobData

open JobData (status)

/-- The row that the task has claimed. -/
def claimed : JobTask → Option JobKey
  | .aware s _ => s.claimed.map .aware
  | .reply s _ => s.claimed.map .comment
  | _ => none

/-! ### What a step does to the rows -/

/-- An exception at this stage leaves `consume_record`, and the row as it is. -/
def awareUnprotected : AwareStage → Bool
  | .loading _ | .marking _ _ false | .allocating _ _ _ | .inserting _ | .sending _
  | .committing _ => true
  | _ => false

/-- An exception at this stage leaves `consume_one`, and the comment as it is. -/
def replyUnprotected : ReplyStage → Bool
  | .loading _ | .marking _ | .storing _ _ => true
  | _ => false

/-- The step raises where nobody looks after the claimed row. -/
def Abandons (d : JobData) : JobTask → JobInput → Prop
  | .aware s _, .raised _ => awareUnprotected s = true
  | .aware (.claiming id) _, .lost _ _ => status d (.aware id) = some .pending
  | .reply s _, .raised _ => replyUnprotected s = true
  | .reply (.claiming id) _, .lost _ _ => status d (.comment id) = some .pending
  | _, _ => False

instance (d : JobData) (t : JobTask) (i : JobInput) : Decidable (Abandons d t i) := by
  unfold Abandons
  split <;> infer_instance

/-- The row is to become failed. -/
def isMarking : AwareStage → Bool
  | .marking _ _ _ => true
  | _ => false

/-- What a step of a worker does to the queue: `lossy` steps may leave a claimed row behind. -/
inductive AwareEffect (lossy : Prop) (d : AwareData) (s : AwareStage) :
    AwareData → Option AwareStage → Prop
  | quiet {d' next} (hqueue : d'.queue = d.queue) (hmessages : d'.messages = d.messages)
      (howner : next.bind AwareStage.claimed = s.claimed)
      (hmarking : isMarking s = true → ∀ s' ∈ next, isMarking s' = true := by simp [isMarking]) :
      AwareEffect lossy d s d' next
  | left {d'} (hqueue : d'.queue = d.queue) (hmessages : d'.messages = d.messages)
      (hleft : lossy ∨ ∀ id, s.claimed = some id → d.queue[id]? = none) :
      AwareEffect lossy d s d' none
  | claimed {id row next} (hs : s = .claiming id) (hrow : d.queue[id]? = some row)
      (hpending : row.status = .pending)
      (hnext : next = some (.loading id) ∨ next = none ∧ lossy) :
      AwareEffect lossy d s (d.update id fun r => { r with status := .generating }) next
  | failed {id next} (reason : Text) (hs : s.claimed = some id)
      (hnext : ∀ s' ∈ next, ∃ reason', s' = .marking id reason' false) :
      AwareEffect lossy d s (d.fail id reason) next
  | sent {m} (hs : s = .committing m) : AwareEffect lossy d s (d.send m) none

theorem nextAttempt_claimed (id : ℕ) (row : AwareRow) (attempt : ℕ) :
    (nextAttempt id row attempt).claimed = some id := by
  unfold nextAttempt
  split_ifs <;> rfl

theorem dispatch_claimed (id : ℕ) (row : AwareRow) : (dispatch id row).claimed = some id := by
  unfold dispatch
  split <;> rfl

/-- A step that goes well. -/
theorem awareEffect_of_advance {d d' : AwareData} {now : Instant} {s : AwareStage} {a : Answer}
    {next : Option AwareStage} (h : d.advance now s a = some (d', next)) :
    AwareEffect False d s d' next := by
  unfold AwareData.advance at h
  split at h
  · split at h
    · rename_i id row hrow
      split_ifs at h with hpending
      · cases h
        exact .claimed rfl hrow hpending (Or.inl rfl)
      · cases h
        exact .quiet rfl rfl rfl
    · cases h
      exact .quiet rfl rfl rfl
  · rename_i id
    cases h
    cases hrow : d.queue[id]? with
    | none =>
      refine .left rfl rfl (Or.inr ?_)
      rintro k hk
      cases hk
      exact hrow
    | some row => exact .quiet rfl rfl (dispatch_claimed id row)
  · rename_i id row found
    cases h
    exact .quiet rfl rfl (by cases found <;> rfl)
  · cases h
    exact .quiet rfl rfl rfl
  · split at h
    · cases h
      exact .quiet rfl rfl rfl
    · cases h
      exact .quiet rfl rfl (nextAttempt_claimed _ _ _)
  · rename_i id row text hit
    cases h
    exact .quiet rfl rfl (by cases hit <;> rfl)
  · cases h
    exact .failed _ rfl (by simp)
  · split_ifs at h
    cases h
    exact .quiet rfl rfl rfl
  · cases h
    exact .quiet rfl rfl rfl
  · cases h
    exact .quiet rfl rfl rfl
  · cases h
    exact .sent rfl
  · cases h

theorem release_queue (d : AwareData) (s : AwareStage) : (d.release s).queue = d.queue := by
  unfold AwareData.release
  split <;> rfl

theorem release_messages (d : AwareData) (s : AwareStage) :
    (d.release s).messages = d.messages := by
  unfold AwareData.release
  split <;> rfl

/-- A step that raises. -/
theorem awareEffect_of_raised (d : AwareData) (s : AwareStage) (e : Text) :
    AwareEffect (awareUnprotected s = true) d s (d.release s) (s.caught e) := by
  have hqueue := release_queue d s
  have hmessages := release_messages d s
  cases s with
  | polling => exact .quiet hqueue hmessages rfl
  | claiming id => exact .quiet hqueue hmessages rfl
  | loading id => exact .left hqueue hmessages (Or.inl rfl)
  | contextual id row => exact .quiet hqueue hmessages rfl
  | rendering id row => exact .quiet hqueue hmessages rfl
  | calling id row attempt => exact .quiet hqueue hmessages (nextAttempt_claimed id row attempt)
  | checking id row text => exact .quiet hqueue hmessages rfl
  | marking id reason inTry =>
    cases inTry with
    | true => exact .quiet hqueue hmessages rfl (by simp [AwareStage.caught, isMarking])
    | false => exact .left hqueue hmessages (Or.inl rfl)
  | allocating id row text => exact .left hqueue hmessages (Or.inl rfl)
  | inserting m => exact .left hqueue hmessages (Or.inl rfl)
  | sending m => exact .left hqueue hmessages (Or.inl rfl)
  | committing m => exact .left hqueue hmessages (Or.inl rfl)

/-- A step that raises after its commit. -/
theorem awareEffect_of_lost {d d' : AwareData} {now : Instant} {s : AwareStage} {e : Text}
    {next : Option AwareStage} (h : d.lost now e s = some (d', next)) :
    AwareEffect (∃ id, s = .claiming id ∧ (d.queue[id]?).map AwareRow.status = some .pending)
      d s d' next := by
  unfold AwareData.lost at h
  split at h
  · rename_i id
    obtain ⟨r, hr, heq⟩ := Option.map_eq_some_iff.mp h
    cases heq
    unfold AwareData.advance at hr
    dsimp only at hr
    split at hr
    · rename_i row hrow
      split_ifs at hr with hpending
      · cases hr
        exact .claimed rfl hrow hpending (Or.inr ⟨rfl, id, rfl, by simp [hrow, hpending]⟩)
      · cases hr
        exact .quiet rfl rfl rfl
    · cases hr
      exact .quiet rfl rfl rfl
  · rename_i id reason inTry
    obtain ⟨r, hr, heq⟩ := Option.map_eq_some_iff.mp h
    cases heq
    cases hr
    refine .failed reason rfl ?_
    cases inTry <;> simp [AwareStage.caught]
  · obtain ⟨r, hr, heq⟩ := Option.map_eq_some_iff.mp h
    cases heq
    cases hr
    exact .sent rfl
  · cases h

/-- What a step of a worker does to the comments. -/
inductive ReplyEffect (lossy : Prop) (d : ReplyData) (s : ReplyStage) :
    ReplyData → Option ReplyStage → Prop
  | quiet {next} (howner : next.bind ReplyStage.claimed = s.claimed) : ReplyEffect lossy d s d next
  | left (hleft : lossy ∨ ∀ id, s.claimed = some id → d.comments[id]? = none) :
      ReplyEffect lossy d s d none
  | claimed {id c next} (hs : s = .claiming id) (hrow : d.comments[id]? = some c)
      (hpending : c.genStatus = .pending) (hnext : next = some (.loading id) ∨ next = none ∧ lossy) :
      ReplyEffect lossy d s (d.update id fun c => { c with genStatus := .generating }) next
  | failed {id} (hs : s.claimed = some id) :
      ReplyEffect lossy d s (d.update id fun c => { c with genStatus := .failed }) none
  | stored {id now reply} (hs : s.claimed = some id) :
      ReplyEffect lossy d s (d.store now id reply) none

theorem nextReplyAttempt_claimed (id attempt : ℕ) :
    (nextReplyAttempt id attempt).claimed = some id := by
  unfold nextReplyAttempt
  split_ifs <;> rfl

theorem replyEffect_of_advance {d d' : ReplyData} {now : Instant} {s : ReplyStage} {a : Answer}
    {next : Option ReplyStage} (h : d.advance now s a = some (d', next)) :
    ReplyEffect False d s d' next := by
  unfold ReplyData.advance at h
  split at h
  · split at h
    · rename_i id c hrow
      split_ifs at h with hpending
      · cases h
        exact .claimed rfl hrow hpending (Or.inl rfl)
      · cases h
        exact .quiet rfl
    · cases h
      exact .quiet rfl
  · rename_i id
    cases h
    cases hrow : d.comments[id]? with
    | none =>
      refine .left (Or.inr ?_)
      rintro k hk
      cases hk
      exact hrow
    | some row => exact .quiet rfl
  · cases h
    exact .quiet rfl
  · split at h
    · cases h
      exact .quiet rfl
    · cases h
      exact .quiet (nextReplyAttempt_claimed _ _)
  · rename_i id reply hit
    cases h
    exact .quiet (by cases hit <;> rfl)
  · cases h
    exact .failed rfl
  · cases h
    exact .stored rfl
  · cases h

theorem replyEffect_of_raised (d : ReplyData) (s : ReplyStage) :
    ReplyEffect (replyUnprotected s = true) d s d s.caught := by
  cases s with
  | polling => exact .quiet rfl
  | claiming id => exact .quiet rfl
  | loading id => exact .left (Or.inl rfl)
  | rendering id => exact .quiet rfl
  | calling id attempt => exact .quiet (nextReplyAttempt_claimed id attempt)
  | checking id reply => exact .quiet rfl
  | marking id => exact .left (Or.inl rfl)
  | storing id reply => exact .left (Or.inl rfl)

theorem replyEffect_of_lost {d d' : ReplyData} {now : Instant} {s : ReplyStage}
    {next : Option ReplyStage} (h : d.lost now s = some (d', next)) :
    ReplyEffect (∃ id, s = .claiming id ∧ (d.comments[id]?).map FeedComment.genStatus = some .pending)
      d s d' next := by
  unfold ReplyData.lost at h
  split at h
  · rename_i id
    obtain ⟨r, hr, heq⟩ := Option.map_eq_some_iff.mp h
    cases heq
    unfold ReplyData.advance at hr
    dsimp only at hr
    split at hr
    · rename_i row hrow
      split_ifs at hr with hpending
      · cases hr
        exact .claimed rfl hrow hpending (Or.inr ⟨rfl, id, rfl, by simp [hrow, hpending]⟩)
      · cases hr
        exact .quiet rfl
    · cases hr
      exact .quiet rfl
  · obtain ⟨r, hr, heq⟩ := Option.map_eq_some_iff.mp h
    cases heq
    cases hr
    exact .failed rfl
  · obtain ⟨r, hr, heq⟩ := Option.map_eq_some_iff.mp h
    cases heq
    cases hr
    exact .stored rfl
  · cases h

/-! ### The statuses -/

/-- One row of a list is changed, and a reading of it becomes `b`. -/
theorem map_getElem?_modify {α β : Type*} (g : α → β) {f : α → α} {b : β} (hf : ∀ a, g (f a) = b)
    (l : List α) (i j : ℕ) :
    ((l.modify i f)[j]?).map g =
      if j = i then ((l[i]?).map g).map fun _ => b else (l[j]?).map g := by
  rw [List.getElem?_modify]
  by_cases h : j = i
  · subst h
    cases l[j]? <;> simp [hf]
  · have h' : i ≠ j := fun hij => h hij.symm
    cases l[j]? <;> simp [h, h']

/-- A row is added to a list. -/
theorem map_getElem?_concat {α β : Type*} (g : α → β) (l : List α) (a : α) (i : ℕ) :
    ((l ++ [a])[i]?).map g = if i = l.length then some (g a) else (l[i]?).map g := by
  rcases Nat.lt_trichotomy i l.length with hlt | rfl | hgt
  · rw [List.getElem?_append_left hlt, if_neg (by omega)]
  · simp
  · rw [List.getElem?_eq_none (by simp; omega), List.getElem?_eq_none (by omega),
      if_neg (by omega)]

/-- What a step does to the statuses, given the rows that the task has claimed before and after. -/
inductive Effect (lossy : Prop) (d d' : JobData) (before after : Option JobKey) : Prop
  | quiet (hstatus : ∀ k, status d' k = status d k) (howner : after = before)
  | left (hstatus : ∀ k, status d' k = status d k) (hafter : after = none)
      (hleft : lossy ∨ ∀ k, before = some k → status d k = none)
  | created (key : JobKey) (hnew : status d key = none)
      (hstatus : ∀ k, status d' k = if k = key then some .pending else status d k)
      (hbefore : before = none) (hafter : after = none)
  | claimed (key : JobKey) (hpending : status d key = some .pending)
      (hstatus : ∀ k, status d' k = if k = key then some .generating else status d k)
      (hbefore : before = none) (hafter : after = some key ∨ after = none ∧ lossy)
  | closed (key : JobKey) (s : Status) (hs : s ≠ .pending ∧ s ≠ .generating)
      (hbefore : before = some key)
      (hstatus : ∀ k, status d' k =
        if k = key then (status d key).map fun _ => s else status d k)
      (hafter : ∀ k, after = some k → k = key ∧ s = .failed)

theorem Effect.mono {lossy lossy' : Prop} {d d' : JobData} {before after : Option JobKey}
    (h : Effect lossy d d' before after) (himp : lossy → lossy') :
    Effect lossy' d d' before after := by
  cases h with
  | quiet hstatus howner => exact .quiet hstatus howner
  | left hstatus hafter hleft => exact .left hstatus hafter (hleft.imp_left himp)
  | created key hnew hstatus hbefore hafter => exact .created key hnew hstatus hbefore hafter
  | claimed key hpending hstatus hbefore hafter =>
    exact .claimed key hpending hstatus hbefore (hafter.imp_right fun h => ⟨h.1, himp h.2⟩)
  | closed key s hs hbefore hstatus hafter => exact .closed key s hs hbefore hstatus hafter

/-- The row of the task that a step leaves. -/
def owner (ts : List JobTask) : Option JobKey := ts.head?.bind claimed

theorem awareTasks_owner (next : Option AwareStage) (rest : List ℕ) :
    owner (awareTasks next rest) = (next.bind AwareStage.claimed).map JobKey.aware := by
  rcases next with _ | s
  · rcases rest with _ | ⟨id, rest⟩ <;> rfl
  · rfl

theorem replyTasks_owner (next : Option ReplyStage) (rest : List ℕ) :
    owner (replyTasks next rest) = (next.bind ReplyStage.claimed).map JobKey.comment := by
  rcases next with _ | s
  · rcases rest with _ | ⟨id, rest⟩ <;> rfl
  · rfl

theorem awareTasks_length (next : Option AwareStage) (rest : List ℕ) :
    (awareTasks next rest).length ≤ 1 := by
  rcases next with _ | s
  · rcases rest with _ | ⟨id, rest⟩ <;> simp [awareTasks]
  · simp [awareTasks]

theorem replyTasks_length (next : Option ReplyStage) (rest : List ℕ) :
    (replyTasks next rest).length ≤ 1 := by
  rcases next with _ | s
  · rcases rest with _ | ⟨id, rest⟩ <;> simp [replyTasks]
  · simp [replyTasks]

theorem status_update_aware (d : JobData) (a : AwareData) (id : ℕ) {f : AwareRow → AwareRow}
    {s : Status} (hf : ∀ r, (f r).status = s) (ha : a.queue = d.aware.queue.modify id f)
    (k : JobKey) :
    status { d with aware := a } k =
      if k = .aware id then (status d (.aware id)).map fun _ => s else status d k := by
  cases k with
  | aware j =>
    simp only [status, ha, JobKey.aware.injEq]
    exact map_getElem?_modify AwareRow.status hf _ id j
  | comment j => simp [status]

theorem status_update_reply (d : JobData) (a : ReplyData) (id : ℕ) {f : FeedComment → FeedComment}
    {s : Status} (hf : ∀ r, (f r).genStatus = s) (ha : a.comments = d.reply.comments.modify id f)
    (k : JobKey) :
    status { d with reply := a } k =
      if k = .comment id then (status d (.comment id)).map fun _ => s else status d k := by
  cases k with
  | aware j => simp [status]
  | comment j =>
    simp only [status, ha, JobKey.comment.injEq]
    exact map_getElem?_modify FeedComment.genStatus hf _ id j

theorem AwareEffect.statuses {lossy : Prop} {d : JobData} {s : AwareStage} {a : AwareData}
    {next : Option AwareStage} (h : AwareEffect lossy d.aware s a next) :
    Effect lossy d { d with aware := a } (s.claimed.map .aware)
      ((next.bind AwareStage.claimed).map .aware) := by
  have hsame : a.queue = d.aware.queue → ∀ k, status { d with aware := a } k = status d k := by
    intro hqueue k
    cases k <;> simp [status, hqueue]
  cases h with
  | quiet hqueue _ howner => exact .quiet (hsame hqueue) (by rw [howner])
  | left hqueue _ hleft =>
    refine .left (hsame hqueue) rfl (hleft.imp_right fun hnone k hk => ?_)
    obtain ⟨id, hid, rfl⟩ := Option.map_eq_some_iff.mp hk
    simp [status, hnone id hid]
  | @claimed id row _ hs hrow hpending hnext =>
    subst hs
    have hp : status d (.aware id) = some .pending := by simp [status, hrow, hpending]
    refine .claimed (.aware id) hp (fun k => ?_) rfl ?_
    · rw [status_update_aware d _ id (s := .generating) (fun _ => rfl) rfl k, hp]
      rfl
    · rcases hnext with rfl | ⟨rfl, hlossy⟩
      · exact Or.inl rfl
      · exact Or.inr ⟨rfl, hlossy⟩
  | @failed id _ reason hs hnext =>
    refine .closed (.aware id) .failed (by decide) (by rw [hs]; rfl) (fun k => ?_) (fun k hk => ?_)
    · exact status_update_aware d (d.aware.fail id reason) id
        (f := fun r => { r with status := .failed, failReason := some (reason.take 255) })
        (fun _ => rfl) rfl k
    · obtain ⟨j, hj, rfl⟩ := Option.map_eq_some_iff.mp hk
      obtain ⟨s', hs', hclaimed⟩ := Option.bind_eq_some_iff.mp hj
      obtain ⟨reason', rfl⟩ := hnext s' hs'
      cases hclaimed
      exact ⟨rfl, rfl⟩
  | @sent m hs =>
    subst hs
    refine .closed (.aware m.queueId) .sent (by decide) rfl (fun k => ?_) (by simp)
    exact status_update_aware d (d.aware.send m) m.queueId
      (f := fun r => { r with status := .sent, agentMessageId := some m.id }) (fun _ => rfl) rfl k

theorem ReplyEffect.statuses {lossy : Prop} {d : JobData} {s : ReplyStage} {a : ReplyData}
    {next : Option ReplyStage} (h : ReplyEffect lossy d.reply s a next) :
    Effect lossy d { d with reply := a } (s.claimed.map .comment)
      ((next.bind ReplyStage.claimed).map .comment) := by
  cases h with
  | quiet howner => exact .quiet (fun k => rfl) (by rw [howner])
  | left hleft =>
    refine .left (fun k => rfl) rfl (hleft.imp_right fun hnone k hk => ?_)
    obtain ⟨id, hid, rfl⟩ := Option.map_eq_some_iff.mp hk
    simp [status, hnone id hid]
  | @claimed id row _ hs hrow hpending hnext =>
    subst hs
    have hp : status d (.comment id) = some .pending := by simp [status, hrow, hpending]
    refine .claimed (.comment id) hp (fun k => ?_) rfl ?_
    · rw [status_update_reply d _ id (s := .generating) (fun _ => rfl) rfl k, hp]
      rfl
    · rcases hnext with rfl | ⟨rfl, hlossy⟩
      · exact Or.inl rfl
      · exact Or.inr ⟨rfl, hlossy⟩
  | @failed id hs =>
    refine .closed (.comment id) .failed (by decide) (by rw [hs]; rfl) (fun k => ?_) (by simp)
    exact status_update_reply d (d.reply.update id fun c => { c with genStatus := .failed }) id
      (f := fun c => { c with genStatus := .failed }) (fun _ => rfl) rfl k
  | @stored id now reply hs =>
    refine .closed (.comment id) .ready (by decide) (by rw [hs]; rfl) (fun k => ?_) (by simp)
    exact status_update_reply d (d.reply.store now id reply) id
      (f := fun c => { c with lxmReply := some reply, lxmReplyAt := some now, genStatus := .ready })
      (fun _ => rfl) rfl k

/-- One step of any task. -/
theorem effect_of_advance {d d' : JobData} {t : JobTask} {i : JobInput} {ts : List JobTask}
    (h : jobSystem.advance d t i = some (d', ts)) :
    ts.length ≤ 1 ∧ Effect (Abandons d t i) d d' (claimed t) (owner ts) := by
  cases t with
  | aware s rest =>
    change d.advanceAware s rest i = some (d', ts) at h
    unfold JobData.advanceAware at h
    split at h
    · split_ifs at h with hpolling hdone
      · cases h
        subst hpolling
        exact ⟨awareTasks_length _ _, .quiet (fun k => rfl) (awareTasks_owner _ _)⟩
      · obtain ⟨⟨a, next⟩, hr, heq⟩ := Option.map_eq_some_iff.mp h
        cases heq
        refine ⟨awareTasks_length _ _, ?_⟩
        rw [awareTasks_owner]
        exact (awareEffect_of_advance hr).statuses
    · cases h
      refine ⟨awareTasks_length _ _, ?_⟩
      rw [awareTasks_owner]
      exact (awareEffect_of_raised d.aware s _).statuses
    · obtain ⟨⟨a, next⟩, hr, heq⟩ := Option.map_eq_some_iff.mp h
      cases heq
      refine ⟨awareTasks_length _ _, ?_⟩
      rw [awareTasks_owner]
      refine (awareEffect_of_lost hr).statuses.mono ?_
      rintro ⟨id, rfl, hpending⟩
      exact hpending
    · cases h
  | reply s rest =>
    change d.advanceReply s rest i = some (d', ts) at h
    unfold JobData.advanceReply at h
    split at h
    · split_ifs at h with hpolling hdone
      · cases h
        subst hpolling
        exact ⟨replyTasks_length _ _, .quiet (fun k => rfl) (replyTasks_owner _ _)⟩
      · obtain ⟨⟨a, next⟩, hr, heq⟩ := Option.map_eq_some_iff.mp h
        cases heq
        refine ⟨replyTasks_length _ _, ?_⟩
        rw [replyTasks_owner]
        exact (replyEffect_of_advance hr).statuses
    · cases h
      refine ⟨replyTasks_length _ _, ?_⟩
      rw [replyTasks_owner]
      exact (replyEffect_of_raised d.reply s).statuses
    · obtain ⟨⟨a, next⟩, hr, heq⟩ := Option.map_eq_some_iff.mp h
      cases heq
      refine ⟨replyTasks_length _ _, ?_⟩
      rw [replyTasks_owner]
      refine (replyEffect_of_lost hr).statuses.mono ?_
      rintro ⟨id, rfl, hpending⟩
      exact hpending
    · cases h
  | enqueuing userId postId kind dueAt special =>
    dsimp only [jobSystem] at h
    split at h
    · cases h
      refine ⟨by simp, .created (.aware d.aware.queue.length) (by simp [status]) ?_ rfl rfl⟩
      rintro (id | id)
      · simp only [status, JobKey.aware.injEq]
        exact map_getElem?_concat AwareRow.status _ _ id
      · rfl
    · cases h
      exact ⟨by simp, .quiet (fun k => rfl) rfl⟩
    · cases h
  | commenting dueAt =>
    dsimp only [jobSystem] at h
    split at h
    · cases h
      refine ⟨by simp, .created (.comment d.reply.comments.length) (by simp [status]) ?_ rfl rfl⟩
      rintro (id | id)
      · rfl
      · simp only [status, JobKey.comment.injEq]
        exact map_getElem?_concat FeedComment.genStatus _ _ id
    · cases h
      exact ⟨by simp, .quiet (fun k => rfl) rfl⟩
    · cases h

/-! ### One delivery for each row -/

/-- The messages that were written for a row of the queue. -/
def messagesOf (d : AwareData) (id : ℕ) : List AgentMessage :=
  d.messages.filter fun m => m.queueId = id

/-- A sent row has the one message it names, and every other row has none. -/
def AwareCorrect (row : AwareRow) (mine : List AgentMessage) : Prop :=
  if row.status = .sent then ∃ m, mine = [m] ∧ row.agentMessageId = some m.id else mine = []

/-- A comment that is ready got one reply, and every other comment got none. -/
def CommentCorrect (c : FeedComment) (replies : ℕ) : Prop :=
  if c.genStatus = .ready then replies = 1 ∧ c.lxmReply.isSome = true
  else replies = 0 ∧ c.lxmReply = none

structure DeliveredOnce (d : JobData) : Prop where
  message : ∀ id row, d.aware.queue[id]? = some row → AwareCorrect row (messagesOf d.aware id)
  addressed : ∀ m ∈ d.aware.messages, m.queueId < d.aware.queue.length
  reply : ∀ id c, d.reply.comments[id]? = some c → CommentCorrect c (d.reply.replied.count id)
  answered : ∀ id ∈ d.reply.replied, id < d.reply.comments.length

/-- The row is in the hands of its worker, or given up by it. -/
def held (d : JobData) (k : JobKey) : Prop :=
  status d k = some .generating ∨ status d k = some .failed

theorem status_of_modify {α : Type*} {l : List α} {i j : ℕ} {f : α → α} {b : α}
    (h : (l.modify i f)[j]? = some b) :
    (j = i ∧ ∃ a, l[i]? = some a ∧ b = f a) ∨ (j ≠ i ∧ l[j]? = some b) := by
  rw [List.getElem?_modify] at h
  by_cases hij : j = i
  · subst hij
    cases hrow : l[j]? with
    | none => simp [hrow] at h
    | some a =>
      simp only [hrow, if_true, Option.map_eq_map, Option.map_some, Option.some.injEq] at h
      exact Or.inl ⟨rfl, a, rfl, h.symm⟩
  · have hji : i ≠ j := fun h => hij h.symm
    simp only [if_neg hji, Option.map_eq_map, Option.map_id_fun', id_eq] at h
    exact Or.inr ⟨hij, h⟩

theorem AwareEffect.deliveredOnce {lossy : Prop} {d : JobData} {s : AwareStage} {a : AwareData}
    {next : Option AwareStage} (h : AwareEffect lossy d.aware s a next) (hd : DeliveredOnce d)
    (howns : ∀ id, s.claimed = some id → held d (.aware id)) :
    DeliveredOnce { d with aware := a } := by
  have hunsent : ∀ id row, d.aware.queue[id]? = some row → s.claimed = some id →
      messagesOf d.aware id = [] := by
    intro id row hrow hs
    have hcorrect := hd.message id row hrow
    have hstatus : row.status ≠ .sent := by
      have hheld := howns id hs
      simp only [held, status, hrow, Option.map_some, Option.some.injEq] at hheld
      rcases hheld with h | h <;> simp [h]
    rwa [AwareCorrect, if_neg hstatus] at hcorrect
  have hsame : a.queue = d.aware.queue → a.messages = d.aware.messages →
      DeliveredOnce { d with aware := a } := by
    intro hqueue hmessages
    refine ⟨?_, ?_, hd.reply, hd.answered⟩
    · intro id row hrow
      rw [messagesOf, hmessages]
      exact hd.message id row (hqueue ▸ hrow)
    · intro m hm
      rw [hqueue]
      exact hd.addressed m (hmessages ▸ hm)
  cases h with
  | quiet hqueue hmessages _ => exact hsame hqueue hmessages
  | left hqueue hmessages _ => exact hsame hqueue hmessages
  | @claimed id row _ hs hrow hpending hnext =>
    refine ⟨?_, ?_, hd.reply, hd.answered⟩
    · intro j r hj
      rcases status_of_modify hj with ⟨rfl, r₀, hr₀, rfl⟩ | ⟨_, hj⟩
      · have hcorrect := hd.message j r₀ hr₀
        obtain rfl : row = r₀ := Option.some.inj (hrow.symm.trans hr₀)
        rw [AwareCorrect, if_neg (by simp [hpending])] at hcorrect
        rw [AwareCorrect, if_neg (by simp)]
        exact hcorrect
      · exact hd.message j r hj
    · intro m hm
      simpa [AwareData.update] using hd.addressed m hm
  | @failed id _ reason hs hnext =>
    refine ⟨?_, ?_, hd.reply, hd.answered⟩
    · intro j r hj
      rcases status_of_modify hj with ⟨rfl, r₀, hr₀, rfl⟩ | ⟨_, hj⟩
      · rw [AwareCorrect, if_neg (by simp)]
        exact hunsent j r₀ hr₀ hs
      · exact hd.message j r hj
    · intro m hm
      simpa [AwareData.fail, AwareData.update] using hd.addressed m hm
  | @sent m hs =>
    have hs : s.claimed = some m.queueId := by rw [hs]; rfl
    refine ⟨?_, ?_, hd.reply, hd.answered⟩
    · intro j r hj
      have hmine : messagesOf (d.aware.send m) j =
          messagesOf d.aware j ++ if m.queueId = j then [m] else [] := by
        by_cases h : m.queueId = j <;> simp [messagesOf, AwareData.send, h]
      rw [hmine]
      rcases status_of_modify hj with ⟨rfl, r₀, hr₀, rfl⟩ | ⟨hne, hj⟩
      · rw [AwareCorrect, if_pos rfl, hunsent m.queueId r₀ hr₀ hs]
        exact ⟨m, by simp, rfl⟩
      · rw [if_neg fun h => hne h.symm, List.append_nil]
        exact hd.message j r hj
    · intro m' hm'
      have hlength : (d.aware.send m).queue.length = d.aware.queue.length := by
        simp [AwareData.send, AwareData.update]
      rw [hlength]
      rcases List.mem_append.mp hm' with hold | hnew
      · exact hd.addressed m' hold
      · obtain rfl : m' = m := by simpa using hnew
        by_contra hlt
        have hnone : d.aware.queue[m'.queueId]? = none := List.getElem?_eq_none (by omega)
        have hheld := howns m'.queueId hs
        simp [held, status, hnone] at hheld

theorem ReplyEffect.deliveredOnce {lossy : Prop} {d : JobData} {s : ReplyStage} {a : ReplyData}
    {next : Option ReplyStage} (h : ReplyEffect lossy d.reply s a next) (hd : DeliveredOnce d)
    (howns : ∀ id, s.claimed = some id → held d (.comment id)) :
    DeliveredOnce { d with reply := a } := by
  have hunready : ∀ id c, d.reply.comments[id]? = some c → s.claimed = some id →
      d.reply.replied.count id = 0 ∧ c.lxmReply = none := by
    intro id c hrow hs
    have hcorrect := hd.reply id c hrow
    have hstatus : c.genStatus ≠ .ready := by
      have hheld := howns id hs
      simp only [held, status, hrow, Option.map_some, Option.some.injEq] at hheld
      rcases hheld with h | h <;> simp [h]
    rwa [CommentCorrect, if_neg hstatus] at hcorrect
  cases h with
  | quiet _ => exact ⟨hd.message, hd.addressed, hd.reply, hd.answered⟩
  | left _ => exact ⟨hd.message, hd.addressed, hd.reply, hd.answered⟩
  | @claimed id c _ hs hrow hpending hnext =>
    refine ⟨hd.message, hd.addressed, ?_, ?_⟩
    · intro j r hj
      rcases status_of_modify hj with ⟨rfl, r₀, hr₀, rfl⟩ | ⟨_, hj⟩
      · have hcorrect := hd.reply j r₀ hr₀
        obtain rfl : c = r₀ := Option.some.inj (hrow.symm.trans hr₀)
        rw [CommentCorrect, if_neg (by simp [hpending])] at hcorrect
        rw [CommentCorrect, if_neg (by simp)]
        exact hcorrect
      · exact hd.reply j r hj
    · intro j hj
      simpa [ReplyData.update] using hd.answered j hj
  | @failed id hs =>
    refine ⟨hd.message, hd.addressed, ?_, ?_⟩
    · intro j r hj
      rcases status_of_modify hj with ⟨rfl, r₀, hr₀, rfl⟩ | ⟨_, hj⟩
      · rw [CommentCorrect, if_neg (by simp)]
        exact hunready j r₀ hr₀ hs
      · exact hd.reply j r hj
    · intro j hj
      simpa [ReplyData.update] using hd.answered j hj
  | @stored id now reply hs =>
    refine ⟨hd.message, hd.addressed, ?_, ?_⟩
    · intro j r hj
      have hcount : (d.reply.store now id reply).replied.count j =
          d.reply.replied.count j + if id = j then 1 else 0 := by
        by_cases h : id = j <;> simp [ReplyData.store, h]
      rw [hcount]
      rcases status_of_modify hj with ⟨rfl, r₀, hr₀, rfl⟩ | ⟨hne, hj⟩
      · rw [CommentCorrect, if_pos rfl, (hunready j r₀ hr₀ hs).1]
        exact ⟨by simp, rfl⟩
      · rw [if_neg fun h => hne h.symm, Nat.add_zero]
        exact hd.reply j r hj
    · intro j hj
      have hlength : (d.reply.store now id reply).comments.length = d.reply.comments.length := by
        simp [ReplyData.store, ReplyData.update]
      rw [hlength]
      rcases List.mem_append.mp hj with hold | hnew
      · exact hd.answered j hold
      · obtain rfl : j = id := by simpa using hnew
        by_contra hlt
        have hnone : d.reply.comments[j]? = none := List.getElem?_eq_none (by omega)
        have hheld := howns j hs
        simp [held, status, hnone] at hheld

theorem deliveredOnce_enqueue {d : JobData} (hd : DeliveredOnce d) (userId postId : ℕ)
    (kind : AgentMessages.TriggerType) (dueAt now : Instant) (special : Bool) :
    DeliveredOnce { d with aware := d.aware.enqueue userId postId kind dueAt now special } := by
  refine ⟨?_, ?_, hd.reply, hd.answered⟩
  · intro id row hrow
    rcases Nat.lt_trichotomy id d.aware.queue.length with hlt | rfl | hgt
    · exact hd.message id row (by rwa [AwareData.enqueue, List.getElem?_append_left hlt] at hrow)
    · have hpending : row.status = .pending := by
        simp only [AwareData.enqueue, List.getElem?_concat_length, Option.some.injEq] at hrow
        rw [← hrow]
      rw [AwareCorrect, if_neg (by simp [hpending])]
      refine List.filter_eq_nil_iff.mpr fun m hm => ?_
      have := hd.addressed m hm
      simp
      omega
    · rw [List.getElem?_eq_none (by simp [AwareData.enqueue]; omega)] at hrow
      cases hrow
  · intro m hm
    have := hd.addressed m hm
    simp [AwareData.enqueue]
    omega

theorem deliveredOnce_comment {d : JobData} (hd : DeliveredOnce d) (dueAt : Option Instant) :
    DeliveredOnce { d with reply := d.reply.comment dueAt } := by
  refine ⟨hd.message, hd.addressed, ?_, ?_⟩
  · intro id c hrow
    rcases Nat.lt_trichotomy id d.reply.comments.length with hlt | rfl | hgt
    · exact hd.reply id c (by rwa [ReplyData.comment, List.getElem?_append_left hlt] at hrow)
    · simp only [ReplyData.comment, List.getElem?_concat_length, Option.some.injEq] at hrow
      subst hrow
      rw [CommentCorrect, if_neg (by simp)]
      refine ⟨List.count_eq_zero.mpr fun hmem => ?_, rfl⟩
      have := hd.answered _ hmem
      omega
    · rw [List.getElem?_eq_none (by simp [ReplyData.comment]; omega)] at hrow
      cases hrow
  · intro id hid
    have := hd.answered id hid
    simp [ReplyData.comment]
    omega

/-! ### Runs -/

theorem deliveredOnce_advance {d d' : JobData} {t : JobTask} {i : JobInput} {ts : List JobTask}
    (h : jobSystem.advance d t i = some (d', ts)) (hd : DeliveredOnce d)
    (howns : Owns claimed held d t) : DeliveredOnce d' := by
  cases t with
  | aware s rest =>
    have howns' : ∀ id, s.claimed = some id → held d (.aware id) := fun id hid =>
      howns (.aware id) (by simp [claimed, hid])
    change d.advanceAware s rest i = some (d', ts) at h
    unfold JobData.advanceAware at h
    split at h
    · split_ifs at h
      · cases h
        exact hd
      · obtain ⟨⟨a, next⟩, hr, heq⟩ := Option.map_eq_some_iff.mp h
        cases heq
        exact (awareEffect_of_advance hr).deliveredOnce hd howns'
    · rename_i e
      cases h
      exact (awareEffect_of_raised d.aware s e).deliveredOnce hd howns'
    · obtain ⟨⟨a, next⟩, hr, heq⟩ := Option.map_eq_some_iff.mp h
      cases heq
      exact (awareEffect_of_lost hr).deliveredOnce hd howns'
    · cases h
  | reply s rest =>
    have howns' : ∀ id, s.claimed = some id → held d (.comment id) := fun id hid =>
      howns (.comment id) (by simp [claimed, hid])
    change d.advanceReply s rest i = some (d', ts) at h
    unfold JobData.advanceReply at h
    split at h
    · split_ifs at h
      · cases h
        exact hd
      · obtain ⟨⟨a, next⟩, hr, heq⟩ := Option.map_eq_some_iff.mp h
        cases heq
        exact (replyEffect_of_advance hr).deliveredOnce hd howns'
    · cases h
      exact hd
    · obtain ⟨⟨a, next⟩, hr, heq⟩ := Option.map_eq_some_iff.mp h
      cases heq
      exact (replyEffect_of_lost hr).deliveredOnce hd howns'
    · cases h
  | enqueuing userId postId kind dueAt special =>
    dsimp only [jobSystem] at h
    split at h
    · cases h
      exact deliveredOnce_enqueue hd userId postId kind dueAt _ special
    · cases h
      exact hd
    · cases h
  | commenting dueAt =>
    dsimp only [jobSystem] at h
    split at h
    · cases h
      exact deliveredOnce_comment hd dueAt
    · cases h
      exact hd
    · cases h

/-- A row that is free is claimed by one task, and what a task has claimed stays with it. -/
theorem ownerStep_of_effect {G : JobData → Prop} {lossy : Prop} {d d' : JobData} {t : JobTask}
    {ts : List JobTask} (hdata : G d') (hsingle : ts.length ≤ 1)
    (h : Effect lossy d d' (claimed t) (owner ts)) (howns : Owns claimed held d t) :
    OwnerStep G claimed held d d' t ts where
  data := hdata
  single := hsingle
  taken := by
    intro t' ht' k hk
    have howner : owner ts = some k := by
      rcases ts with _ | ⟨t₀, _ | ⟨t₁, rest⟩⟩
      · cases ht'
      · obtain rfl : t' = t₀ := by simpa using ht'
        exact hk
      · simp at hsingle
    cases h with
    | quiet hstatus hsame =>
      have hbefore : claimed t = some k := hsame ▸ howner
      exact ⟨by simpa only [held, hstatus] using howns k hbefore, Or.inl hbefore⟩
    | left _ hafter _ => simp [howner] at hafter
    | created _ _ _ _ hafter => simp [howner] at hafter
    | claimed key hpending hstatus _ hafter =>
      obtain rfl : k = key := by
        rcases hafter with hafter | ⟨hafter, -⟩ <;> simp [howner] at hafter
        exact hafter
      exact ⟨Or.inl (by simp [hstatus]), Or.inr (by simp [held, hpending])⟩
    | closed key s _ hbefore hstatus hafter =>
      obtain ⟨rfl, rfl⟩ := hafter k howner
      have hheld := howns k hbefore
      refine ⟨Or.inr ?_, Or.inl hbefore⟩
      rw [hstatus, if_pos rfl]
      rcases hheld with h | h <;> simp [h]
  others := by
    intro k hk hheld
    cases h with
    | quiet hstatus _ => simpa only [held, hstatus] using hheld
    | left hstatus _ _ => simpa only [held, hstatus] using hheld
    | created key hnew hstatus _ _ =>
      have hne : k ≠ key := by
        rintro rfl
        simp [held, hnew] at hheld
      simpa only [held, hstatus, if_neg hne] using hheld
    | claimed key hpending hstatus _ _ =>
      have hne : k ≠ key := by
        rintro rfl
        simp [held, hpending] at hheld
      simpa only [held, hstatus, if_neg hne] using hheld
    | closed key s _ hbefore hstatus _ =>
      have hne : k ≠ key := by
        rintro rfl
        exact hk hbefore
      simpa only [held, hstatus, if_neg hne] using hheld

/-- In every reachable state a row has at most one worker, and one delivery exactly if its status
says so. -/
theorem reachable_delivered {w : World JobData JobTask} (hw : jobSystem.machine.Reachable w) :
    Holds DeliveredOnce (Owns claimed held) (Distinct claimed) w := by
  refine reachable_holds distinct_symm ?_ ?_ ?_ hw
  · rintro d ⟨hqueue, hmessages, hcomments, hreplied⟩
    constructor <;> simp [hqueue, hmessages, hcomments, hreplied]
  · intro d i ts _ hts
    have hnone : ∀ t ∈ ts, claimed t = none := by
      intro t ht
      cases i <;> simp only [jobSystem, Option.some.injEq, reduceCtorEq] at hts <;> subst hts <;>
        obtain rfl := List.mem_singleton.mp ht <;> rfl
    have hlength : ts.length ≤ 1 := by
      cases i <;> simp only [jobSystem, Option.some.injEq, reduceCtorEq] at hts <;> subst hts <;>
        simp
    refine ⟨fun t ht k hk => ?_, ?_, fun u t ht => distinct_of_none (hnone t ht)⟩
    · simp [hnone t ht] at hk
    · rcases ts with _ | ⟨t, _ | ⟨t', rest⟩⟩
      · exact .nil
      · exact List.pairwise_singleton _ _
      · simp at hlength
  · intro d t i d' ts hd ht hadv
    obtain ⟨hsingle, heffect⟩ := effect_of_advance hadv
    exact (ownerStep_of_effect (deliveredOnce_advance hadv hd ht) hsingle heffect ht).establishes

/-- No row is left in generating without its worker, while no step abandons one. -/
theorem reachableUnder_resolved {w : World JobData JobTask}
    (hw : jobSystem.machine.ReachableUnder (guard fun d t i => ¬Abandons d t i) w)
    (k : JobKey) (hk : status w.data k = some .generating) : ∃ t ∈ w.tasks, claimed t = some k := by
  refine reachableUnder_attended claimed (fun d k => status d k = some .generating) ?_ ?_ hw k hk
  · rintro d ⟨hqueue, -, hcomments, -⟩ (id | id) <;> simp [status, hqueue, hcomments]
  · intro d t i d' ts hok hadv k hk
    obtain ⟨hsingle, heffect⟩ := effect_of_advance hadv
    have hmem : ∀ k, owner ts = some k → ∃ t' ∈ ts, claimed t' = some k := by
      intro k hk
      obtain ⟨t', ht', hclaimed⟩ := Option.bind_eq_some_iff.mp hk
      exact ⟨t', List.mem_of_mem_head? ht', hclaimed⟩
    cases heffect with
    | quiet hstatus howner =>
      by_cases hown : claimed t = some k
      · exact Or.inr (hmem k (howner.trans hown))
      · exact Or.inl ⟨hstatus k ▸ hk, hown⟩
    | left hstatus _ hleft =>
      have hnone := hleft.resolve_left hok
      refine Or.inl ⟨hstatus k ▸ hk, fun hown => ?_⟩
      simp [hstatus, hnone k hown] at hk
    | created key _ hstatus hbefore _ =>
      have hne : k ≠ key := by
        rintro rfl
        simp [hstatus] at hk
      rw [hstatus, if_neg hne] at hk
      exact Or.inl ⟨hk, by simp [hbefore]⟩
    | claimed key hpending hstatus hbefore hafter =>
      by_cases hkey : k = key
      · subst hkey
        exact Or.inr (hmem k (hafter.resolve_right fun h => hok h.2))
      · rw [hstatus, if_neg hkey] at hk
        exact Or.inl ⟨hk, by simp [hbefore]⟩
    | closed key s hs hbefore hstatus _ =>
      have hne : k ≠ key := by
        rintro rfl
        rw [hstatus, if_pos rfl] at hk
        obtain ⟨_, -, rfl⟩ := Option.map_eq_some_iff.mp hk
        exact hs.2 rfl
      rw [hstatus, if_neg hne] at hk
      exact Or.inl ⟨hk, fun hown => hne (Option.some.inj (hown.symm.trans hbefore))⟩

/-- A row that has been claimed is never pending again. -/
theorem pending_of_step {w w' : World JobData JobTask} {i : TaskSystems.Input JobInput}
    (h : jobSystem.machine.step w i = some w') {k : JobKey}
    (hrow : (status w.data k).isSome = true) (hk : status w'.data k = some .pending) :
    status w.data k = some .pending := by
  cases i with
  | request i =>
    obtain ⟨ts, -, rfl⟩ := Option.map_eq_some_iff.mp h
    exact hk
  | task n i =>
    obtain ⟨t, -, hrest⟩ := Option.bind_eq_some_iff.mp h
    obtain ⟨⟨d', ts⟩, hadv, rfl⟩ := Option.map_eq_some_iff.mp hrest
    obtain ⟨-, heffect⟩ := effect_of_advance hadv
    dsimp only at hk
    cases heffect with
    | quiet hstatus _ => exact hstatus k ▸ hk
    | left hstatus _ _ => exact hstatus k ▸ hk
    | created key hnew hstatus _ _ =>
      have hne : k ≠ key := by
        rintro rfl
        simp [hnew] at hrow
      rwa [hstatus, if_neg hne] at hk
    | claimed key hpending hstatus _ _ =>
      by_cases hkey : k = key
      · exact hkey ▸ hpending
      · rwa [hstatus, if_neg hkey] at hk
    | closed key s hs _ hstatus _ =>
      by_cases hkey : k = key
      · rw [hstatus, if_pos hkey] at hk
        obtain ⟨_, -, rfl⟩ := Option.map_eq_some_iff.mp hk
        exact absurd rfl hs.1
      · rwa [hstatus, if_neg hkey] at hk

/-- Every row in generating has a worker. -/
def Attended (w : World JobData JobTask) : Prop :=
  ∀ k, status w.data k = some .generating → ∃ t ∈ w.tasks, claimed t = some k

/-- Every row is delivered at most once, exactly if its status says so, and is not pending again
after a claim; and while no step abandons a claimed row, every row in generating has a worker. -/
theorem delayed_jobs_resolved (w : World JobData JobTask) :
    (jobSystem.machine.Reachable w → DeliveredOnce w.data ∧
      ∀ i w', jobSystem.machine.step w i = some w' → ∀ k, (status w.data k).isSome = true →
        status w'.data k = some .pending → status w.data k = some .pending) ∧
      (jobSystem.machine.ReachableUnder (guard fun d t i => ¬Abandons d t i) w → Attended w) :=
  ⟨fun hw => ⟨(reachable_delivered hw).data, fun _ _ h _ hrow hk => pending_of_step h hrow hk⟩,
    fun hw k hk => reachableUnder_resolved hw k hk⟩

/-- Before any row. -/
def emptyJobs : JobData := ⟨⟨[], [], 0, fun _ => 1, fun _ => false⟩, ⟨[], []⟩⟩

/-- One row of each table, claimed, with a text that is ready to be stored. -/
def jobsUntilDelivery : List (TaskSystems.Input JobInput) :=
  [.request (.enqueue 7 3 .likeAware 100 false), .task 0 (.proceed 0 .done),
    .request (.comment (some 100)), .task 0 (.proceed 0 .done),
    .request (.consumeRecord 0), .task 0 (.proceed 200 .done), .task 0 (.proceed 200 .done),
    .task 0 (.proceed 200 (.post true)), .task 0 (.proceed 200 .done),
    .task 0 (.proceed 200 (.reply (some ['h', 'i']))), .task 0 (.proceed 200 (.verdict false)),
    .request (.consumeOne 0), .task 1 (.proceed 200 .done), .task 1 (.proceed 200 .done),
    .task 1 (.proceed 200 .done), .task 1 (.proceed 200 (.reply (some ['h', 'i']))),
    .task 1 (.proceed 200 (.verdict false))]

/-- Both rows delivered; the message raises after its commit. -/
def jobsDelivered : List (TaskSystems.Input JobInput) :=
  jobsUntilDelivery ++ [.task 1 (.proceed 200 .done), .task 0 (.proceed 200 .done),
    .task 0 (.proceed 200 .done), .task 0 (.proceed 200 .done), .task 0 (.lost 200 ['x'])]

theorem delayed_jobs_resolved_delivered :
    ∃ w : World JobData JobTask, (w.data.aware.messages.length = 1 ∧
      status w.data (.aware 0) = some .sent ∧ status w.data (.comment 0) = some .ready) ∧
      DeliveredOnce w.data ∧ Attended w := by
  have hcheck : ((jobSystem.machine.run ⟨emptyJobs, []⟩ jobsDelivered).isSome &&
      decide (jobSystem.machine.Guarded (guard fun d t i => ¬Abandons d t i) ⟨emptyJobs, []⟩
        jobsDelivered) &&
      decide ((jobSystem.machine.after ⟨emptyJobs, []⟩ jobsDelivered).data.aware.messages.length = 1
        ∧ status (jobSystem.machine.after ⟨emptyJobs, []⟩ jobsDelivered).data (.aware 0) = some .sent
        ∧ status (jobSystem.machine.after ⟨emptyJobs, []⟩ jobsDelivered).data (.comment 0) =
          some .ready)) = true := by
    decide
  simp only [Bool.and_eq_true, decide_eq_true_eq] at hcheck
  obtain ⟨⟨hrun, hguard⟩, hfacts⟩ := hcheck
  have hstart : jobSystem.machine.start ⟨emptyJobs, []⟩ := ⟨⟨rfl, rfl, rfl, rfl⟩, rfl⟩
  exact ⟨jobSystem.machine.after ⟨emptyJobs, []⟩ jobsDelivered, hfacts,
    ((delayed_jobs_resolved _).1 (Machine.reachable_after hstart hrun)).1,
    (delayed_jobs_resolved _).2 (Machine.reachableUnder_after hstart hguard hrun)⟩

/-- The allocation of a number raises, and so does the transaction that stores a reply: both rows
stay in generating, and nobody is at work on them. -/
theorem raised_delivery_leaves_generating :
    ∃ w : World JobData JobTask, jobSystem.machine.Reachable w ∧ w.tasks = [] ∧
      status w.data (.aware 0) = some .generating ∧
      status w.data (.comment 0) = some .generating := by
  have hcheck : ((jobSystem.machine.run ⟨emptyJobs, []⟩
        (jobsUntilDelivery ++ [.task 1 (.raised ['x']), .task 0 (.raised ['x'])])).any fun w =>
      w.tasks.isEmpty && decide (status w.data (.aware 0) = some .generating ∧
        status w.data (.comment 0) = some .generating)) = true := by
    decide
  obtain ⟨w, hw, hfacts⟩ := (Option.any_eq_true _ _).mp hcheck
  simp only [Bool.and_eq_true, decide_eq_true_eq, List.isEmpty_iff] at hfacts
  exact ⟨w, ⟨⟨emptyJobs, []⟩, _, ⟨⟨rfl, rfl, rfl, rfl⟩, rfl⟩, hw⟩, hfacts.1, hfacts.2⟩

end CompanionBackend.DelayedDelivery
