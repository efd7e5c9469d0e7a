import Mathlib.Algebra.Order.Field.Rat
import Mathlib.Tactic.Linarith
import CompanionBackend.ProviderEvents
import CompanionBackend.Runs

/-!
# The ending policy

When a call is to end: at its hard limit, at the end of its grace, or some time
after a goodbye. Times are rational numbers of seconds on the owner's monotonic
clock. What the policy observes for telemetry is left out.
-/
namespace CompanionBackend.EndingPolicy

open ProviderEvents Runs

inductive EndReason
  | hardLimit | quotaExhausted | exitIntent | silenceTimeout
  deriving DecidableEq, Repr

/-- `final` stands for `end:` and a reason. -/
inductive EndingAction
  | final (reason : EndReason)
  | goodbye (reason : EndReason)
  | cancelGoodbye
  | silenceConfirm
  | timeLow
  deriving DecidableEq, Repr

structure EndingConfig where
  connectedAt : ℚ
  hardLimit : ℚ
  goodbyeTimeout : ℚ
  silenceConfirm : ℚ
  silenceHangup : ℚ
  timeLow : ℚ
  postPlaybackBufferMs : ℚ
  deriving DecidableEq, Repr

structure Policy where
  config : EndingConfig
  waitStarted : Option ℚ
  silenceElapsed : ℚ
  lastTick : Option ℚ
  wasWaiting : Bool
  confirmedSilence : Bool
  pendingReason : Option EndReason
  goodbyeDeadline : Option ℚ
  goodbyeReply : Option Ident
  nativePending : Bool
  playedDeadline : Option ℚ
  generation : ℕ
  softClosing : Bool
  ended : Bool
  deriving DecidableEq, Repr

namespace Policy

/-- `EndingPolicy(...)`. -/
def new (config : EndingConfig) : Policy where
  config := config
  waitStarted := none
  silenceElapsed := 0
  lastTick := none
  wasWaiting := false
  confirmedSilence := false
  pendingReason := none
  goodbyeDeadline := none
  goodbyeReply := none
  nativePending := false
  playedDeadline := none
  generation := 0
  softClosing := false
  ended := false

/-- `_end`. -/
def finish (p : Policy) (reason : EndReason) : Policy × List EndingAction :=
  if p.ended then (p, []) else ({ p with ended := true }, [.final reason])

/-- `_goodbye`. -/
def goodbye (p : Policy) (reason : EndReason) (now : ℚ) : Policy × List EndingAction :=
  if p.ended || p.pendingReason.isSome then (p, [])
  else
    ({ p with
      pendingReason := some reason
      goodbyeDeadline := some (now + p.config.goodbyeTimeout)
      generation := p.generation + 1 }, [.goodbye reason])

/-- `native_exit`: the provider has spoken the goodbye itself. -/
def nativeExit (p : Policy) (reply : Ident) : Policy × List EndingAction :=
  if p.ended || p.pendingReason.isSome then (p, [])
  else
    ({ p with
      pendingReason := some .exitIntent
      nativePending := true
      goodbyeReply := some reply
      goodbyeDeadline := none
      generation := p.generation + 1 }, [])

def exitIntent (p : Policy) (now : ℚ) (explicit : Bool) : Policy × List EndingAction :=
  if explicit then p.goodbye .exitIntent now else (p, [])

/-- What `resume` forgets about the silence. -/
def unwait (p : Policy) : Policy :=
  { p with
    waitStarted := none, silenceElapsed := 0, lastTick := none, wasWaiting := false,
    confirmedSilence := false }

def resume (p : Policy) : Policy × List EndingAction :=
  if p.ended || p.pendingReason.isNone then (p.unwait, [])
  else
    ({ p.unwait with
      pendingReason := none
      goodbyeDeadline := none
      goodbyeReply := none
      nativePending := false
      playedDeadline := none
      generation := p.generation + 1 }, [.cancelGoodbye])

def bindGoodbye (p : Policy) (reply : Ident) (generation : ℕ) : Policy × List EndingAction :=
  if generation = p.generation ∧ p.pendingReason.isSome ∧ !p.ended then
    ({ p with goodbyeReply := some reply }, [])
  else (p, [])

def played (p : Policy) (reply : Ident) (now : ℚ) : Policy × List EndingAction :=
  if p.pendingReason.isSome ∧ p.goodbyeReply = some reply ∧ !p.ended ∧ p.playedDeadline = none then
    ({ p with
      playedDeadline := some (now + p.config.postPlaybackBufferMs / 1000)
      goodbyeDeadline := none }, [])
  else (p, [])

/-- The time has come. -/
def past (deadline : Option ℚ) (now : ℚ) : Bool := deadline.any fun d => d ≤ now

/-- A tick while a goodbye is pending. -/
def tickPending (p : Policy) (reason : EndReason) (now : ℚ) : Policy × List EndingAction :=
  if past p.playedDeadline now then p.finish reason
  else if past p.goodbyeDeadline now then p.finish reason
  else (p, [])

/-- The silence up to now, counted between two ticks at which the policy waits. -/
def listened (p : Policy) (now : ℚ) : Policy :=
  { p with
    waitStarted := some (p.waitStarted.getD now)
    silenceElapsed := p.silenceElapsed +
      (if p.wasWaiting then (p.lastTick.map fun t => max 0 (now - t)).getD 0 else 0)
    lastTick := some now
    wasWaiting := true }

/-- Nobody is waited for; a silence that was confirmed is only suspended. -/
def unlistened (p : Policy) (now : ℚ) (micOk : Bool) : Policy :=
  let p := { p with lastTick := some now, wasWaiting := false }
  if !micOk || !p.confirmedSilence then
    { p with waitStarted := none, silenceElapsed := 0, confirmedSilence := false }
  else p

/-- The end of a tick. -/
def tickRemaining (p : Policy) (remaining : ℚ) : Policy × List EndingAction :=
  if remaining ≤ p.config.timeLow ∧ !p.softClosing then
    ({ p with softClosing := true }, [.timeLow])
  else (p, [])

def tick (p : Policy) (now : ℚ) (waiting micOk : Bool) (remaining : ℚ)
    (graceDeadline : Option ℚ) : Policy × List EndingAction :=
  if p.ended then (p, [])
  else if p.config.connectedAt + p.config.hardLimit ≤ now then p.finish .hardLimit
  else if past graceDeadline now then p.finish .quotaExhausted
  else
    match p.pendingReason with
    | some reason => p.tickPending reason now
    | none =>
      if waiting && micOk then
        let p := p.listened now
        if p.config.silenceHangup ≤ p.silenceElapsed then p.goodbye .silenceTimeout now
        else if p.config.silenceConfirm ≤ p.silenceElapsed ∧ !p.confirmedSilence then
          ({ p with confirmedSilence := true }, [.silenceConfirm])
        else p.tickRemaining remaining
      else (p.unlistened now micOk).tickRemaining remaining

end Policy

/-! ### Runs -/

/-- One operation; those that read the clock carry its value. -/
inductive EndingInput
  | nativeExit (reply : Ident)
  | exitIntent (now : ℚ) (explicit : Bool)
  | resume (now : ℚ)
  | bindGoodbye (reply : Ident) (generation : ℕ)
  | played (reply : Ident) (now : ℚ)
  | tick (now : ℚ) (waiting micOk : Bool) (remaining : ℚ) (graceDeadline : Option ℚ)
  deriving DecidableEq, Repr

def EndingInput.now : EndingInput → Option ℚ
  | .exitIntent now _ | .resume now | .played _ now | .tick now _ _ _ _ => some now
  | .nativeExit _ | .bindGoodbye _ _ => none

def Policy.operate (p : Policy) : EndingInput → Policy × List EndingAction
  | .nativeExit reply => p.nativeExit reply
  | .exitIntent now explicit => p.exitIntent now explicit
  | .resume _ => p.resume
  | .bindGoodbye reply generation => p.bindGoodbye reply generation
  | .played reply now => p.played reply now
  | .tick now waiting micOk remaining graceDeadline =>
    p.tick now waiting micOk remaining graceDeadline

/-- What a tick or the user's speech says about the silence. -/
inductive Moment
  | waiting (now : ℚ)
  | idle
  | spoke
  deriving DecidableEq, Repr

def EndingInput.moment : EndingInput → Option Moment
  | .tick now waiting micOk _ _ => some (if waiting && micOk then .waiting now else .idle)
  | .resume _ => some .spoke
  | _ => none

/-- The time during which the policy waited for the user with a working microphone, as far as ticks
can tell, since the user last spoke; the latest moment comes first. -/
def waitedTime : List Moment → ℚ
  | [] => 0
  | .spoke :: _ => 0
  | .waiting t :: .waiting t' :: rest => (t - t') + waitedTime (.waiting t' :: rest)
  | _ :: rest => waitedTime rest

/-- A policy with the clock, the actions it has produced and the moments it has seen. -/
structure EndingRun where
  policy : Policy
  clock : ℚ
  actions : List EndingAction
  moments : List Moment
  deriving DecidableEq, Repr

def EndingRun.operate (w : EndingRun) (i : EndingInput) : EndingRun :=
  let r := w.policy.operate i
  ⟨r.1, i.now.getD w.clock, w.actions ++ r.2, i.moment.toList ++ w.moments⟩

/-- The policy of a call, whose clock does not go back. -/
def ending (config : EndingConfig) : Machine EndingRun EndingInput where
  start w := w.policy = .new config ∧ w.actions = [] ∧ w.moments = []
  step w i := if i.now.all fun now => w.clock ≤ now then some (w.operate i) else none

end CompanionBackend.EndingPolicy

/-!
## Every decided end comes

A call ends once, no later than its hard limit, and a goodbye ends it at a known
time, except that a goodbye the provider has spoken itself waits until it has been
heard. Only silence in front of a working microphone counts as silence.
-/
namespace CompanionBackend.EndingDeadlines

open ProviderEvents EndingPolicy Runs

/-! ### Deadlines -/

/-- What the pending reason of a policy goes with. -/
structure PolicySound (p : Policy) : Prop where
  idle : p.pendingReason = none →
    p.goodbyeDeadline = none ∧ p.playedDeadline = none ∧ p.nativePending = false
  armed : p.pendingReason.isSome = true → p.goodbyeDeadline.isSome = true ∨
    p.playedDeadline.isSome = true ∨ p.nativePending = true ∧ p.goodbyeReply.isSome = true

theorem policySound_new (config : EndingConfig) : PolicySound (.new config) :=
  ⟨fun _ => ⟨rfl, rfl, rfl⟩, fun h => by cases h⟩

/-- What changes neither the pending reason nor what goes with it. -/
structure SamePending (p p' : Policy) : Prop where
  config : p'.config = p.config
  reason : p'.pendingReason = p.pendingReason
  goodbye : p'.goodbyeDeadline = p.goodbyeDeadline
  reply : p'.goodbyeReply = p.goodbyeReply
  native : p'.nativePending = p.nativePending
  played : p'.playedDeadline = p.playedDeadline

theorem SamePending.refl (p : Policy) : SamePending p p := ⟨rfl, rfl, rfl, rfl, rfl, rfl⟩

theorem SamePending.trans {p₁ p₂ p₃ : Policy} (h : SamePending p₁ p₂) (h' : SamePending p₂ p₃) :
    SamePending p₁ p₃ :=
  ⟨h'.config.trans h.config, h'.reason.trans h.reason, h'.goodbye.trans h.goodbye,
    h'.reply.trans h.reply, h'.native.trans h.native, h'.played.trans h.played⟩

theorem PolicySound.same {p p' : Policy} (hp : PolicySound p) (h : SamePending p p') :
    PolicySound p' := by
  obtain ⟨-, hreason, hgoodbye, hreply, hnative, hplayed⟩ := h
  constructor
  · rw [hreason, hgoodbye, hplayed, hnative]
    exact hp.idle
  · rw [hreason, hgoodbye, hplayed, hnative, hreply]
    exact hp.armed

theorem samePending_finish (p : Policy) (reason : EndReason) :
    SamePending p (p.finish reason).1 := by
  unfold Policy.finish
  split_ifs <;> exact ⟨rfl, rfl, rfl, rfl, rfl, rfl⟩

theorem samePending_unlistened (p : Policy) (now : ℚ) (micOk : Bool) :
    SamePending p (p.unlistened now micOk) := by
  unfold Policy.unlistened
  simp only
  split_ifs <;> exact ⟨rfl, rfl, rfl, rfl, rfl, rfl⟩

theorem samePending_tickRemaining (p : Policy) (remaining : ℚ) :
    SamePending p (p.tickRemaining remaining).1 := by
  unfold Policy.tickRemaining
  split_ifs <;> exact ⟨rfl, rfl, rfl, rfl, rfl, rfl⟩

theorem samePending_tickPending (p : Policy) (reason : EndReason) (now : ℚ) :
    SamePending p (p.tickPending reason now).1 := by
  unfold Policy.tickPending
  split_ifs
  · exact samePending_finish p reason
  · exact samePending_finish p reason
  · exact .refl p

theorem policySound_goodbye {p : Policy} (hp : PolicySound p) (reason : EndReason) (now : ℚ) :
    PolicySound (p.goodbye reason now).1 := by
  unfold Policy.goodbye
  split_ifs
  · exact hp
  · exact ⟨by simp, by simp⟩

theorem policySound_operate {p : Policy} (hp : PolicySound p) (i : EndingInput) :
    PolicySound (p.operate i).1 := by
  cases i with
  | nativeExit reply =>
    simp only [Policy.operate, Policy.nativeExit]
    split_ifs
    · exact hp
    · exact ⟨by simp, by simp⟩
  | exitIntent now explicit =>
    simp only [Policy.operate, Policy.exitIntent]
    split_ifs
    · exact policySound_goodbye hp _ _
    · exact hp
  | resume now =>
    simp only [Policy.operate, Policy.resume]
    split_ifs
    · exact hp.same ⟨rfl, rfl, rfl, rfl, rfl, rfl⟩
    · exact ⟨fun _ => ⟨rfl, rfl, rfl⟩, fun h => by cases h⟩
  | bindGoodbye reply generation =>
    simp only [Policy.operate, Policy.bindGoodbye]
    split_ifs
    · refine ⟨hp.idle, fun hsome => ?_⟩
      rcases hp.armed hsome with harmed | harmed | ⟨hnative, -⟩
      · exact .inl harmed
      · exact .inr (.inl harmed)
      · exact .inr (.inr ⟨hnative, rfl⟩)
    · exact hp
  | played reply now =>
    simp only [Policy.operate, Policy.played]
    split_ifs with hfirst
    · refine ⟨fun hnone => ?_, fun _ => .inr (.inl rfl)⟩
      have hnone' : p.pendingReason = none := hnone
      simp [hnone'] at hfirst
    · exact hp
  | tick now waiting micOk remaining graceDeadline =>
    simp only [Policy.operate, Policy.tick]
    by_cases hended : p.ended = true
    · rw [if_pos hended]
      exact hp
    rw [if_neg hended]
    by_cases hhard : p.config.connectedAt + p.config.hardLimit ≤ now
    · rw [if_pos hhard]
      exact hp.same (samePending_finish p _)
    rw [if_neg hhard]
    by_cases hgrace : Policy.past graceDeadline now = true
    · rw [if_pos hgrace]
      exact hp.same (samePending_finish p _)
    rw [if_neg hgrace]
    split
    · exact hp.same (samePending_tickPending p _ _)
    · have hlistened : SamePending p (p.listened now) := ⟨rfl, rfl, rfl, rfl, rfl, rfl⟩
      split_ifs
      · exact policySound_goodbye (hp.same hlistened) _ _
      · exact hp.same ⟨rfl, rfl, rfl, rfl, rfl, rfl⟩
      · exact hp.same (hlistened.trans (samePending_tickRemaining _ remaining))
      · exact hp.same ((samePending_unlistened p now micOk).trans
          (samePending_tickRemaining _ remaining))

/-! ### What an operation produces -/

/-- What a tick of a running policy does. -/
inductive TickResult (p : Policy) (now : ℚ) (waiting micOk : Bool) (remaining : ℚ)
    (graceDeadline : Option ℚ) : Policy × List EndingAction → Prop
  | hardLimit : p.config.connectedAt + p.config.hardLimit ≤ now →
    TickResult p now waiting micOk remaining graceDeadline (p.finish .hardLimit)
  | grace : Policy.past graceDeadline now = true →
    TickResult p now waiting micOk remaining graceDeadline (p.finish .quotaExhausted)
  | due (reason : EndReason) : p.pendingReason = some reason →
    TickResult p now waiting micOk remaining graceDeadline (p.finish reason)
  | undue (reason : EndReason) : p.pendingReason = some reason →
    TickResult p now waiting micOk remaining graceDeadline (p, [])
  | hangup : p.pendingReason = none → (waiting && micOk) = true →
    p.config.silenceHangup ≤ (p.listened now).silenceElapsed →
    TickResult p now waiting micOk remaining graceDeadline
      ((p.listened now).goodbye .silenceTimeout now)
  | confirm : p.pendingReason = none → (waiting && micOk) = true →
    TickResult p now waiting micOk remaining graceDeadline
      ({ p.listened now with confirmedSilence := true }, [.silenceConfirm])
  | listen : p.pendingReason = none → (waiting && micOk) = true →
    TickResult p now waiting micOk remaining graceDeadline
      ((p.listened now).tickRemaining remaining)
  | idle : p.pendingReason = none → (waiting && micOk) = false →
    TickResult p now waiting micOk remaining graceDeadline
      ((p.unlistened now micOk).tickRemaining remaining)

theorem tick_result {p : Policy} (hrunning : p.ended = false) (now : ℚ) (waiting micOk : Bool)
    (remaining : ℚ) (graceDeadline : Option ℚ) :
    TickResult p now waiting micOk remaining graceDeadline
      (p.tick now waiting micOk remaining graceDeadline) := by
  unfold Policy.tick
  rw [if_neg (by simp [hrunning])]
  by_cases hhard : p.config.connectedAt + p.config.hardLimit ≤ now
  · rw [if_pos hhard]
    exact .hardLimit hhard
  rw [if_neg hhard]
  by_cases hgrace : Policy.past graceDeadline now = true
  · rw [if_pos hgrace]
    exact .grace hgrace
  rw [if_neg hgrace]
  split
  · next reason hreason =>
    unfold Policy.tickPending
    split_ifs
    · exact .due reason hreason
    · exact .due reason hreason
    · exact .undue reason hreason
  · next hnone =>
    by_cases hwaiting : (waiting && micOk) = true
    · rw [if_pos hwaiting]
      simp only
      split_ifs with hlimit
      · exact .hangup hnone hwaiting hlimit
      · exact .confirm hnone hwaiting
      · exact .listen hnone hwaiting
    · rw [if_neg hwaiting]
      exact .idle hnone (by simpa using hwaiting)

theorem finish_running {p : Policy} (h : p.ended = false) (reason : EndReason) :
    p.finish reason = ({ p with ended := true }, [.final reason]) := by
  unfold Policy.finish
  rw [if_neg (by simp [h])]

/-- Nothing comes after the end. -/
theorem operate_ended {p : Policy} (h : p.ended = true) (i : EndingInput) :
    (p.operate i).2 = [] ∧ (p.operate i).1.ended = true := by
  cases i <;> simp [Policy.operate, Policy.nativeExit, Policy.exitIntent, Policy.goodbye,
    Policy.resume, Policy.unwait, Policy.bindGoodbye, Policy.played, Policy.tick, h]

theorem goodbye_running {p : Policy} (h : p.ended = false) (reason : EndReason) (now : ℚ) :
    (p.goodbye reason now).1.ended = false ∧ ∀ r, .final r ∉ (p.goodbye reason now).2 := by
  unfold Policy.goodbye
  split_ifs <;> exact ⟨h, by simp⟩

theorem tickRemaining_running {p : Policy} (h : p.ended = false) (remaining : ℚ) :
    (p.tickRemaining remaining).1.ended = false ∧
      ∀ r, .final r ∉ (p.tickRemaining remaining).2 := by
  unfold Policy.tickRemaining
  split_ifs <;> exact ⟨h, by simp⟩

theorem unlistened_running {p : Policy} (h : p.ended = false) (now : ℚ) (micOk : Bool) :
    (p.unlistened now micOk).ended = false := by
  unfold Policy.unlistened
  simp only
  split_ifs <;> exact h

/-- A running policy ends with one action, for one of three reasons, or goes on without. -/
theorem operate_running {p : Policy} (h : p.ended = false) (i : EndingInput) :
    ((p.operate i).1.ended = true ∧ ∃ r, (p.operate i).2 = [.final r] ∧
      (r = .hardLimit ∨ r = .quotaExhausted ∨ p.pendingReason = some r)) ∨
      ((p.operate i).1.ended = false ∧ ∀ r, .final r ∉ (p.operate i).2) := by
  cases i with
  | nativeExit reply =>
    right
    simp only [Policy.operate, Policy.nativeExit]
    split_ifs <;> exact ⟨h, by simp⟩
  | exitIntent now explicit =>
    right
    simp only [Policy.operate, Policy.exitIntent]
    split_ifs
    · exact goodbye_running h _ _
    · exact ⟨h, by simp⟩
  | resume now =>
    right
    simp only [Policy.operate, Policy.resume]
    split_ifs <;> exact ⟨h, by simp⟩
  | bindGoodbye reply generation =>
    right
    simp only [Policy.operate, Policy.bindGoodbye]
    split_ifs <;> exact ⟨h, by simp⟩
  | played reply now =>
    right
    simp only [Policy.operate, Policy.played]
    split_ifs <;> exact ⟨h, by simp⟩
  | tick now waiting micOk remaining graceDeadline =>
    have hends : ∀ reason,
        (reason = .hardLimit ∨ reason = .quotaExhausted ∨ p.pendingReason = some reason) →
        (p.finish reason).1.ended = true ∧ ∃ r, (p.finish reason).2 = [.final r] ∧
          (r = .hardLimit ∨ r = .quotaExhausted ∨ p.pendingReason = some r) := by
      intro reason hreason
      rw [finish_running h]
      exact ⟨rfl, reason, rfl, hreason⟩
    have hresult := tick_result h now waiting micOk remaining graceDeadline
    generalize hr : p.tick now waiting micOk remaining graceDeadline = r at hresult
    simp only [Policy.operate, hr]
    cases hresult with
    | hardLimit _ => exact .inl (hends _ (.inl rfl))
    | grace _ => exact .inl (hends _ (.inr (.inl rfl)))
    | due reason hreason => exact .inl (hends _ (.inr (.inr hreason)))
    | undue reason _ => exact .inr ⟨h, by simp⟩
    | hangup _ _ _ => exact .inr (goodbye_running (p := p.listened now) h _ _)
    | confirm _ _ => exact .inr ⟨h, by simp⟩
    | listen _ _ => exact .inr (tickRemaining_running (p := p.listened now) h remaining)
    | idle _ _ => exact .inr (tickRemaining_running (unlistened_running h now micOk) remaining)

/-! ### Silence -/

/-- What the policy knows of the silence. -/
structure SilenceSound (p : Policy) (clock : ℚ) (moments : List Moment) : Prop where
  elapsed : p.silenceElapsed ≤ waitedTime moments
  nonneg : 0 ≤ waitedTime moments
  last : p.ended = false → p.pendingReason = none → p.wasWaiting = true →
    ∀ t, p.lastTick = some t → moments.head? = some (.waiting t)
  clock : ∀ t, moments.head? = some (.waiting t) → t ≤ clock

theorem waitedTime_waiting (now : ℚ) {moments : List Moment}
    (hclock : ∀ t, moments.head? = some (.waiting t) → t ≤ now) :
    waitedTime moments ≤ waitedTime (.waiting now :: moments) := by
  cases moments with
  | nil => simp [waitedTime]
  | cons m rest =>
    cases m with
    | waiting t =>
      have hle := hclock t rfl
      simp only [waitedTime]
      linarith
    | idle => simp [waitedTime]
    | spoke => simp [waitedTime]

/-- A moment that is not one of speech adds to the time waited. -/
theorem waitedTime_cons {now : ℚ} {moments : List Moment} (waits : Bool)
    (hclock : ∀ t, moments.head? = some (.waiting t) → t ≤ now) :
    waitedTime moments ≤ waitedTime ((if waits then .waiting now else .idle) :: moments) := by
  cases waits with
  | true => exact waitedTime_waiting now hclock
  | false => simp [waitedTime]

/-- Operations that are no ticks and no speech. -/
theorem SilenceSound.aside {p p' : Policy} {clock clock' : ℚ} {moments : List Moment}
    (h : SilenceSound p clock moments) (hclock : clock ≤ clock')
    (helapsed : p'.silenceElapsed = p.silenceElapsed)
    (hlast : p'.ended = false → p'.pendingReason = none → p.ended = false ∧ p.pendingReason = none ∧
      p'.wasWaiting = p.wasWaiting ∧ p'.lastTick = p.lastTick) : SilenceSound p' clock' moments := by
  refine ⟨helapsed ▸ h.elapsed, h.nonneg, fun hrunning hnone hwas t ht => ?_,
    fun t ht => (h.clock t ht).trans hclock⟩
  obtain ⟨hrunning', hnone', hwas', hlast'⟩ := hlast hrunning hnone
  exact h.last hrunning' hnone' (hwas' ▸ hwas) t (hlast' ▸ ht)

/-- The silence a tick counts was waited for. -/
theorem listened_elapsed {p : Policy} {clock now : ℚ} {moments : List Moment}
    (h : SilenceSound p clock moments) (hclock : clock ≤ now) (hrunning : p.ended = false)
    (hnone : p.pendingReason = none) :
    (p.listened now).silenceElapsed ≤ waitedTime (.waiting now :: moments) := by
  have hmore := waitedTime_waiting now fun t ht => (h.clock t ht).trans hclock
  simp only [Policy.listened]
  by_cases hwas : p.wasWaiting = true
  · rw [if_pos hwas]
    cases hlast : p.lastTick with
    | none =>
      have helapsed := h.elapsed
      simp only [Option.map_none, Option.getD_none]
      linarith
    | some t =>
      have hhead := h.last hrunning hnone hwas t hlast
      have hle := (h.clock t hhead).trans hclock
      cases moments with
      | nil => simp at hhead
      | cons m rest =>
        obtain rfl := Option.some.inj hhead
        have helapsed := h.elapsed
        simp only [Option.map_some, Option.getD_some, waitedTime, max_eq_right (sub_nonneg.mpr hle)]
        linarith
  · rw [if_neg hwas]
    have helapsed := h.elapsed
    linarith

/-- A tick, as far as the silence is concerned. -/
theorem silenceSound_tick {p : Policy} {clock now : ℚ} {moments : List Moment}
    (h : SilenceSound p clock moments) (hclock : clock ≤ now) (waiting micOk : Bool) (remaining : ℚ)
    (graceDeadline : Option ℚ) :
    SilenceSound (p.tick now waiting micOk remaining graceDeadline).1 now
      ((if waiting && micOk then .waiting now else .idle) :: moments) := by
  have hmore := waitedTime_cons (waiting && micOk) fun t ht => (h.clock t ht).trans hclock
  have hnonneg := h.nonneg.trans hmore
  have hhead : ∀ t, ((if waiting && micOk then Moment.waiting now else .idle) :: moments).head? =
      some (.waiting t) → t ≤ now := by
    intro t ht
    cases hw : (waiting && micOk) with
    | true =>
      simp only [hw, if_true, List.head?_cons, Option.some.injEq, Moment.waiting.injEq] at ht
      exact ht.ge
    | false => simp [hw] at ht
  cases hended : p.ended with
  | true =>
    have hsame : p.tick now waiting micOk remaining graceDeadline = (p, []) := by
      unfold Policy.tick
      rw [if_pos hended]
    rw [hsame]
    exact ⟨h.elapsed.trans hmore, hnonneg, fun hrunning => by simp [hended] at hrunning, hhead⟩
  | false =>
    have hfinish : ∀ reason, SilenceSound (p.finish reason).1 now
        ((if waiting && micOk then .waiting now else .idle) :: moments) := by
      intro reason
      rw [finish_running hended]
      exact ⟨h.elapsed.trans hmore, hnonneg, fun hrunning => (by cases hrunning), hhead⟩
    have hlistened : p.pendingReason = none → (waiting && micOk) = true → ∀ {p' : Policy},
        p'.silenceElapsed = (p.listened now).silenceElapsed → (p'.lastTick = some now) →
        SilenceSound p' now ((if waiting && micOk then .waiting now else .idle) :: moments) := by
      intro hnone hwaiting p' helapsed hlast
      refine ⟨?_, hnonneg, fun _ _ _ t ht => ?_, hhead⟩
      · rw [helapsed, if_pos hwaiting]
        exact listened_elapsed h hclock hended hnone
      · rw [hlast, Option.some.injEq] at ht
        rw [if_pos hwaiting, ht]
        rfl
    have hresult := tick_result hended now waiting micOk remaining graceDeadline
    generalize p.tick now waiting micOk remaining graceDeadline = r at hresult
    cases hresult with
    | hardLimit _ => exact hfinish _
    | grace _ => exact hfinish _
    | due reason _ => exact hfinish _
    | undue reason hreason =>
      exact ⟨h.elapsed.trans hmore, hnonneg, fun _ hnone => by simp [hreason] at hnone, hhead⟩
    | hangup hnone hwaiting _ =>
      refine hlistened hnone hwaiting ?_ ?_ <;> unfold Policy.goodbye <;> split_ifs <;> rfl
    | confirm hnone hwaiting => exact hlistened hnone hwaiting rfl rfl
    | listen hnone hwaiting =>
      refine hlistened hnone hwaiting ?_ ?_ <;> unfold Policy.tickRemaining <;> split_ifs <;> rfl
    | idle hnone hwaiting =>
      have hwas : ((p.unlistened now micOk).tickRemaining remaining).1.wasWaiting = false := by
        unfold Policy.tickRemaining Policy.unlistened
        simp only
        split_ifs <;> rfl
      have helapsed : ((p.unlistened now micOk).tickRemaining remaining).1.silenceElapsed =
            p.silenceElapsed ∨
          ((p.unlistened now micOk).tickRemaining remaining).1.silenceElapsed = 0 := by
        unfold Policy.tickRemaining Policy.unlistened
        simp only
        split_ifs <;> simp
      refine ⟨?_, hnonneg, fun _ _ hwas' => by simp [hwas] at hwas', hhead⟩
      rcases helapsed with helapsed | helapsed
      · rw [helapsed]
        exact h.elapsed.trans hmore
      · rw [helapsed]
        exact hnonneg

/-- Every operation, as far as the silence is concerned. -/
theorem silenceSound_operate {p : Policy} {clock : ℚ} {moments : List Moment}
    (h : SilenceSound p clock moments) (i : EndingInput)
    (hclock : ∀ now, i.now = some now → clock ≤ now) :
    SilenceSound (p.operate i).1 (i.now.getD clock) (i.moment.toList ++ moments) := by
  have hgoodbye : ∀ reason now, clock ≤ now → SilenceSound (p.goodbye reason now).1 now moments := by
    intro reason now hle
    unfold Policy.goodbye
    split_ifs
    · exact h.aside hle rfl fun hrunning hnone => ⟨hrunning, hnone, rfl, rfl⟩
    · exact h.aside hle rfl fun _ hnone => by cases hnone
  cases i with
  | nativeExit reply =>
    simp only [Policy.operate, Policy.nativeExit, EndingInput.moment, EndingInput.now]
    split_ifs
    · exact h
    · exact h.aside (le_refl _) rfl fun _ hnone => by cases hnone
  | exitIntent now explicit =>
    simp only [Policy.operate, Policy.exitIntent, EndingInput.moment, EndingInput.now]
    split_ifs
    · exact hgoodbye _ _ (hclock now rfl)
    · exact h.aside (hclock now rfl) rfl fun hrunning hnone => ⟨hrunning, hnone, rfl, rfl⟩
  | resume now =>
    have hspoke : ∀ {p' : Policy}, p'.silenceElapsed = 0 → p'.wasWaiting = false →
        SilenceSound p' now (.spoke :: moments) := by
      intro p' helapsed hwas
      refine ⟨helapsed.le, le_refl _, fun _ _ hwas' => ?_, by simp⟩
      rw [hwas] at hwas'
      cases hwas'
    simp only [Policy.operate, Policy.resume, EndingInput.moment, EndingInput.now]
    split_ifs <;> exact hspoke rfl rfl
  | bindGoodbye reply generation =>
    simp only [Policy.operate, Policy.bindGoodbye, EndingInput.moment, EndingInput.now]
    split_ifs
    · exact h.aside (le_refl _) rfl fun hrunning hnone => ⟨hrunning, hnone, rfl, rfl⟩
    · exact h
  | played reply now =>
    simp only [Policy.operate, Policy.played, EndingInput.moment, EndingInput.now]
    split_ifs <;>
      exact h.aside (hclock now rfl) rfl fun hrunning hnone => ⟨hrunning, hnone, rfl, rfl⟩
  | tick now waiting micOk remaining graceDeadline =>
    exact silenceSound_tick h (hclock now rfl) waiting micOk remaining graceDeadline

theorem goodbye_actions {p : Policy} {reason : EndReason} {now : ℚ} {a : EndingAction}
    (h : a ∈ (p.goodbye reason now).2) : a = .goodbye reason := by
  unfold Policy.goodbye at h
  split_ifs at h
  · simp at h
  · exact List.mem_singleton.mp h

theorem tickRemaining_actions {p : Policy} {remaining : ℚ} {a : EndingAction}
    (h : a ∈ (p.tickRemaining remaining).2) : a = .timeLow := by
  unfold Policy.tickRemaining at h
  split_ifs at h
  · exact List.mem_singleton.mp h
  · simp at h

/-- Where a goodbye after silence comes from. -/
theorem silence_goodbye {p : Policy} {i : EndingInput}
    (h : .goodbye .silenceTimeout ∈ (p.operate i).2) :
    p.ended = false ∧ p.pendingReason = none ∧ ∃ now waiting micOk remaining graceDeadline,
      i = .tick now waiting micOk remaining graceDeadline ∧ (waiting && micOk) = true ∧
        p.config.silenceHangup ≤ (p.listened now).silenceElapsed := by
  have hrunning : p.ended = false := by
    cases hended : p.ended with
    | false => rfl
    | true => simp [(operate_ended hended i).1] at h
  cases i with
  | nativeExit reply =>
    simp only [Policy.operate, Policy.nativeExit] at h
    split_ifs at h <;> simp at h
  | exitIntent now explicit =>
    simp only [Policy.operate, Policy.exitIntent] at h
    split_ifs at h
    · cases goodbye_actions h
    · simp at h
  | resume now =>
    simp only [Policy.operate, Policy.resume] at h
    split_ifs at h <;> simp at h
  | bindGoodbye reply generation =>
    simp only [Policy.operate, Policy.bindGoodbye] at h
    split_ifs at h <;> simp at h
  | played reply now =>
    simp only [Policy.operate, Policy.played] at h
    split_ifs at h <;> simp at h
  | tick now waiting micOk remaining graceDeadline =>
    have hresult := tick_result hrunning now waiting micOk remaining graceDeadline
    simp only [Policy.operate] at h
    generalize p.tick now waiting micOk remaining graceDeadline = r at hresult h
    have hfinish : ∀ reason, .goodbye .silenceTimeout ∉ (p.finish reason).2 := by
      intro reason
      rw [finish_running hrunning]
      simp
    cases hresult with
    | hardLimit _ => exact absurd h (hfinish _)
    | grace _ => exact absurd h (hfinish _)
    | due reason _ => exact absurd h (hfinish _)
    | undue reason _ => simp at h
    | hangup hnone hwaiting hlimit =>
      exact ⟨hrunning, hnone, now, waiting, micOk, remaining, graceDeadline, rfl, hwaiting, hlimit⟩
    | confirm _ _ => simp at h
    | listen _ _ => cases tickRemaining_actions h
    | idle _ _ => cases tickRemaining_actions h

/-- A goodbye after silence comes when enough time has been waited. -/
theorem silence_waited {p : Policy} {clock : ℚ} {moments : List Moment}
    (h : SilenceSound p clock moments) {i : EndingInput}
    (hclock : ∀ now, i.now = some now → clock ≤ now)
    (hgoodbye : .goodbye .silenceTimeout ∈ (p.operate i).2) :
    p.config.silenceHangup ≤ waitedTime (i.moment.toList ++ moments) := by
  obtain ⟨hrunning, hnone, now, waiting, micOk, remaining, grace, rfl, hwaiting, hlimit⟩ :=
    silence_goodbye hgoodbye
  have hlistened := listened_elapsed h (hclock now rfl) hrunning hnone
  simp only [EndingInput.moment, hwaiting, if_true, Option.toList_some, List.singleton_append]
  linarith

/-- A silence that is pending has been announced. -/
theorem silence_announced {p : Policy} {i : EndingInput}
    (h : (p.operate i).1.pendingReason = some .silenceTimeout) :
    p.pendingReason = some .silenceTimeout ∨ .goodbye .silenceTimeout ∈ (p.operate i).2 := by
  have hgoodbye : ∀ {p : Policy} {reason now},
      (p.goodbye reason now).1.pendingReason = some .silenceTimeout →
      p.pendingReason = some .silenceTimeout ∨
        reason = .silenceTimeout ∧ (p.goodbye reason now).2 = [.goodbye .silenceTimeout] := by
    intro p reason now h
    unfold Policy.goodbye at *
    split_ifs at h with hblocked
    · exact .inl h
    · obtain rfl := Option.some.inj h
      exact .inr ⟨rfl, by rw [if_neg hblocked]⟩
  cases i with
  | nativeExit reply =>
    simp only [Policy.operate, Policy.nativeExit] at h
    split_ifs at h
    · exact .inl h
    · cases h
  | exitIntent now explicit =>
    simp only [Policy.operate, Policy.exitIntent] at h
    split_ifs at h
    · rcases hgoodbye h with hsame | ⟨hreason, -⟩
      · exact .inl hsame
      · cases hreason
    · exact .inl h
  | resume now =>
    simp only [Policy.operate, Policy.resume] at h
    split_ifs at h
    exact .inl h
  | bindGoodbye reply generation =>
    simp only [Policy.operate, Policy.bindGoodbye] at h
    split_ifs at h <;> exact .inl h
  | played reply now =>
    simp only [Policy.operate, Policy.played] at h
    split_ifs at h <;> exact .inl h
  | tick now waiting micOk remaining graceDeadline =>
    simp only [Policy.operate] at *
    cases hended : p.ended with
    | true =>
      unfold Policy.tick at h
      rw [if_pos hended] at h
      exact .inl h
    | false =>
      have hresult := tick_result hended now waiting micOk remaining graceDeadline
      generalize p.tick now waiting micOk remaining graceDeadline = r at *
      cases hresult with
      | hardLimit _ => exact .inl ((samePending_finish p _).reason.symm.trans h)
      | grace _ => exact .inl ((samePending_finish p _).reason.symm.trans h)
      | due reason _ => exact .inl ((samePending_finish p _).reason.symm.trans h)
      | undue reason _ => exact .inl h
      | hangup _ _ _ =>
        rcases hgoodbye h with hsame | ⟨-, hactions⟩
        · exact .inl hsame
        · exact .inr (by simp [hactions])
      | confirm _ _ => exact .inl h
      | listen _ _ =>
        exact .inl ((samePending_tickRemaining (p.listened now) remaining).reason.symm.trans h)
      | idle _ _ =>
        have hsame := (samePending_unlistened p now micOk).trans
          (samePending_tickRemaining _ remaining)
        exact .inl (hsame.reason.symm.trans h)

/-- A call that ends after silence was waiting to end so. -/
theorem silence_final {p : Policy} {i : EndingInput}
    (h : .final .silenceTimeout ∈ (p.operate i).2) : p.pendingReason = some .silenceTimeout := by
  cases hended : p.ended with
  | true => simp [(operate_ended hended i).1] at h
  | false =>
    rcases operate_running hended i with ⟨-, r, hactions, hreason⟩ | ⟨-, hnone⟩
    · rw [hactions, List.mem_singleton, EndingAction.final.injEq] at h
      subst h
      simpa using hreason
    · exact absurd h (hnone _)

/-! ### Every run -/

theorem operate_config (p : Policy) (i : EndingInput) : (p.operate i).1.config = p.config := by
  have hgoodbye : ∀ {p : Policy} {reason now}, (p.goodbye reason now).1.config = p.config := by
    intro p reason now
    unfold Policy.goodbye
    split_ifs <;> rfl
  cases i with
  | nativeExit reply =>
    simp only [Policy.operate, Policy.nativeExit]
    split_ifs <;> rfl
  | exitIntent now explicit =>
    simp only [Policy.operate, Policy.exitIntent]
    split_ifs
    · exact hgoodbye
    · rfl
  | resume now =>
    simp only [Policy.operate, Policy.resume]
    split_ifs <;> rfl
  | bindGoodbye reply generation =>
    simp only [Policy.operate, Policy.bindGoodbye]
    split_ifs <;> rfl
  | played reply now =>
    simp only [Policy.operate, Policy.played]
    split_ifs <;> rfl
  | tick now waiting micOk remaining graceDeadline =>
    simp only [Policy.operate]
    cases hended : p.ended with
    | true =>
      unfold Policy.tick
      rw [if_pos hended]
    | false =>
      have hresult := tick_result hended now waiting micOk remaining graceDeadline
      generalize p.tick now waiting micOk remaining graceDeadline = r at *
      cases hresult with
      | hardLimit _ => exact (samePending_finish p _).config
      | grace _ => exact (samePending_finish p _).config
      | due reason _ => exact (samePending_finish p _).config
      | undue reason _ => rfl
      | hangup _ _ _ => exact hgoodbye
      | confirm _ _ => rfl
      | listen _ _ => exact (samePending_tickRemaining (p.listened now) remaining).config
      | idle _ _ =>
        exact ((samePending_unlistened p now micOk).trans (samePending_tickRemaining _ remaining)).config

structure RunSound (config : EndingConfig) (w : EndingRun) : Prop where
  config : w.policy.config = config
  policy : PolicySound w.policy
  silence : SilenceSound w.policy w.clock w.moments
  running : w.policy.ended = false → ∀ r, .final r ∉ w.actions
  finished : w.policy.ended = true →
    ∃ before r, w.actions = before ++ [.final r] ∧ ∀ r', .final r' ∉ before
  announced : w.policy.pendingReason = some .silenceTimeout →
    .goodbye .silenceTimeout ∈ w.actions
  silent : .final .silenceTimeout ∈ w.actions → .goodbye .silenceTimeout ∈ w.actions

theorem runSound_operate {config : EndingConfig} {w : EndingRun} (h : RunSound config w)
    (i : EndingInput) (hclock : ∀ now, i.now = some now → w.clock ≤ now) :
    RunSound config (w.operate i) := by
  refine ⟨(operate_config _ i).trans h.config, policySound_operate h.policy i,
    silenceSound_operate h.silence i hclock, fun hrunning r hr => ?_, fun hended => ?_,
    fun hpending => ?_, fun hfinal => ?_⟩
  · cases hbefore : w.policy.ended with
    | true =>
      have hended := (operate_ended hbefore i).2
      rw [show (w.policy.operate i).1.ended = false from hrunning] at hended
      cases hended
    | false =>
      rcases List.mem_append.mp hr with hr | hr
      · exact h.running hbefore r hr
      · rcases operate_running hbefore i with ⟨hended, -⟩ | ⟨-, hnone⟩
        · rw [show (w.policy.operate i).1.ended = false from hrunning] at hended
          cases hended
        · exact hnone r hr
  · cases hbefore : w.policy.ended with
    | true =>
      obtain ⟨before, r, hactions, hfirst⟩ := h.finished hbefore
      refine ⟨before, r, ?_, hfirst⟩
      change w.actions ++ (w.policy.operate i).2 = _
      rw [(operate_ended hbefore i).1, List.append_nil, hactions]
    | false =>
      rcases operate_running hbefore i with ⟨-, r, hactions, -⟩ | ⟨hrunning, -⟩
      · refine ⟨w.actions, r, ?_, h.running hbefore⟩
        change w.actions ++ (w.policy.operate i).2 = _
        rw [hactions]
      · rw [show (w.policy.operate i).1.ended = true from hended] at hrunning
        cases hrunning
  · rcases silence_announced hpending with hpending | hnow
    · exact List.mem_append_left _ (h.announced hpending)
    · exact List.mem_append_right _ hnow
  · rcases List.mem_append.mp hfinal with hfinal | hnow
    · exact List.mem_append_left _ (h.silent hfinal)
    · exact List.mem_append_left _ (h.announced (silence_final hnow))

theorem reachable_runSound {config : EndingConfig} {w : EndingRun}
    (hw : (ending config).Reachable w) : RunSound config w := by
  refine Machine.reachable_invariant ?_ (fun w i w' h hstep => ?_) hw
  · rintro ⟨policy, clock, actions, moments⟩ ⟨rfl, rfl, rfl⟩
    exact ⟨rfl, policySound_new config, ⟨le_refl _, le_refl _, by simp [Policy.new], by simp⟩,
      by simp, by simp [Policy.new], by simp [Policy.new], by simp⟩
  · simp only [ending] at hstep
    split_ifs at hstep with hclock
    obtain rfl := Option.some.inj hstep
    refine runSound_operate h i fun now hnow => ?_
    simpa [hnow] using hclock

/-- The earlier of two deadlines. -/
theorem exists_due {a b : Option ℚ} (h : b.isSome = true ∨ a.isSome = true) :
    ∃ d, ∀ now, (Policy.past a now = true ∨ Policy.past b now = true) ↔ d ≤ now := by
  cases a with
  | none =>
    cases b with
    | none => simp at h
    | some d => exact ⟨d, fun now => by simp [Policy.past]⟩
  | some d =>
    cases b with
    | none => exact ⟨d, fun now => by simp [Policy.past]⟩
    | some d' => exact ⟨min d d', fun now => by simp [Policy.past]⟩

/-- A deadline of the pending reason. -/
theorem exists_deadline {p : Policy} (hrunning : p.ended = false) {reason : EndReason}
    (hreason : p.pendingReason = some reason)
    (harmed : p.goodbyeDeadline.isSome = true ∨ p.playedDeadline.isSome = true) :
    ∃ deadline, ∀ now waiting micOk remaining graceDeadline,
      now < p.config.connectedAt + p.config.hardLimit → Policy.past graceDeadline now = false →
      p.tick now waiting micOk remaining graceDeadline =
        if deadline ≤ now then ({ p with ended := true }, [.final reason]) else (p, []) := by
  obtain ⟨deadline, hdeadline⟩ := exists_due harmed
  refine ⟨deadline, fun now waiting micOk remaining graceDeadline hhard hgrace => ?_⟩
  have htick : p.tick now waiting micOk remaining graceDeadline = p.tickPending reason now := by
    unfold Policy.tick
    rw [if_neg (by simp [hrunning]), if_neg (not_le.mpr hhard), if_neg (by simp [hgrace])]
    simp only [hreason]
  rw [htick, Policy.tickPending, finish_running hrunning]
  by_cases hdue : deadline ≤ now
  · rw [if_pos hdue]
    split_ifs with hplayed hgoodbye
    · rfl
    · rfl
    · exact absurd ((hdeadline now).mpr hdue) (by simp [hplayed, hgoodbye])
  · obtain ⟨hplayed, hgoodbye⟩ := not_or.mp fun h => hdue ((hdeadline now).mp h)
    rw [if_neg hplayed, if_neg hgoodbye, if_neg hdue]

/-- The call ends once; a tick ends it at its hard limit or after its grace; a pending goodbye has a
deadline at which a tick ends the call for its reason, unless the provider has spoken it and it has
not been heard, when hearing it sets the deadline; and a call ends after silence only when that
silence was waited for. -/
structure EndsOnce (config : EndingConfig) (w : EndingRun) : Prop where
  once : ∀ before r after, w.actions = before ++ .final r :: after → after = []
  limits : w.policy.ended = false → ∀ now waiting micOk remaining graceDeadline,
    (config.connectedAt + config.hardLimit ≤ now →
      (w.policy.tick now waiting micOk remaining graceDeadline).2 = [.final .hardLimit]) ∧
    (now < config.connectedAt + config.hardLimit → Policy.past graceDeadline now = true →
      (w.policy.tick now waiting micOk remaining graceDeadline).2 = [.final .quotaExhausted])
  pending : w.policy.ended = false → ∀ reason, w.policy.pendingReason = some reason →
    (∃ deadline, ∀ now waiting micOk remaining graceDeadline,
      now < config.connectedAt + config.hardLimit → Policy.past graceDeadline now = false →
      w.policy.tick now waiting micOk remaining graceDeadline =
        if deadline ≤ now then ({ w.policy with ended := true }, [.final reason])
        else (w.policy, [])) ∨
    (w.policy.nativePending = true ∧ ∃ reply, w.policy.goodbyeReply = some reply ∧ ∀ now,
      (w.policy.played reply now).1.playedDeadline = some (now + config.postPlaybackBufferMs / 1000))
  silence : ∀ i w', (ending config).step w i = some w' →
    .goodbye .silenceTimeout ∈ (w.policy.operate i).2 → config.silenceHangup ≤ waitedTime w'.moments
  announced : .final .silenceTimeout ∈ w.actions → .goodbye .silenceTimeout ∈ w.actions

theorem ends_once (config : EndingConfig) {w : EndingRun} (hw : (ending config).Reachable w) :
    EndsOnce config w := by
  have h := reachable_runSound hw
  refine ⟨fun before r after hactions => ?_, fun hrunning now waiting micOk remaining grace => ?_,
    fun hrunning reason hreason => ?_, fun i w' hstep hgoodbye => ?_, h.silent⟩
  · cases hended : w.policy.ended with
    | false =>
      have hnone := h.running hended r
      rw [hactions] at hnone
      simp at hnone
    | true =>
      obtain ⟨before', r', hactions', hfirst⟩ := h.finished hended
      rw [hactions] at hactions'
      by_contra hne
      obtain ⟨after', a, rfl⟩ := List.eq_nil_or_concat after |>.resolve_left hne
      have hsplit : before ++ .final r :: after' = before' := by
        have heq : (before ++ .final r :: after') ++ [a] = before' ++ [.final r'] := by
          rw [← hactions']
          simp
        exact (List.append_inj' heq rfl).1
      exact hfirst r (by rw [← hsplit]; simp)
  · rw [← h.config]
    constructor
    · intro hhard
      unfold Policy.tick
      rw [if_neg (by simp [hrunning]), if_pos hhard, finish_running hrunning]
    · intro hhard hgrace
      unfold Policy.tick
      rw [if_neg (by simp [hrunning]), if_neg (not_le.mpr hhard), if_pos hgrace,
        finish_running hrunning]
  · rw [← h.config]
    by_cases harmed : w.policy.goodbyeDeadline.isSome = true ∨ w.policy.playedDeadline.isSome = true
    · exact .inl (exists_deadline hrunning hreason harmed)
    · right
      rw [not_or] at harmed
      rcases h.policy.armed (by simp [hreason]) with hset | hset | ⟨hnative, hreply⟩
      · exact absurd hset harmed.1
      · exact absurd hset harmed.2
      · obtain ⟨reply, hreply⟩ := Option.isSome_iff_exists.mp hreply
        refine ⟨hnative, reply, hreply, fun now => ?_⟩
        have hunset : w.policy.playedDeadline = none := Option.not_isSome_iff_eq_none.mp harmed.2
        unfold Policy.played
        rw [if_pos ⟨by simp [hreason], hreply, by simp [hrunning], hunset⟩]
  · simp only [ending] at hstep
    split_ifs at hstep with hclock
    obtain rfl := Option.some.inj hstep
    rw [← h.config]
    exact silence_waited h.silence (fun now hnow => by simpa [hnow] using hclock) hgoodbye

/-- An hour of a call at most, and ten seconds for a goodbye. -/
def hourCall : EndingConfig := ⟨0, 3600, 10, 30, 60, 60, 800⟩

theorem ends_once_goodbye :
    let w := (ending hourCall).after ⟨.new hourCall, 0, [], []⟩
      [.tick 1 true true 100 none, .exitIntent 2 true, .tick 12 true true 100 none]
    w.actions = [.goodbye .exitIntent, .final .exitIntent] ∧ EndsOnce hourCall w :=
  ⟨by decide +kernel,
    ends_once hourCall (Machine.reachable_after ⟨rfl, rfl, rfl⟩ (by decide))⟩

/-- A goodbye spoken by the provider and never heard: whenever a tick comes, it ends the call at the
hard limit or not at all. -/
theorem native_exit_waits :
    let w := (ending hourCall).after ⟨.new hourCall, 0, [], []⟩ [.nativeExit ['r']]
    (ending hourCall).Reachable w ∧ w.policy.pendingReason = some .exitIntent ∧
      w.policy.ended = false ∧ w.policy.goodbyeDeadline = none ∧ w.policy.playedDeadline = none ∧
      ∀ now, (w.policy.tick now true true 100 none).2 =
        if 3600 ≤ now then [.final .hardLimit] else [] := by
  refine ⟨Machine.reachable_after ⟨rfl, rfl, rfl⟩ (by decide), by decide,
    by decide, by decide, by decide, fun now => ?_⟩
  have hpolicy : ((ending hourCall).after ⟨.new hourCall, 0, [], []⟩ [.nativeExit ['r']]).policy =
      { Policy.new hourCall with
        pendingReason := some .exitIntent, nativePending := true, goodbyeReply := some ['r'],
        generation := 1 } := by decide
  rw [hpolicy]
  by_cases hlimit : 3600 ≤ now <;>
    simp [Policy.tick, Policy.tickPending, Policy.past, Policy.finish, Policy.new, hourCall, hlimit]

end CompanionBackend.EndingDeadlines
