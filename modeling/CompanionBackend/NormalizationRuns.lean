import CompanionBackend.ProviderReplies

/-!
# Runs of the normaliser

Over every order of frames, injections, control queries, restarts and resumptions:
numbers are consecutive since the last start or resumption, a reply keeps its question,
nothing follows the end of a reply's speech, and a claimed question has one reply.
-/
namespace CompanionBackend.ProviderNormalizer

open Runs ProviderEvents Dictionaries

variable {D : Type} {h : Host D} {a : Adapter}

/-- Nothing of a reply comes after the event that finished its speech. -/
def Closes (e later : NormalizedEvent) : Prop :=
  e.kind = .ttsFinished → ∀ r, e.replyId = some r → later.replyId ≠ some r

structure RunSound (a : Adapter) (w : ProviderRun D) : Prop where
  numbered : (w.current ++ w.session.events).map NormalizedEvent.sequence =
    List.range' 1 w.session.sequence
  queued : ∀ e ∈ w.session.events, e.replyId = none
  audio : w.session.replyState.AudioSound a
  bound : ∀ e ∈ w.history, ∀ r, e.replyId = some r → ∃ q, e.questionId = some q ∧
    Dict.get w.session.replyQuestions r = some q
  finished : ∀ e ∈ w.history, e.kind = .ttsFinished → ∀ r, e.replyId = some r →
    r ∈ w.session.finished
  closed : w.history.Pairwise Closes
  claimed : ∀ c ∈ w.claims, c.1 ∈ w.session.ragQuestions ∧ c.2 ≤ w.history.length
  single : a.purpose = "call".toList → ∀ c ∈ w.claims, ∀ e ∈ w.history.drop c.2,
    e.questionId = some c.1 → ∀ r, e.replyId = some r →
      ∃ rid, Dict.get w.session.ragReply c.1 = some rid ∧ Dict.get w.session.replies rid = some r

section Steps

variable {w : ProviderRun D}

/-- Steps that leave the reply state alone. -/
theorem RunSound.of_state (hw : RunSound a w) {s : ProviderSession D}
    (hs : s.replyState = w.session.replyState) (injections : List Ident) :
    RunSound a { w with session := s, injections := injections } := by
  have hevents : s.events = w.session.events := congrArg ReplyState.events hs
  have hsequence : s.sequence = w.session.sequence := congrArg ReplyState.sequence hs
  have hquestions : s.replyQuestions = w.session.replyQuestions :=
    congrArg ReplyState.replyQuestions hs
  have hfinished : s.finished = w.session.finished := congrArg ReplyState.finished hs
  have hrag : s.ragQuestions = w.session.ragQuestions := congrArg ReplyState.ragQuestions hs
  have hselected : s.ragReply = w.session.ragReply := congrArg ReplyState.ragReply hs
  have hreplies : s.replies = w.session.replies := congrArg ReplyState.replies hs
  constructor
  · simpa only [hevents, hsequence] using hw.numbered
  · simpa only [hevents] using hw.queued
  · simpa only [hs] using hw.audio
  · simpa only [hquestions] using hw.bound
  · simpa only [hfinished] using hw.finished
  · exact hw.closed
  · simpa only [hrag] using hw.claimed
  · simpa only [hselected, hreplies] using hw.single

/-- An event without a reply is handed out from the queue. -/
theorem RunSound.takeQueued (hw : RunSound a w) {e : NormalizedEvent} {rest : List NormalizedEvent}
    (hqueue : w.session.events = e :: rest) :
    RunSound a (w.handOut ({ w.session with events := rest }, some e)) := by
  have hnone : e.replyId = none := hw.queued e (by simp [hqueue])
  have hold {x : NormalizedEvent} {r : Ident} {l : List NormalizedEvent} (hx : x ∈ l ++ [e])
      (hr : x.replyId = some r) : x ∈ l := by
    rcases List.mem_append.mp hx with hx | hx
    · exact hx
    · obtain rfl := List.mem_singleton.mp hx
      simp [hnone] at hr
  constructor
  · simpa [ProviderRun.handOut, hqueue] using hw.numbered
  · intro x hx
    exact hw.queued x (by simp [hqueue, show x ∈ rest from hx])
  · exact hw.audio
  · intro x hx r hr
    exact hw.bound x (hold hx hr) r hr
  · intro x hx hkind r hr
    exact hw.finished x (hold hx hr) hkind r hr
  · refine List.pairwise_append.mpr ⟨hw.closed, List.pairwise_singleton _ _, ?_⟩
    intro x _ y hy _ r _
    obtain rfl := List.mem_singleton.mp hy
    simp [hnone]
  · intro c hc
    obtain ⟨hrag, hle⟩ := hw.claimed c hc
    exact ⟨hrag, by simp only [ProviderRun.handOut, List.length_append]; omega⟩
  · intro hcall c hc x hx hq r hr
    have hdrop : x ∈ w.history.drop c.2 ++ [e] := by
      rw [← List.drop_append_of_le_length (hw.claimed c hc).2]
      exact hx
    exact hw.single hcall c hc x (hold hdrop hr) hq r hr

/-- What a frame does, carried over to the history. -/
theorem RunSound.frame (hw : RunSound a w) {r : Normalized D} (hempty : w.session.events = [])
    (hspec : FrameSpec a w.session.replyState r.1.replyState r.2) :
    RunSound a (w.handOut r) := by
  obtain ⟨s', e⟩ := r
  have hevents : s'.events = [] := hspec.grows.events.trans hempty
  have hnew {x : NormalizedEvent} {l : List NormalizedEvent} (hx : x ∈ l ++ e.toList) :
      x ∈ l ∨ e = some x :=
    (List.mem_append.mp hx).imp_right Option.mem_toList.mp
  constructor
  · have hnumbered : w.current.map NormalizedEvent.sequence =
        List.range' 1 w.session.sequence := by simpa [hempty] using hw.numbered
    have hsequence : s'.sequence = w.session.sequence + e.toList.length := hspec.sequence
    cases he : e with
    | none => simpa [ProviderRun.handOut, he, hevents, hsequence] using hnumbered
    | some x =>
      have hx : x.sequence = w.session.sequence + 1 := hspec.numbered x he
      simp only [ProviderRun.handOut, he, hevents, hsequence, Option.toList_some, List.length_singleton,
        List.append_nil, List.map_append, hnumbered, List.map_cons, List.map_nil, hx]
      rw [List.range'_concat, Nat.one_mul, Nat.add_comm 1]
  · simp [ProviderRun.handOut, hevents]
  · exact hspec.audio hw.audio
  · intro x hx reply hreply
    rcases hnew hx with hold | he
    · obtain ⟨q, hq, hget⟩ := hw.bound x hold reply hreply
      exact ⟨q, hq, hspec.grows.replyQuestions _ _ hget⟩
    · obtain ⟨q, hq, hget, -⟩ := (hspec.reply x reply he hreply hw.audio).bound
      exact ⟨q, hq, hget⟩
  · intro x hx hkind reply hreply
    rcases hnew hx with hold | he
    · exact hspec.grows.finished _ (hw.finished x hold hkind reply hreply)
    · exact (hspec.reply x reply he hreply hw.audio).closes hkind
  · refine List.pairwise_append.mpr ⟨hw.closed, ?_, ?_⟩
    · cases e <;> simp
    · intro x hx y hy hkind reply hreply hsame
      -- a reply whose speech is over admits no further event
      exact (hspec.reply y reply (Option.mem_toList.mp hy) hsame hw.audio).open_
        (hw.finished x hx hkind reply hreply)
  · intro c hc
    obtain ⟨hrag, hle⟩ := hw.claimed c hc
    have hsame : s'.ragQuestions = w.session.ragQuestions := hspec.grows.ragQuestions
    refine ⟨hsame ▸ hrag, ?_⟩
    simp only [ProviderRun.handOut, List.length_append]
    omega
  · intro hcall c hc x hx hq reply hreply
    have hdrop : x ∈ w.history.drop c.2 ++ e.toList := by
      rw [← List.drop_append_of_le_length (hw.claimed c hc).2]
      exact hx
    rcases hnew hdrop with hold | he
    · obtain ⟨rid, hselected, hget⟩ := hw.single hcall c hc x hold hq reply hreply
      exact ⟨rid, hspec.grows.ragReply _ _ hselected, hspec.grows.replies _ _ hget⟩
    · obtain ⟨q, hq', -, hadmits⟩ := (hspec.reply x reply he hreply hw.audio).bound
      obtain rfl : q = c.1 := Option.some.inj (hq'.symm.trans hq)
      have hsame : s'.ragQuestions = w.session.ragQuestions := hspec.grows.ragQuestions
      have hclaimed : c.1 ∈ s'.ragQuestions := hsame ▸ (hw.claimed c hc).1
      exact hadmits hcall hclaimed

/-- A question is claimed before any text of it was passed on. -/
theorem RunSound.claim (hw : RunSound a w) {question : Ident} (injections : List Ident)
    (hnew : question ∉ w.session.textStarted) :
    RunSound a { w with
      injections := injections
      session := { w.session with ragQuestions := question :: w.session.ragQuestions }
      claims := w.claims ++ [(question, w.history.length)] } := by
  constructor
  · exact hw.numbered
  · exact hw.queued
  · intro reply hreply
    obtain ⟨q, hget, hstarted, hadmits⟩ := hw.audio reply hreply
    refine ⟨q, hget, hstarted, fun hcall hmem => hadmits hcall ?_⟩
    rcases List.mem_cons.mp hmem with rfl | hmem
    · exact absurd hstarted hnew
    · exact hmem
  · exact hw.bound
  · exact hw.finished
  · exact hw.closed
  · intro c hc
    rcases List.mem_append.mp hc with hc | hc
    · exact (hw.claimed c hc).imp_left (List.mem_cons_of_mem _)
    · obtain rfl := List.mem_singleton.mp hc
      exact ⟨List.mem_cons_self, le_refl _⟩
  · intro hcall c hc x hx
    rcases List.mem_append.mp hc with hc | hc
    · exact hw.single hcall c hc x hx
    · obtain rfl := List.mem_singleton.mp hc
      simp at hx

/-- The transport is dropped while the maps stay. -/
theorem RunSound.drop (hw : RunSound a w) {s : ProviderSession D}
    (hs : s.replyState = w.session.replyState) :
    RunSound a { w with session := dropTransport s, current := [] } := by
  have hsame := hw.of_state hs w.injections
  refine ⟨by simp [dropTransport], by simp [dropTransport], ?_, hsame.bound, hsame.finished,
    hsame.closed, hsame.claimed, hsame.single⟩
  intro reply hreply
  simp [dropTransport, ProviderSession.replyState] at hreply

/-- The first event of a started session waits in the queue. -/
theorem RunSound.started (hw : RunSound a w) (answer : Option Text) :
    RunSound a { w with session := sessionStarted a w.session answer } := by
  cases answer with
  | none => exact hw.of_state (s := finishSession w.session) rfl w.injections
  | some dialog =>
    refine ⟨?_, ?_, hw.audio, hw.bound, hw.finished, hw.closed, hw.claimed, hw.single⟩
    · have hnumbered := hw.numbered
      simp only [sessionStarted, event, Option.toList_some, ← List.append_assoc, List.map_append,
        List.map_cons, List.map_nil] at hnumbered ⊢
      rw [hnumbered, List.range'_concat, Nat.one_mul, Nat.add_comm 1]
    · intro e he
      rcases List.mem_append.mp he with he | he
      · exact hw.queued e he
      · obtain rfl := List.mem_singleton.mp he
        rfl

/-- A session without a history. -/
theorem fresh_sound {s : ProviderSession D} (injections : List Ident) (hevents : s.events = [])
    (hsequence : s.sequence = 0) (haudio : s.audioReply = none) :
    RunSound a ⟨s, injections, [], [], []⟩ := by
  refine ⟨by simp [hevents, hsequence], by simp [hevents], ?_, by simp, by simp,
    List.Pairwise.nil, by simp, by simp⟩
  intro reply hreply
  simp [ProviderSession.replyState, haudio] at hreply

theorem startFresh_sound (w : ProviderRun D) (answer : Option Text) :
    RunSound a (startFresh h a w answer) :=
  (fresh_sound (s := { clearSession w.session with
      sessionId := h.uuid4 w.session.minted, minted := w.session.minted + 1 })
    w.injections rfl rfl rfl).started answer

theorem reconnectSession_sound (hw : RunSound a w) (enabled enabledAfter connected : Bool)
    (answer : Option Text) :
    RunSound a (reconnectSession h a w enabled enabledAfter connected answer) := by
  unfold reconnectSession
  set reuse := operationAllowed a "supports_session_reconnect" enabled &&
    !w.session.dialogId.isEmpty
  dsimp only
  have hstate : (if reuse = true then w.session else finishSession w.session).replyState =
      w.session.replyState := by
    split_ifs <;> rfl
  generalize (if reuse = true then w.session else finishSession w.session) = s at hstate
  have hdropped := hw.drop hstate
  by_cases hconnected : connected = false
  · rw [if_pos hconnected]
    exact hdropped.of_state (s := finishSession (dropTransport s)) rfl w.injections
  rw [if_neg hconnected]
  have hwired := hdropped.of_state (s := { dropTransport s with wire := true }) rfl w.injections
  split_ifs with hreuse hafter hdialog
  · exact hwired.started answer
  · have hstarted := hwired.started answer
    exact hstarted.of_state (s := finishSession _) rfl w.injections
  · exact hwired
  · exact startFresh_sound _ answer

theorem receive_sound [DecidableEq D] (hw : RunSound a w) {msg : Frame} {w' : ProviderRun D}
    (hstep : receive h a w msg = some w') : RunSound a w' := by
  unfold receive at hstep
  split_ifs at hstep with hread
  split at hstep
  · rename_i r hr
    obtain rfl := Option.some.inj hstep
    exact hw.frame hread.1 (normalize_spec w.session hr)
  · simp at hstep

theorem receiveQueued_sound (hw : RunSound a w) {w' : ProviderRun D}
    (hstep : receiveQueued w = some w') : RunSound a w' := by
  unfold receiveQueued at hstep
  split at hstep
  · simp at hstep
  · rename_i e rest hqueue
    obtain rfl := Option.some.inj hstep
    exact hw.takeQueued hqueue

theorem injectRag_sound (hw : RunSound a w) {question : Ident} {content : Text} {enabled : Bool}
    {w' : ProviderRun D} (hstep : injectRag a w question content enabled = some w') :
    RunSound a w' := by
  unfold injectRag at hstep
  dsimp only at hstep
  split_ifs at hstep <;> obtain rfl := Option.some.inj hstep
  · exact hw
  · exact hw.of_state rfl _

theorem claimRag_sound (hw : RunSound a w) {k : ℕ} {w' : ProviderRun D}
    (hstep : claimRag w k = some w') : RunSound a w' := by
  unfold claimRag at hstep
  split at hstep
  · simp at hstep
  · dsimp only at hstep
    split_ifs at hstep with hready hstale <;> obtain rfl := Option.some.inj hstep
    · exact hw.of_state rfl _
    · exact hw.of_state rfl _
    · exact hw.claim _ (not_or.mp (not_or.mp hstale).2).1

theorem controlQuery_sound (hw : RunSound a w) {content kind token : Text} {w' : ProviderRun D}
    (hstep : controlQuery w content kind token = some w') : RunSound a w' := by
  unfold controlQuery at hstep
  dsimp only at hstep
  split_ifs at hstep
  · obtain rfl := Option.some.inj hstep
    exact hw.of_state (s := { w.session with controlPending := none }) rfl w.injections
  · split at hstep <;> obtain rfl := Option.some.inj hstep
    · exact hw
    · exact hw.of_state (s := { w.session with
        controlPending := some ⟨kind, token, w.session.question⟩ }) rfl w.injections

theorem sayHello_sound (hw : RunSound a w) {content : Text} {w' : ProviderRun D}
    (hstep : sayHello w content = some w') : RunSound a w' := by
  unfold sayHello at hstep
  dsimp only at hstep
  split_ifs at hstep <;> obtain rfl := Option.some.inj hstep
  · exact hw
  · exact hw.of_state (s := { w.session with greetingSession := _, greetingPending := true }) rfl
      w.injections

theorem preservePlayingQuestion_state (s : ProviderSession D) (question : Ident) :
    (preservePlayingQuestion s question).replyState = s.replyState := by
  unfold preservePlayingQuestion
  split_ifs <;> rfl

theorem step_sound [DecidableEq D] (hw : RunSound a w) {i : ProviderInput} {w' : ProviderRun D}
    (hstep : step h a w i = some w') : RunSound a w' := by
  cases i with
  | createConnection =>
    simp only [step] at hstep
    split_ifs at hstep
    obtain rfl := Option.some.inj hstep
    exact hw.of_state (s := { w.session with wire := true }) rfl w.injections
  | startSession answer =>
    simp only [step] at hstep
    split_ifs at hstep
    obtain rfl := Option.some.inj hstep
    exact startFresh_sound w answer
  | reconnectSession enabled enabledAfter connected answer =>
    obtain rfl := Option.some.inj hstep
    exact reconnectSession_sound hw enabled enabledAfter connected answer
  | finishSession =>
    obtain rfl := Option.some.inj hstep
    exact hw.of_state (s := finishSession w.session) rfl w.injections
  | receiveQueued => exact receiveQueued_sound hw hstep
  | receive msg => exact receive_sound hw hstep
  | injectRag question content enabled => exact injectRag_sound hw hstep
  | claimRag k => exact claimRag_sound hw hstep
  | controlQuery content kind token => exact controlQuery_sound hw hstep
  | controlFailed =>
    obtain rfl := Option.some.inj hstep
    exact hw.of_state (s := { w.session with controlPending := none }) rfl w.injections
  | sayHello content => exact sayHello_sound hw hstep
  | preservePlayingQuestion question =>
    obtain rfl := Option.some.inj hstep
    exact hw.of_state (preservePlayingQuestion_state w.session question) w.injections

theorem reachable_sound [DecidableEq D] (hw : (machine h a).Reachable w) : RunSound a w := by
  refine Machine.reachable_invariant ?_ ?_ hw
  · rintro w ⟨minted, rfl⟩
    exact fresh_sound [] rfl rfl rfl
  · intro w i w' hs hstep
    exact step_sound (h := h) (i := i) hs hstep

end Steps

/-- After the claim of an injection all events of replies to its question are of one reply. -/
def SingleReply (w : ProviderRun D) : Prop :=
  ∀ c ∈ w.claims, ∀ e₁ ∈ w.history.drop c.2, ∀ e₂ ∈ w.history.drop c.2,
    e₁.questionId = some c.1 → e₂.questionId = some c.1 →
      ∀ r₁ r₂, e₁.replyId = some r₁ → e₂.replyId = some r₂ → r₁ = r₂

/-- What holds of the events of one session, however often it was resumed. -/
structure NormalizationSound [DecidableEq D] (h : Host D) (a : Adapter) (w : ProviderRun D) :
    Prop where
  /-- Numbers since the last start or resumption. -/
  numbered : w.current.map NormalizedEvent.sequence = List.range' 1 w.current.length
  /-- Every reply heard of has one question. -/
  bound : ∀ e ∈ w.history, ∀ r, e.replyId = some r → ∃ q, e.questionId = some q ∧
    Dict.get w.session.replyQuestions r = some q
  /-- No frame binds a reply anew. -/
  kept : ∀ msg r, normalize h a w.session msg = .ok r → ∀ reply question,
    Dict.get w.session.replyQuestions reply = some question →
      Dict.get r.1.replyQuestions reply = some question
  closed : w.history.Pairwise Closes
  single : a.purpose = "call".toList → SingleReply w

theorem RunSound.numbers {w : ProviderRun D} (hw : RunSound a w) :
    w.current.map NormalizedEvent.sequence = List.range' 1 w.current.length := by
  have hall := hw.numbered
  rw [List.map_append] at hall
  obtain ⟨k, -, hfront, -⟩ := List.range'_eq_append_iff.mp hall.symm
  have hlength : w.current.length = k := by simpa using congrArg List.length hfront
  rw [hfront, hlength]

theorem normalization_sound [DecidableEq D] (h : Host D) (a : Adapter) {w : ProviderRun D}
    (hw : (machine h a).Reachable w) : NormalizationSound h a w where
  numbered := (reachable_sound hw).numbers
  bound := (reachable_sound hw).bound
  kept _ _ hr reply question := (normalize_spec w.session hr).grows.replyQuestions reply question
  closed := (reachable_sound hw).closed
  single hcall c hc e₁ he₁ e₂ he₂ hq₁ hq₂ r₁ r₂ hr₁ hr₂ := by
    have hsound := reachable_sound hw
    obtain ⟨rid₁, hselected₁, hget₁⟩ := hsound.single hcall c hc e₁ he₁ hq₁ r₁ hr₁
    obtain ⟨rid₂, hselected₂, hget₂⟩ := hsound.single hcall c hc e₂ he₂ hq₂ r₂ hr₂
    obtain rfl : rid₁ = rid₂ := Option.some.inj (hselected₁.symm.trans hselected₂)
    exact Option.some.inj (hget₁.symm.trans hget₂)

section Examples

/-- Ids of growing length, and digests that tell frames apart by kind and question. -/
def countingHost : Host (ℕ × Option Ident) where
  uuid4 n := List.replicate (n + 1) 'u'
  digest frame _ question := (frame, question)

def frameOf (session : Text) (frame : ℕ) (fields : Dict Text Json) : Frame :=
  ⟨false, session, frame, none, none, .object fields⟩

/-- A question, an injection for it, and text of two provider replies. -/
def twoReplies : List ProviderInput :=
  let session := ['u']
  let text (rid : String) : Dict Text Json := [("question_id".toList, .str ['q']),
    ("reply_id".toList, .str rid.toList), ("content".toList, .str ['t'])]
  [.createConnection, .startSession (some ['d']), .receiveQueued,
    .receive (frameOf session 450 [("question_id".toList, .str ['q'])]),
    .injectRag ['u', 'u'] [] true, .claimRag 0,
    .receive (frameOf session 550 (text "a")), .receive (frameOf session 550 (text "b"))]

def callAdapter : Adapter := ⟨['c'], "call".toList, none⟩

/-- The adapter of a capability experiment. -/
def experimentAdapter : Adapter :=
  ⟨['c'], "admin_test".toList, some "supports_current_turn_rag_gate".toList⟩

def runOf (a : Adapter) : ProviderRun (ℕ × Option Ident) :=
  (machine countingHost a).after ⟨initialSession 0, [], [], [], []⟩ twoReplies

theorem normalization_sound_two_replies :
    NormalizationSound countingHost callAdapter (runOf callAdapter) :=
  normalization_sound countingHost callAdapter
    (Machine.reachable_after ⟨0, rfl⟩ (by decide))

/-- The numbers of a whole session, across its resumptions. -/
def NumberedThroughout (w : ProviderRun D) : Prop :=
  w.history.map NormalizedEvent.sequence = List.range' 1 w.history.length

def resumedRun : ProviderRun (ℕ × Option Ident) :=
  (machine countingHost callAdapter).after ⟨initialSession 0, [], [], [], []⟩
    [.createConnection, .startSession (some ['d']), .receiveQueued,
      .reconnectSession true true true (some ['d']), .receiveQueued]

/-- In an experiment the guard on injected questions is not applied, and a resumed session counts
its events anew. -/
theorem experiment_and_resumption :
    (∃ w, (machine countingHost experimentAdapter).Reachable w ∧ ¬ SingleReply w) ∧
      ∃ w, (machine countingHost callAdapter).Reachable w ∧ ¬ NumberedThroughout w := by
  refine ⟨?_, resumedRun, Machine.reachable_after ⟨0, rfl⟩ (by decide),
    by unfold NumberedThroughout; decide⟩
  refine ⟨runOf experimentAdapter, Machine.reachable_after ⟨0, rfl⟩ (by decide), ?_⟩
  intro hsingle
  have hreplies : ((runOf experimentAdapter).history.drop 2).map (fun e => (e.questionId, e.replyId)) =
      [(some ['u', 'u'], some ['u', 'u', 'u']), (some ['u', 'u'], some ['u', 'u', 'u', 'u'])] := by
    decide
  have hclaims : (runOf experimentAdapter).claims = [(['u', 'u'], 2)] := by decide
  obtain ⟨e₁, tail, hevents, he₁, htail⟩ := List.map_eq_cons_iff.mp hreplies
  obtain ⟨e₂, rest, rfl, he₂, -⟩ := List.map_eq_cons_iff.mp htail
  obtain ⟨hq₁, hr₁⟩ := Prod.mk.inj he₁
  obtain ⟨hq₂, hr₂⟩ := Prod.mk.inj he₂
  have hsame := hsingle (['u', 'u'], 2) (by simp [hclaims]) e₁ (by simp [hevents]) e₂
    (by simp [hevents]) hq₁ hq₂ _ _ hr₁ hr₂
  exact absurd hsame (by decide)

end Examples

end CompanionBackend.ProviderNormalizer
