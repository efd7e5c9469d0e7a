import CompanionBackend.ProviderNormalizer

/-!
# Replies under the normaliser

One frame extends the maps it finds, never replaces an entry, and emits an event of a
reply only while that reply is not finished and is the one its question admits. Runs
carry this over to everything handed out since the session began.
-/
namespace CompanionBackend.ProviderNormalizer

open Runs ProviderEvents Dictionaries

variable {D : Type} {h : Host D} {a : Adapter}

/-- The part of a session that decides about replies. -/
structure ReplyState where
  events : List NormalizedEvent
  sequence : ℕ
  audioReply : Option Ident
  replies : Dict Text Ident
  replyQuestions : Dict Ident Ident
  textStarted : List Ident
  ragQuestions : List Ident
  ragReply : Dict Ident Text
  finished : List Ident

def ProviderSession.replyState (s : ProviderSession D) : ReplyState :=
  { events := s.events, sequence := s.sequence, audioReply := s.audioReply, replies := s.replies
    replyQuestions := s.replyQuestions, textStarted := s.textStarted
    ragQuestions := s.ragQuestions, ragReply := s.ragReply, finished := s.finished }

/-- The reply is the one kept for a question that had an injection. -/
def ReplyState.Admits (a : Adapter) (c : ReplyState) (question reply : Ident) : Prop :=
  a.purpose = "call".toList → question ∈ c.ragQuestions →
    ∃ rid, Dict.get c.ragReply question = some rid ∧ Dict.get c.replies rid = some reply

/-- The reply whose audio is passed on has begun its text. -/
def ReplyState.AudioSound (a : Adapter) (c : ReplyState) : Prop :=
  ∀ reply, c.audioReply = some reply → ∃ question,
    Dict.get c.replyQuestions reply = some question ∧ question ∈ c.textStarted ∧
      c.Admits a question reply

/-- No entry of the maps is lost or replaced. -/
structure Grows (c c' : ReplyState) : Prop where
  replies : ∀ k v, Dict.get c.replies k = some v → Dict.get c'.replies k = some v
  replyQuestions : ∀ k v, Dict.get c.replyQuestions k = some v →
    Dict.get c'.replyQuestions k = some v
  ragReply : ∀ k v, Dict.get c.ragReply k = some v → Dict.get c'.ragReply k = some v
  finished : ∀ r ∈ c.finished, r ∈ c'.finished
  textStarted : ∀ q ∈ c.textStarted, q ∈ c'.textStarted
  ragQuestions : c'.ragQuestions = c.ragQuestions
  events : c'.events = c.events

theorem Grows.refl (c : ReplyState) : Grows c c :=
  ⟨fun _ _ h => h, fun _ _ h => h, fun _ _ h => h, fun _ h => h, fun _ h => h, rfl, rfl⟩

theorem Grows.trans {c₁ c₂ c₃ : ReplyState} (h₁ : Grows c₁ c₂) (h₂ : Grows c₂ c₃) :
    Grows c₁ c₃ where
  replies k v h := h₂.replies k v (h₁.replies k v h)
  replyQuestions k v h := h₂.replyQuestions k v (h₁.replyQuestions k v h)
  ragReply k v h := h₂.ragReply k v (h₁.ragReply k v h)
  finished r h := h₂.finished r (h₁.finished r h)
  textStarted q h := h₂.textStarted q (h₁.textStarted q h)
  ragQuestions := h₂.ragQuestions.trans h₁.ragQuestions
  events := h₂.events.trans h₁.events

theorem Grows.admits {c c' : ReplyState} (hg : Grows c c') {question reply : Ident}
    (ha : c.Admits a question reply) : c'.Admits a question reply := by
  intro hcall hrag
  obtain ⟨rid, hselected, hreply⟩ := ha hcall (hg.ragQuestions ▸ hrag)
  exact ⟨rid, hg.ragReply _ _ hselected, hg.replies _ _ hreply⟩

/-- Growth that leaves the reply with the audio alone. -/
theorem Grows.audioSound {c c' : ReplyState} (hg : Grows c c')
    (haudio : c'.audioReply = c.audioReply) (hs : c.AudioSound a) : c'.AudioSound a := by
  intro reply hreply
  obtain ⟨question, hbound, hstarted, hadmits⟩ := hs reply (haudio ▸ hreply)
  exact ⟨question, hg.replyQuestions _ _ hbound, hg.textStarted _ hstarted, hg.admits hadmits⟩

/-- An event of a reply that may be emitted between two states. -/
structure ReplyEvent (a : Adapter) (c c' : ReplyState) (e : NormalizedEvent) (reply : Ident) :
    Prop where
  open_ : reply ∉ c.finished
  bound : ∃ question, e.questionId = some question ∧
    Dict.get c'.replyQuestions reply = some question ∧ c'.Admits a question reply
  closes : e.kind = .ttsFinished → reply ∈ c'.finished

/-- What one frame does. -/
structure FrameSpec (a : Adapter) (c c' : ReplyState) (e : Option NormalizedEvent) : Prop where
  grows : Grows c c'
  audio : c.AudioSound a → c'.AudioSound a
  sequence : c'.sequence = c.sequence + e.toList.length
  numbered : ∀ x, e = some x → x.sequence = c.sequence + 1
  reply : ∀ x r, e = some x → x.replyId = some r → c.AudioSound a → ReplyEvent a c c' x r

/-- A frame that leaves the reply state as it is. -/
theorem FrameSpec.silent {c : ReplyState} : FrameSpec a c c none :=
  ⟨Grows.refl c, fun hs => hs, rfl, by simp, by simp⟩

/-- An event without a reply. -/
theorem event_spec (s : ProviderSession D) (kind : EventKind) (payload : EventPayload)
    (question : Option Ident) (confidence : Option Json) :
    FrameSpec a s.replyState (event a s kind payload question none confidence).1.replyState
      (event a s kind payload question none confidence).2 where
  grows := ⟨fun _ _ h => h, fun _ _ h => h, fun _ _ h => h, fun _ h => h, fun _ h => h, rfl, rfl⟩
  audio hs := hs
  sequence := rfl
  numbered := by simp [event, ProviderSession.replyState]
  reply := by
    intro x r hx hreply
    obtain rfl := Option.some.inj hx
    simp at hreply

section Substeps

variable {s s' : ProviderSession D}

theorem takeSequence_state {key : ℕ × Option Text × Option Text} {seq : Option ℕ}
    (hs : takeSequence s key seq = some s') : s'.replyState = s.replyState := by
  cases seq with
  | none => simp_all [takeSequence]
  | some n =>
    simp only [takeSequence] at hs
    split_ifs at hs
    obtain rfl := Option.some.inj hs
    rfl

theorem takeBoundary_state [DecidableEq D] {frame : ℕ} {fields : Dict Text Json}
    (hs : takeBoundary h s frame fields = some s') : s'.replyState = s.replyState := by
  unfold takeBoundary at hs
  dsimp only at hs
  split_ifs at hs <;> obtain rfl := Option.some.inj hs <;> rfl

@[simp] theorem bindQuestion_state (qid : Text) :
    (bindQuestion h s qid).replyState = s.replyState := rfl

theorem bindGreeting_state (frame : ℕ) (qid rid : Option Text) :
    (bindGreeting h s frame qid rid).replyState = s.replyState := by
  unfold bindGreeting
  split
  · split_ifs <;> rfl
  · rfl

end Substeps

section Frames

variable (s : ProviderSession D)

theorem controlConfirmed_spec (qid : Option Text) :
    FrameSpec a s.replyState (controlConfirmed h a s qid).1.replyState
      (controlConfirmed h a s qid).2 := by
  unfold controlConfirmed
  dsimp only
  split
  · split_ifs
    · exact FrameSpec.silent
    · exact event_spec (bindQuestion h { s with controlPending := none } _) _ _ _ _
  · exact FrameSpec.silent

theorem userSpeech_spec {frame : ℕ} {fields : Dict Text Json} {qid : Option Text}
    {r : Normalized D} (hr : userSpeech h a s frame fields qid = .ok r) :
    FrameSpec a s.replyState r.1.replyState r.2 := by
  unfold userSpeech at hr
  split_ifs at hr
  · cases qid with
    | none =>
      obtain rfl := Except.ok.inj hr
      exact FrameSpec.silent
    | some qid =>
      obtain rfl := Except.ok.inj hr
      exact event_spec (bindQuestion h { s with greetingPending := false } qid) _ _ _ _
  · obtain rfl := Except.ok.inj hr
    exact FrameSpec.silent
  · obtain ⟨result, -, hr⟩ := bind_eq_ok.mp hr
    obtain ⟨-, -, hr⟩ := bind_eq_ok.mp hr
    obtain rfl := Except.ok.inj hr
    exact event_spec s _ _ _ _
  · obtain rfl := Except.ok.inj hr
    exact event_spec s _ _ _ _

theorem sessionFrame_spec {frame : ℕ} {fields : Dict Text Json} {r : Normalized D}
    (hr : sessionFrame a s frame fields = .ok r) :
    FrameSpec a s.replyState r.1.replyState r.2 := by
  unfold sessionFrame at hr
  by_cases h154 : frame = 154
  · rw [if_pos h154] at hr
    obtain rfl := Except.ok.inj hr
    exact event_spec { s with usage := _ } _ _ _ _
  rw [if_neg h154] at hr
  by_cases h152 : frame = 152
  · rw [if_pos h152] at hr
    obtain rfl := Except.ok.inj hr
    exact event_spec { s with ready := false } _ _ _ _
  rw [if_neg h152] at hr
  by_cases h571 : frame = 571
  · rw [if_pos h571] at hr
    obtain ⟨ids, -, hr⟩ := bind_eq_ok.mp hr
    obtain rfl := Except.ok.inj hr
    exact event_spec s _ _ _ _
  rw [if_neg h571] at hr
  by_cases hcontext : frame = 567 ∨ frame = 570
  · rw [if_pos hcontext] at hr
    obtain rfl := Except.ok.inj hr
    exact event_spec s _ _ _ _
  · rw [if_neg hcontext] at hr
    obtain rfl := Except.ok.inj hr
    exact FrameSpec.silent

/-- Audio is passed on for the reply that holds it. -/
theorem audioFrame_spec {payload : FramePayload} {r : Normalized D}
    (hr : audioFrame a s payload = .ok r) : FrameSpec a s.replyState r.1.replyState r.2 := by
  unfold audioFrame at hr
  split at hr
  · obtain rfl := Except.ok.inj hr
    exact FrameSpec.silent
  · rename_i reply haudio
    split_ifs at hr with hfinished
    · obtain rfl := Except.ok.inj hr
      exact FrameSpec.silent
    · split at hr
      · simp at hr
      · rename_i question hbound
        obtain rfl := Except.ok.inj hr
        refine ⟨⟨fun _ _ h => h, fun _ _ h => h, fun _ _ h => h, fun _ h => h, fun _ h => h, rfl,
          rfl⟩, fun hs => hs, rfl, by simp [event, ProviderSession.replyState], ?_⟩
        intro x r' hx hreply hs
        obtain rfl := Option.some.inj hx
        obtain rfl : reply = r' := Option.some.inj hreply
        obtain ⟨question', hbound', -, hadmits⟩ := hs reply haudio
        obtain rfl : question = question' := Option.some.inj (hbound.symm.trans hbound')
        exact ⟨hfinished, ⟨question, rfl, hbound, hadmits⟩, by simp⟩

/-- What passes the guard is the first reply observed, and the guard only adds that choice. -/
structure GuardSpec (a : Adapter) (s : ProviderSession D) (question : Ident) (rid : Text)
    (g : ProviderSession D × Bool) : Prop where
  grows : Grows s.replyState g.1.replyState
  audio : s.replyState.AudioSound a → g.1.replyState.AudioSound a
  sequence : g.1.sequence = s.sequence
  finished : g.1.finished = s.finished
  passes : g.2 = true → a.purpose = "call".toList → question ∈ g.1.ragQuestions →
    Dict.get g.1.ragReply question = some rid

theorem ragGuard_spec (frame : ℕ) (fields : Dict Text Json) (question : Ident) (rid : Text) :
    GuardSpec a s question rid (ragGuard a s frame fields question rid) := by
  unfold ragGuard
  by_cases hrag : a.purpose = "call".toList ∧ question ∈ s.ragQuestions
  · rw [if_pos hrag]
    split
    · rename_i hselected
      split_ifs
      · exact ⟨Grows.refl _, fun hs => hs, rfl, rfl, nofun⟩
      · have hgrows : Grows s.replyState
            ({ s with ragReply := Dict.set s.ragReply question rid } :
              ProviderSession D).replyState :=
          { Grows.refl s.replyState with
            ragReply := by
              intro k v hk
              have hne : question ≠ k := by
                rintro rfl
                exact absurd (hselected.symm.trans hk) (by simp)
              exact (Dict.get_set_ne hne).trans hk }
        exact ⟨hgrows, hgrows.audioSound rfl, rfl, rfl, fun _ _ _ => Dict.get_set_self _ _ _⟩
    · rename_i selected hselected
      by_cases hother : selected = rid
      · subst hother
        rw [if_neg (not_not.mpr rfl)]
        exact ⟨Grows.refl _, fun hs => hs, rfl, rfl, fun _ _ _ => hselected⟩
      · rw [if_pos hother]
        refine ⟨{ Grows.refl s.replyState with }, ?_, rfl, rfl, nofun⟩
        intro hs reply hreply
        by_cases hframe : frame = 350
        · simp [ProviderSession.replyState, hframe] at hreply
        · exact hs reply (by simpa [ProviderSession.replyState, hframe] using hreply)
  · rw [if_neg hrag]
    exact ⟨Grows.refl _, fun hs => hs, rfl, rfl, fun _ hcall hmem => absurd ⟨hcall, hmem⟩ hrag⟩

/-- The reply that passed is bound to the question, and its event is emitted while it is open. -/
theorem replyEvent_spec (frame : ℕ) (fields : Dict Text Json) (question : Ident) (rid : Text)
    (hpass : a.purpose = "call".toList → question ∈ s.ragQuestions →
      Dict.get s.ragReply question = some rid) :
    FrameSpec a s.replyState (replyEvent h a s frame fields question rid).1.replyState
      (replyEvent h a s frame fields question rid).2 := by
  unfold replyEvent
  dsimp only
  set r := Dict.setDefault s.replies rid (h.uuid4 s.minted) with hr
  set known := Dict.setDefault s.replyQuestions r.2 question with hknown
  have hreplies : ∀ k v, Dict.get s.replies k = some v → Dict.get r.1 k = some v :=
    fun k v hk => Dict.get_setDefault_of_some hk
  have hquestions : ∀ k v, Dict.get s.replyQuestions k = some v → Dict.get known.1 k = some v :=
    fun k v hk => Dict.get_setDefault_of_some hk
  have hgrows (audioReply : Option Ident) (textStarted finished : List Ident) (sequence : ℕ)
      (hstarted : ∀ q ∈ s.textStarted, q ∈ textStarted)
      (hfinished : ∀ r ∈ s.finished, r ∈ finished) :
      Grows s.replyState
        ⟨s.events, sequence, audioReply, r.1, known.1, textStarted, s.ragQuestions, s.ragReply,
          finished⟩ :=
    ⟨hreplies, hquestions, fun _ _ hk => hk, hfinished, hstarted, rfl, rfl⟩
  by_cases hdrop : known.2 ≠ question ∨ r.2 ∈ s.finished
  · rw [if_pos hdrop]
    have hg := hgrows s.audioReply s.textStarted s.finished s.sequence (fun _ h => h) fun _ h => h
    exact ⟨hg, hg.audioSound rfl, rfl, by simp, by simp⟩
  · rw [if_neg hdrop]
    obtain ⟨hsame, hopen⟩ := not_or.mp hdrop
    have hbound : Dict.get known.1 r.2 = some question := by
      rw [← not_not.mp hsame]
      exact Dict.get_setDefault_self _ _ _
    have hstarted : ∀ q ∈ s.textStarted,
        q ∈ if frame = 350 ∨ frame = 550 then question :: s.textStarted else s.textStarted := by
      intro q hq
      split_ifs
      · exact List.mem_cons_of_mem _ hq
      · exact hq
    have hfinished : ∀ r' ∈ s.finished,
        r' ∈ if frame = 359 then r.2 :: s.finished else s.finished := by
      intro r' hr'
      split_ifs
      · exact List.mem_cons_of_mem _ hr'
      · exact hr'
    have hadmits (c : ReplyState) (hrag : c.ragQuestions = s.ragQuestions)
        (hselected : c.ragReply = s.ragReply) (hmap : c.replies = r.1) :
        c.Admits a question r.2 := by
      intro hcall hmem
      refine ⟨rid, hselected ▸ hpass hcall (hrag ▸ hmem), ?_⟩
      rw [hmap]
      exact Dict.get_setDefault_self _ _ _
    refine ⟨hgrows _ _ _ _ hstarted hfinished, ?_, rfl,
      by simp [event, ProviderSession.replyState], ?_⟩
    · intro hs reply hreply
      by_cases hframe : frame = 350
      · obtain rfl : r.2 = reply := by
          simpa [event, ProviderSession.replyState, hframe] using hreply
        exact ⟨question, hbound, by simp [event, ProviderSession.replyState, hframe],
          hadmits _ rfl rfl rfl⟩
      · have hg := hgrows s.audioReply _ _ (s.sequence + 1) hstarted hfinished
        have haudio := hg.audioSound rfl hs
        obtain ⟨q, hq, hmem, hadm⟩ := haudio reply (by
          simpa [event, ProviderSession.replyState, hframe] using hreply)
        exact ⟨q, hq, hmem, hadm⟩
    · intro x r' hx hreply _
      obtain rfl := Option.some.inj hx
      obtain rfl : r.2 = r' := Option.some.inj hreply
      refine ⟨hopen, ⟨question, rfl, hbound, hadmits _ rfl rfl rfl⟩, ?_⟩
      intro hkind
      have hframe : frame = 359 := by
        by_contra hne
        revert hkind
        simp only [replyKind, hne, if_false]
        split_ifs <;> simp
      simp [event, ProviderSession.replyState, hframe]

/-- One spec after another, the first without an event. -/
theorem FrameSpec.after {c₁ c₂ c₃ : ReplyState} {e : Option NormalizedEvent}
    (hgrows : Grows c₁ c₂) (haudio : c₁.AudioSound a → c₂.AudioSound a)
    (hsequence : c₂.sequence = c₁.sequence) (hfinished : c₂.finished = c₁.finished)
    (hspec : FrameSpec a c₂ c₃ e) : FrameSpec a c₁ c₃ e where
  grows := hgrows.trans hspec.grows
  audio hs := hspec.audio (haudio hs)
  sequence := hsequence ▸ hspec.sequence
  numbered := hsequence ▸ hspec.numbered
  reply x r hx hr hs := by
    obtain ⟨hopen, hbound, hcloses⟩ := hspec.reply x r hx hr (haudio hs)
    exact ⟨hfinished ▸ hopen, hbound, hcloses⟩

theorem replyFrame_spec (frame : ℕ) (fields : Dict Text Json) (qid rid : Option Text) :
    FrameSpec a s.replyState (replyFrame h a s frame fields qid rid).1.replyState
      (replyFrame h a s frame fields qid rid).2 := by
  unfold replyFrame
  rw [← bindGreeting_state (h := h) (s := s) frame qid rid]
  generalize bindGreeting h s frame qid rid = s'
  dsimp only
  split
  · rename_i question rid _
    split_ifs with hcurrent hpass
    · exact FrameSpec.silent
    · have hguard := ragGuard_spec (a := a) s' frame fields question rid
      exact FrameSpec.after hguard.grows hguard.audio hguard.sequence hguard.finished
        (replyEvent_spec _ frame fields question rid (hguard.passes hpass))
    · have hguard := ragGuard_spec (a := a) s' frame fields question rid
      exact FrameSpec.after hguard.grows hguard.audio hguard.sequence hguard.finished
        FrameSpec.silent
  · exact FrameSpec.silent

end Frames

section Normalize

variable (s : ProviderSession D) {r : Normalized D}

theorem dispatch_spec {frame : ℕ} {fields : Dict Text Json} {qid rid : Option Text}
    (hr : dispatch h a s frame fields qid rid = .ok r) :
    FrameSpec a s.replyState r.1.replyState r.2 := by
  unfold dispatch at hr
  by_cases hcontrol : frame = 553
  · rw [if_pos hcontrol] at hr
    obtain rfl := Except.ok.inj hr
    exact controlConfirmed_spec s qid
  rw [if_neg hcontrol] at hr
  by_cases hspeech : frame ∈ [450, 451, 459]
  · rw [if_pos hspeech] at hr
    exact userSpeech_spec s hr
  rw [if_neg hspeech] at hr
  by_cases hreply : frame ∈ [350, 351, 359, 550, 559]
  · rw [if_pos hreply] at hr
    obtain rfl := Except.ok.inj hr
    exact replyFrame_spec s frame fields qid rid
  · rw [if_neg hreply] at hr
    exact sessionFrame_spec s hr

variable [DecidableEq D]

theorem normalizeObject_spec {msg : Frame} {fields : Dict Text Json}
    (hr : normalizeObject h a s msg fields = .ok r) :
    FrameSpec a s.replyState r.1.replyState r.2 := by
  obtain ⟨qid, -, hr⟩ := bind_eq_ok.mp hr
  obtain ⟨rid, -, hr⟩ := bind_eq_ok.mp hr
  obtain ⟨seq, -, hr⟩ := bind_eq_ok.mp hr
  split at hr
  · obtain rfl := Except.ok.inj hr
    exact FrameSpec.silent
  · rename_i s₁ hsequence
    rw [← takeSequence_state hsequence]
    split at hr
    · obtain rfl := Except.ok.inj hr
      rw [takeSequence_state hsequence]
      exact FrameSpec.silent
    · rename_i s₂ hboundary
      rw [← takeBoundary_state hboundary]
      exact dispatch_spec s₂ hr

theorem normalize_spec {msg : Frame} (hr : normalize h a s msg = .ok r) :
    FrameSpec a s.replyState r.1.replyState r.2 := by
  unfold normalize at hr
  split_ifs at hr
  · obtain rfl := Except.ok.inj hr
    exact FrameSpec.silent
  · exact audioFrame_spec s hr
  · split at hr
    · simp at hr
    · exact normalizeObject_spec s hr

end Normalize

end CompanionBackend.ProviderNormalizer
