import CompanionBackend.PlaybackService
import CompanionBackend.Runs

/-!
# What playback proves

Positions and acknowledgements stay within the audio that was sent and only grow;
what is said to have been heard is made of whole sentences, and grows as well.
Sentences get identities of their own, which is what a random identifier is for.
-/
namespace CompanionBackend.PlaybackSoundness

open ProviderEvents TurnRecords PlaybackService Runs
open VoiceModels (TextEvidence)

/-! ### Sentences -/

/-- What later events and reports leave of a sentence. -/
structure SentenceGrows (s s' : Sentence) : Prop where
  text : s'.text = s.text
  start : s'.startBytes = s.startBytes
  stop : ∀ stop, s.endBytes = some stop → s'.endBytes = some stop
  acked : s.acked = true → s'.acked = true

/-- The sentences of a reply are kept in order, and new ones follow them. -/
def SentencesGrow : List Sentence → List Sentence → Prop
  | [], _ => True
  | _ :: _, [] => False
  | s :: ss, s' :: ss' => SentenceGrows s s' ∧ SentencesGrow ss ss'

theorem SentenceGrows.refl (s : Sentence) : SentenceGrows s s := ⟨rfl, rfl, fun _ => id, id⟩

theorem SentenceGrows.trans {s₁ s₂ s₃ : Sentence} (h : SentenceGrows s₁ s₂)
    (h' : SentenceGrows s₂ s₃) : SentenceGrows s₁ s₃ :=
  ⟨h'.text.trans h.text, h'.start.trans h.start, fun stop hs => h'.stop stop (h.stop stop hs),
    fun hs => h'.acked (h.acked hs)⟩

theorem SentencesGrow.trans {l₁ l₂ l₃ : List Sentence} (h : SentencesGrow l₁ l₂)
    (h' : SentencesGrow l₂ l₃) : SentencesGrow l₁ l₃ := by
  induction l₁ generalizing l₂ l₃ with
  | nil => exact trivial
  | cons s₁ l₁ ih =>
    cases l₂ with
    | nil => exact h.elim
    | cons s₂ l₂ =>
      cases l₃ with
      | nil => exact h'.elim
      | cons s₃ l₃ => exact ⟨h.1.trans h'.1, ih h.2 h'.2⟩

theorem sentencesGrow_append (l added : List Sentence) : SentencesGrow l (l ++ added) := by
  induction l with
  | nil => exact trivial
  | cons s l ih => exact ⟨.refl s, ih⟩

theorem SentencesGrow.refl (l : List Sentence) : SentencesGrow l l := by
  have h := sentencesGrow_append l []
  rwa [List.append_nil] at h

/-- The last sentence grows. -/
theorem sentencesGrow_last (l : List Sentence) {s s' : Sentence} (h : SentenceGrows s s') :
    SentencesGrow (l ++ [s]) (l ++ [s']) := by
  induction l with
  | nil => exact ⟨h, trivial⟩
  | cons t l ih => exact ⟨.refl t, ih⟩

/-- Replacing sentences by grown ones. -/
theorem sentencesGrow_map {l : List (Ident × Sentence)} {f : Ident × Sentence → Ident × Sentence}
    (hf : ∀ p ∈ l, SentenceGrows p.2 (f p).2) :
    SentencesGrow (l.map (·.2)) ((l.map f).map (·.2)) := by
  induction l with
  | nil => exact trivial
  | cons p l ih =>
    exact ⟨hf p List.mem_cons_self, ih fun q hq => hf q (List.mem_cons_of_mem _ hq)⟩

/-- Acknowledged texts stay, and others may come between them. -/
theorem confirmed_sublist {l l' : List Sentence} (h : SentencesGrow l l') :
    List.Sublist ((l.filter (·.acked)).flatMap (·.text)) ((l'.filter (·.acked)).flatMap (·.text)) := by
  induction l generalizing l' with
  | nil => exact List.nil_sublist _
  | cons s l ih =>
    cases l' with
    | nil => exact h.elim
    | cons s' l' =>
      obtain ⟨hs, hl⟩ := h
      by_cases hacked : s.acked = true
      · simp only [List.filter_cons, hacked, hs.acked hacked, if_true, List.flatMap_cons, hs.text]
        exact (List.Sublist.refl _).append (ih hl)
      · by_cases hacked' : s'.acked = true
        · simp only [List.filter_cons, hacked, hacked', if_true, List.flatMap_cons, Bool.false_eq_true,
            if_false]
          exact (ih hl).trans (List.sublist_append_right _ _)
        · simp only [List.filter_cons, hacked, hacked', Bool.false_eq_true, if_false]
          exact ih hl

/-! ### The exact prefix -/

/-- The sentences whose texts make up a prefix. -/
def Heard (playedBytes : ℕ) (s : Sentence) : Prop :=
  s.text ≠ [] ∧ ∃ stop, s.endBytes = some stop ∧ stop ≤ playedBytes

/-- Sentences end in the order in which they started. -/
def EndsOrdered (l : List Sentence) : Prop :=
  l.Pairwise fun a b => ∀ x y, a.endBytes = some x → b.endBytes = some y → x ≤ y

theorem best_isPrefix {text start best : Text} {playedBytes : ℕ} {l : List Sentence}
    (h : best <+: start) : best <+: exactPrefix text playedBytes start best l := by
  induction l generalizing start best with
  | nil => exact List.prefix_refl _
  | cons s l ih =>
    simp only [exactPrefix]
    split
    · exact List.prefix_refl _
    · by_cases hempty : s.text.isEmpty = true
      · simp only [hempty, if_true]
        exact List.prefix_refl _
      · simp only [hempty, Bool.false_eq_true, if_false]
        have hwhole : best <+: start ++ s.text := h.trans (List.prefix_append _ _)
        split_ifs
        · exact hwhole.trans (ih (List.prefix_refl _))
        · exact ih hwhole

/-- What has been played grows, and so does the exact prefix. -/
theorem exactPrefix_mono {text text' start best best' : Text} {playedBytes playedBytes' : ℕ}
    {l l' : List Sentence} (htext : text <+: text') (hplayed : playedBytes ≤ playedBytes')
    (hl : SentencesGrow l l') (hbest : best <+: best') (hstart : best' <+: start) :
    exactPrefix text playedBytes start best l <+: exactPrefix text' playedBytes' start best' l' := by
  induction l generalizing l' start best best' with
  | nil => exact hbest.trans (best_isPrefix hstart)
  | cons s l ih =>
    cases l' with
    | nil => exact hl.elim
    | cons s' l' =>
      obtain ⟨hs, hl⟩ := hl
      have hstay : best <+: exactPrefix text' playedBytes' start best' (s' :: l') :=
        hbest.trans (best_isPrefix hstart)
      cases hstop : s.endBytes with
      | none => simpa only [exactPrefix, hstop] using hstay
      | some stop =>
        by_cases hempty : s.text.isEmpty = true
        · simpa only [exactPrefix, hstop, hempty, if_true] using hstay
        · have hstop' := hs.stop stop hstop
          simp only [exactPrefix, hstop, hstop', hs.text, hs.start, hempty, Bool.false_eq_true,
            if_false]
          have hwhole : best' <+: start ++ s.text := hstart.trans (List.prefix_append _ _)
          by_cases hheard : stop ≤ playedBytes ∧ s.startBytes < stop ∧
              (start ++ s.text).isPrefixOf text = true
          · have hheard' : stop ≤ playedBytes' ∧ s.startBytes < stop ∧
                (start ++ s.text).isPrefixOf text' = true := by
              refine ⟨hheard.1.trans hplayed, hheard.2.1, ?_⟩
              rw [List.isPrefixOf_iff_prefix] at *
              exact hheard.2.2.trans htext
            rw [if_pos hheard, if_pos hheard']
            exact ih hl (List.prefix_refl _) (List.prefix_refl _)
          · rw [if_neg hheard]
            split_ifs
            · exact ih hl (hbest.trans hwhole) (List.prefix_refl _)
            · exact ih hl hbest hwhole

/-- The exact prefix is what it began with, or the texts of leading sentences that were heard. -/
theorem exactPrefix_spec (text start best : Text) {playedBytes : ℕ} {l : List Sentence}
    (hordered : EndsOrdered l) :
    exactPrefix text playedBytes start best l = best ∨
      ∃ k, l.take k ≠ [] ∧
        exactPrefix text playedBytes start best l = start ++ (l.take k).flatMap (·.text) ∧
        exactPrefix text playedBytes start best l <+: text ∧ ∀ s ∈ l.take k, Heard playedBytes s := by
  induction l generalizing start best with
  | nil => exact .inl rfl
  | cons s l ih =>
    obtain ⟨hfirst, hrest⟩ := List.pairwise_cons.mp hordered
    cases hstop : s.endBytes with
    | none => exact .inl (by simp only [exactPrefix, hstop])
    | some stop =>
      by_cases hempty : s.text.isEmpty = true
      · exact .inl (by simp only [exactPrefix, hstop, hempty, if_true])
      · simp only [exactPrefix, hstop, hempty, Bool.false_eq_true, if_false]
        have hnonempty : s.text ≠ [] := by simpa using hempty
        by_cases hheard : stop ≤ playedBytes ∧ s.startBytes < stop ∧
            (start ++ s.text).isPrefixOf text = true
        · rw [if_pos hheard]
          have hs : Heard playedBytes s := ⟨hnonempty, stop, hstop, hheard.1⟩
          right
          rcases ih _ _ hrest with hsame | ⟨k, -, htext, hleading, hall⟩
          · refine ⟨1, by simp, ?_, ?_, by simpa using hs⟩
            · rw [hsame]
              simp
            · rw [hsame]
              exact List.isPrefixOf_iff_prefix.mp hheard.2.2
          · refine ⟨k + 1, by simp, ?_, hleading, ?_⟩
            · rw [htext]
              simp [List.append_assoc]
            · simpa using ⟨hs, hall⟩
        · rw [if_neg hheard]
          rcases ih _ _ hrest with hsame | ⟨k, hk, htext, hleading, hall⟩
          · exact .inl hsame
          · -- A later sentence was heard, and this one ended before it.
            obtain ⟨t, ht⟩ := List.exists_mem_of_ne_nil _ hk
            obtain ⟨-, y, hy, hle⟩ := hall t ht
            have hbefore : stop ≤ y := hfirst t (List.mem_of_mem_take ht) stop y hstop hy
            have hs : Heard playedBytes s := ⟨hnonempty, stop, hstop, hbefore.trans hle⟩
            refine .inr ⟨k + 1, by simp, ?_, hleading, ?_⟩
            · rw [htext]
              simp [List.append_assoc]
            · simpa using ⟨hs, hall⟩

/-! ### Replies -/

/-- What holds of a reply at every moment. -/
structure ReplySound (r : Reply) : Prop where
  played : r.playedMs ≤ r.audioBytes / 48
  floor : r.ackFloorMs ≤ r.audioBytes / 48
  ends : ∀ s ∈ r.sentences.map (·.2), ∀ stop, s.endBytes = some stop → stop ≤ r.audioBytes
  ordered : EndsOrdered (r.sentences.map (·.2))
  ids : (r.sentences.map (·.1)).Nodup
  current : ∀ sid, r.currentSentence = some sid →
    ∃ before s, r.sentences = before ++ [(sid, s)] ∧ s.endBytes = none
  acked : ∀ s ∈ r.sentences.map (·.2), s.acked = true →
    ∃ stop, s.endBytes = some stop ∧ s.startBytes < stop ∧ stop / 48 ≤ r.ackFloorMs
  completed : r.completed = true → r.textFinished = true ∧ r.ttsFinished = true

/-- What later events and frames leave of a reply. -/
structure ReplyGrows (r r' : Reply) : Prop where
  played : r.playedMs ≤ r'.playedMs
  floor : r.ackFloorMs ≤ r'.ackFloorMs
  text : r.text <+: r'.text
  sentences : SentencesGrow (r.sentences.map (·.2)) (r'.sentences.map (·.2))
  stopped : r.stopped = true → r' = r

theorem ReplyGrows.refl (r : Reply) : ReplyGrows r r :=
  ⟨le_refl _, le_refl _, List.prefix_refl _, .refl _, fun _ => rfl⟩

theorem ReplyGrows.trans {r₁ r₂ r₃ : Reply} (h : ReplyGrows r₁ r₂) (h' : ReplyGrows r₂ r₃) :
    ReplyGrows r₁ r₃ := by
  refine ⟨h.played.trans h'.played, h.floor.trans h'.floor, h.text.trans h'.text,
    h.sentences.trans h'.sentences, fun hstopped => ?_⟩
  obtain rfl := h.stopped hstopped
  exact h'.stopped hstopped

theorem replySound_new (question : Ident) : ReplySound (.new question) := by
  refine ⟨Nat.zero_le _, Nat.zero_le _, ?_, List.Pairwise.nil, List.nodup_nil, ?_, ?_, ?_⟩ <;>
    simp [Reply.new]

/-- More audio. -/
theorem replySound_audio {r : Reply} (hr : ReplySound r) (bytes : ℕ) :
    ReplySound { r with audioBytes := r.audioBytes + bytes } := by
  have hmore : r.audioBytes / 48 ≤ (r.audioBytes + bytes) / 48 :=
    Nat.div_le_div_right (Nat.le_add_right _ _)
  exact ⟨hr.played.trans hmore, hr.floor.trans hmore,
    fun s hs stop hstop => (hr.ends s hs stop hstop).trans (Nat.le_add_right _ _),
    hr.ordered, hr.ids, hr.current, hr.acked, hr.completed⟩

/-- A sentence starts. -/
theorem replySound_started {r : Reply} {sid : Ident} {text : Text} (hr : ReplySound r)
    (hfresh : sid ∉ r.sentences.map (·.1)) :
    ReplySound { r with
      sentences := r.sentences ++ [(sid, ⟨text, r.audioBytes, none, false⟩)]
      currentSentence := some sid } := by
  refine ⟨hr.played, hr.floor, ?_, ?_, ?_, ?_, ?_, hr.completed⟩
  · intro s hs stop hstop
    simp only [List.map_append, List.map_cons, List.map_nil, List.mem_append,
      List.mem_singleton] at hs
    rcases hs with hs | rfl
    · exact hr.ends s hs stop hstop
    · cases hstop
  · simp only [List.map_append, List.map_cons, List.map_nil, EndsOrdered]
    refine List.pairwise_append.mpr ⟨hr.ordered, List.pairwise_singleton _ _, ?_⟩
    intro a _ b hb x y _ hy
    obtain rfl := List.mem_singleton.mp hb
    cases hy
  · simp only [List.map_append, List.map_cons, List.map_nil]
    refine List.nodup_append.mpr ⟨hr.ids, List.nodup_singleton _, ?_⟩
    intro a ha b hb
    obtain rfl := List.mem_singleton.mp hb
    rintro rfl
    exact hfresh ha
  · intro sid' hsid'
    obtain rfl := Option.some.inj hsid'
    exact ⟨r.sentences, _, rfl, rfl⟩
  · intro s hs hacked
    simp only [List.map_append, List.map_cons, List.map_nil, List.mem_append,
      List.mem_singleton] at hs
    rcases hs with hs | rfl
    · exact hr.acked s hs hacked
    · cases hacked

/-- The current sentence is the last one, so its end replaces nothing else. -/
theorem endSentence_sentences {r : Reply} {sid : Ident} (hr : ReplySound r)
    (hcurrent : r.currentSentence = some sid) :
    ∃ before s, s.endBytes = none ∧ r.sentences = before ++ [(sid, s)] ∧
      (r.endSentence sid).sentences = before ++ [(sid, { s with endBytes := some r.audioBytes })] := by
  obtain ⟨before, s, hsentences, hopen⟩ := hr.current sid hcurrent
  refine ⟨before, s, hopen, hsentences, ?_⟩
  have hids := hr.ids
  rw [hsentences, List.map_append, List.nodup_append] at hids
  simp only [Reply.endSentence, hsentences, List.map_append, List.map_cons, List.map_nil, if_true]
  congr 1
  refine (List.map_congr_left fun p hp => if_neg fun hsame => ?_).trans (List.map_id _)
  exact hids.2.2 p.1 (List.mem_map_of_mem hp) sid (by simp) hsame

theorem replySound_ended {r : Reply} {sid : Ident} (hr : ReplySound r)
    (hcurrent : r.currentSentence = some sid) : ReplySound (r.endSentence sid) := by
  obtain ⟨before, s, hopen, hsentences, hended⟩ := endSentence_sentences hr hcurrent
  have hold : ∀ t ∈ before.map (·.2), t ∈ r.sentences.map (·.2) := by
    intro t ht
    rw [hsentences, List.map_append]
    exact List.mem_append_left _ ht
  have hlast : s ∈ r.sentences.map (·.2) := by
    rw [hsentences]
    simp
  refine ⟨hr.played, hr.floor, ?_, ?_, ?_, ?_, ?_, hr.completed⟩
  · intro t ht stop hstop
    rw [hended] at ht
    simp only [List.map_append, List.map_cons, List.map_nil, List.mem_append,
      List.mem_singleton] at ht
    rcases ht with ht | rfl
    · exact hr.ends t (hold t ht) stop hstop
    · exact (Option.some.inj hstop).ge
  · have hordered := hr.ordered
    rw [hsentences] at hordered
    rw [hended]
    simp only [EndsOrdered, List.map_append, List.map_cons, List.map_nil] at hordered ⊢
    refine List.pairwise_append.mpr
      ⟨(List.pairwise_append.mp hordered).1, List.pairwise_singleton _ _, ?_⟩
    intro a ha b hb x y hx hy
    obtain rfl := List.mem_singleton.mp hb
    obtain rfl := Option.some.inj hy
    exact hr.ends a (hold a ha) x hx
  · have hids := hr.ids
    rw [hsentences] at hids
    rw [hended]
    simpa using hids
  · intro sid' hsid'
    cases hsid'
  · intro t ht hacked
    rw [hended] at ht
    simp only [List.map_append, List.map_cons, List.map_nil, List.mem_append,
      List.mem_singleton] at ht
    rcases ht with ht | rfl
    · exact hr.acked t (hold t ht) hacked
    · obtain ⟨stop, hstop, -⟩ := hr.acked s hlast hacked
      rw [hopen] at hstop
      cases hstop

theorem replyGrows_ended {r : Reply} {sid : Ident} (hr : ReplySound r)
    (hcurrent : r.currentSentence = some sid) (hopen : r.stopped = false) :
    ReplyGrows r (r.endSentence sid) := by
  refine ⟨le_refl _, le_refl _, List.prefix_refl _, ?_, fun h => by simp [hopen] at h⟩
  obtain ⟨before, s, hnone, hsentences, hended⟩ := endSentence_sentences hr hcurrent
  rw [hended, hsentences]
  simp only [List.map_append, List.map_cons, List.map_nil]
  exact sentencesGrow_last _ ⟨rfl, rfl, fun stop hstop => by simp [hnone] at hstop, id⟩

/-- Every event keeps a reply sound, and lets it grow. -/
theorem feed_sound {r r' : Reply} {e : ProviderEvent} {sid : Ident} {boundary : Option Ident}
    (hr : ReplySound r) (hopen : r.stopped = false) (hfresh : sid ∉ r.sentences.map (·.1))
    (h : r.feed e sid = .ok (r', boundary)) : ReplySound r' ∧ ReplyGrows r r' := by
  have hstill : ∀ {r' : Reply}, r.stopped = true → r' = r := fun h => by simp [hopen] at h
  unfold Reply.feed at h
  split at h
  · split at h
    · split_ifs at h
      simp only [Except.ok.injEq, Prod.mk.injEq] at h
      obtain ⟨rfl, -⟩ := h
      exact ⟨⟨hr.played, hr.floor, hr.ends, hr.ordered, hr.ids, hr.current, hr.acked, hr.completed⟩,
        le_refl _, le_refl _, List.prefix_append _ _, .refl _, hstill⟩
    · cases h
  · split at h
    · split_ifs at h
      simp only [Except.ok.injEq, Prod.mk.injEq] at h
      obtain ⟨rfl, -⟩ := h
      exact ⟨replySound_audio hr _, le_refl _, le_refl _, List.prefix_refl _, .refl _, hstill⟩
    · cases h
  · split_ifs at h
    split at h
    · split_ifs at h
      simp only [Except.ok.injEq, Prod.mk.injEq] at h
      obtain ⟨rfl, -⟩ := h
      refine ⟨replySound_started hr hfresh, le_refl _, le_refl _, List.prefix_refl _, ?_, hstill⟩
      simp only [List.map_append]
      exact sentencesGrow_append _ _
    · cases h
  · split at h
    · simp only [Except.ok.injEq, Prod.mk.injEq] at h
      obtain ⟨rfl, -⟩ := h
      exact ⟨hr, .refl r⟩
    · next sid' hcurrent =>
      simp only [Except.ok.injEq, Prod.mk.injEq] at h
      obtain ⟨rfl, -⟩ := h
      exact ⟨replySound_ended hr hcurrent, replyGrows_ended hr hcurrent hopen⟩
  · simp only [Except.ok.injEq, Prod.mk.injEq] at h
    obtain ⟨rfl, -⟩ := h
    exact ⟨⟨hr.played, hr.floor, hr.ends, hr.ordered, hr.ids, hr.current, hr.acked,
      fun hc => ⟨rfl, (hr.completed hc).2⟩⟩, le_refl _, le_refl _, List.prefix_refl _, .refl _, hstill⟩
  · simp only [Except.ok.injEq, Prod.mk.injEq] at h
    obtain ⟨rfl, -⟩ := h
    exact ⟨⟨hr.played, hr.floor, hr.ends, hr.ordered, hr.ids, hr.current, hr.acked,
      fun hc => ⟨(hr.completed hc).1, rfl⟩⟩, le_refl _, le_refl _, List.prefix_refl _, .refl _, hstill⟩
  · simp only [Except.ok.injEq, Prod.mk.injEq] at h
    obtain ⟨rfl, -⟩ := h
    exact ⟨hr, .refl r⟩

/-! ### Frames -/

/-- A position a client may report. -/
theorem position_spec {r : Reply} {v : FrameValue} {played : ℕ} (h : r.position v = some played) :
    r.playedMs ≤ played ∧ r.ackFloorMs ≤ played ∧ played ≤ r.audioBytes / 48 := by
  unfold Reply.position at h
  split at h
  · split_ifs at h with hn
    obtain rfl := Option.some.inj h
    omega
  · cases h

/-- A new position, with any change of the flags that does not complete the reply. -/
theorem sound_position {r : Reply} {played : ℕ} (hr : ReplySound r) (hopen : r.stopped = false)
    (hfrom : r.playedMs ≤ played) (hto : played ≤ r.audioBytes / 48) (audio completed stop : Bool)
    (hcompleted : completed = true → r.textFinished = true ∧ r.ttsFinished = true) :
    let r' := { r with
      playedMs := played, progressSeen := true, audioCompleted := audio, completed := completed,
      interrupted := stop }
    ReplySound r' ∧ ReplyGrows r r' := by
  refine ⟨⟨hto, hr.floor, hr.ends, hr.ordered, hr.ids, hr.current, hr.acked, hcompleted⟩, hfrom,
    le_refl _, List.prefix_refl _, .refl _, fun h => by simp [hopen] at h⟩

/-- A sentence all of which was sent. -/
theorem sentSentence_spec {r : Reply} {v : FrameValue} {sid : Ident} {stop : ℕ}
    (h : r.sentSentence v = some (sid, stop)) :
    ∃ s, r.sentences.lookup sid = some s ∧ s.endBytes = some stop ∧ s.startBytes < stop := by
  unfold Reply.sentSentence at h
  split at h
  · split at h
    · next text start stop' acked hlookup =>
      split_ifs at h with hlt
      simp only [Option.some.injEq, Prod.mk.injEq] at h
      obtain ⟨rfl, rfl⟩ := h
      exact ⟨_, hlookup, rfl, hlt⟩
    · cases h
  · cases h

/-- An acknowledgement. -/
theorem sound_ack {r : Reply} {v : FrameValue} {sid : Ident} {stop : ℕ} (hr : ReplySound r)
    (hopen : r.stopped = false) (h : r.sentSentence v = some (sid, stop)) :
    ReplySound (r.ackSentence sid stop) ∧ ReplyGrows r (r.ackSentence sid stop) := by
  obtain ⟨s₀, hlookup, hstop, hlt⟩ := sentSentence_spec h
  obtain ⟨l₁, l₂, hsplit, -⟩ := List.lookup_eq_some_iff.mp hlookup
  have hmem : (sid, s₀) ∈ r.sentences := by
    rw [hsplit]
    simp
  have hunique : ∀ p ∈ r.sentences, p.1 = sid → p.2 = s₀ := fun p hp hsid =>
    congrArg Prod.snd (List.inj_on_of_nodup_map hr.ids hp hmem hsid)
  have hbound : stop / 48 ≤ r.audioBytes / 48 :=
    Nat.div_le_div_right (hr.ends s₀ (List.mem_map_of_mem hmem) stop hstop)
  let mark : Ident × Sentence → Ident × Sentence := fun p =>
    if p.1 = sid then (p.1, { p.2 with acked := true }) else p
  have hmark : ∀ p, (mark p).1 = p.1 ∧ (mark p).2.endBytes = p.2.endBytes ∧
      (mark p).2.startBytes = p.2.startBytes ∧ SentenceGrows p.2 (mark p).2 := by
    intro p
    by_cases hsid : p.1 = sid
    · simp only [mark, if_pos hsid]
      exact ⟨trivial, trivial, trivial, rfl, rfl, fun _ => id, fun _ => rfl⟩
    · simp only [mark, if_neg hsid]
      exact ⟨trivial, trivial, trivial, .refl _⟩
  have hsentences : (r.ackSentence sid stop).sentences = r.sentences.map mark := rfl
  have hold : ∀ t ∈ (r.ackSentence sid stop).sentences.map (·.2), ∃ p ∈ r.sentences, (mark p).2 = t := by
    intro t ht
    rw [hsentences, List.map_map] at ht
    obtain ⟨p, hp, rfl⟩ := List.mem_map.mp ht
    exact ⟨p, hp, rfl⟩
  refine ⟨⟨hr.played, max_le hr.floor hbound, ?_, ?_, ?_, ?_, ?_, hr.completed⟩, le_refl _,
    le_max_left _ _, List.prefix_refl _, sentencesGrow_map fun p _ => (hmark p).2.2.2,
    fun h => by simp [hopen] at h⟩
  · intro t ht y hy
    obtain ⟨p, hp, rfl⟩ := hold t ht
    rw [(hmark p).2.1] at hy
    exact hr.ends p.2 (List.mem_map_of_mem hp) y hy
  · have hordered := hr.ordered
    rw [EndsOrdered, List.pairwise_map] at hordered
    rw [hsentences, EndsOrdered, List.map_map, List.pairwise_map]
    refine hordered.imp fun hab x y hx hy => ?_
    rw [Function.comp, (hmark _).2.1] at hx hy
    exact hab x y hx hy
  · have hids : (r.sentences.map mark).map (·.1) = r.sentences.map (·.1) := by
      rw [List.map_map]
      exact List.map_congr_left fun p _ => (hmark p).1
    rw [hsentences, hids]
    exact hr.ids
  · intro sid' hsid'
    obtain ⟨before, s, hbefore, hnone⟩ := hr.current sid' hsid'
    refine ⟨before.map mark, (mark (sid', s)).2, ?_, ?_⟩
    · rw [hsentences, hbefore, List.map_append, List.map_cons, List.map_nil]
      congr 2
      exact Prod.ext (hmark (sid', s)).1 rfl
    · rw [(hmark (sid', s)).2.1]
      exact hnone
  · intro t ht hacked
    obtain ⟨p, hp, rfl⟩ := hold t ht
    rw [(hmark p).2.1, (hmark p).2.2.1]
    by_cases hsid : p.1 = sid
    · rw [hunique p hp hsid]
      exact ⟨stop, hstop, hlt, le_max_right _ _⟩
    · simp only [mark, if_neg hsid] at hacked
      obtain ⟨y, hy, hstart, hfloor⟩ := hr.acked p.2 (List.mem_map_of_mem hp) hacked
      exact ⟨y, hy, hstart, hfloor.trans (le_max_left _ _)⟩

/-- Every accepted frame keeps a reply sound, and lets it grow. -/
theorem client_sound {r r' : Reply} {f : CheckedFrame} (hr : ReplySound r)
    (hopen : r.stopped = false) (h : r.client f = .ok (some r')) :
    ReplySound r' ∧ ReplyGrows r r' := by
  unfold Reply.client at h
  split at h
  · split_ifs at h
    · simp at h
    simp only [Except.ok.injEq, Option.some.injEq] at h
    rw [← h]
    exact sound_position hr hopen hr.played (le_refl _) _ _ _ hr.completed
  · split at h
    · cases h
    · next played hposition =>
      simp only [Except.ok.injEq, Option.some.injEq] at h
      rw [← h]
      obtain ⟨hfrom, -, hto⟩ := position_spec hposition
      exact sound_position hr hopen hfrom hto _ _ _ hr.completed
  · split at h
    · cases h
    · next played hposition =>
      simp only [Except.ok.injEq, Option.some.injEq] at h
      rw [← h]
      obtain ⟨hfrom, -, hto⟩ := position_spec hposition
      exact sound_position hr hopen hfrom hto _ _ _ hr.completed
  · split at h
    · cases h
    · next sid stop hsent =>
      simp only [Except.ok.injEq, Option.some.injEq] at h
      rw [← h]
      exact sound_ack hr hopen hsent
  · split_ifs at h with hunfinished
    simp only [Except.ok.injEq, Option.some.injEq] at h
    rw [← h]
    refine sound_position hr hopen hr.played (le_refl _) _ _ _ fun _ => ?_
    constructor <;> by_contra hnot <;> simp [hnot] at hunfinished

/-! ### What is said to have been heard -/

/-- What a reply proves of a text. -/
def Evidenced (r : Reply) (result : EffectiveText) : Prop :=
  match result.evidence with
  | .full => result.text = r.text ∧ r.textFinished = true ∧ r.ttsFinished = true
  | .exactPlayed =>
    result.playedMs = some r.playedMs ∧ result.text <+: r.text ∧
      ∃ k, result.text = ((r.sentences.map (·.2)).take k).flatMap (·.text) ∧
        ∀ s ∈ (r.sentences.map (·.2)).take k, Heard (r.playedMs * 48) s
  | .confirmedSentences =>
    ∃ heard : List Sentence, List.Sublist heard (r.sentences.map (·.2)) ∧
      result.text = heard.flatMap (·.text) ∧
      ∀ s ∈ heard, s.acked = true ∧ ∃ stop, s.endBytes = some stop ∧ s.startBytes < stop ∧
        stop ≤ r.audioBytes ∧ stop / 48 ≤ r.ackFloorMs
  | .none => result.text = []

/-- What an earlier text says about a later one of the same reply. -/
def TextsOrdered (result result' : EffectiveText) : Prop :=
  (result.evidence = .exactPlayed → result'.evidence = .exactPlayed ∨ result'.evidence = .full →
    result.text <+: result'.text) ∧
  (result.evidence = .confirmedSentences → result'.evidence = .confirmedSentences →
    List.Sublist result.text result'.text)

theorem exactText_spec {r : Reply} (hr : ReplySound r) (hnonempty : r.exactText.isEmpty = false) :
    r.exactText <+: r.text ∧ ∃ k, r.exactText = ((r.sentences.map (·.2)).take k).flatMap (·.text) ∧
      ∀ s ∈ (r.sentences.map (·.2)).take k, Heard (r.playedMs * 48) s := by
  rcases exactPrefix_spec r.text [] [] hr.ordered with
    hnone | ⟨k, -, htext, hleading, hall⟩
  · rw [Reply.exactText, hnone] at hnonempty
    simp at hnonempty
  · exact ⟨hleading, k, htext, hall⟩

/-- The four levels of evidence. -/
theorem snapshot_cases (r : Reply) (c : PlaybackCapabilities) :
    ((r.snapshot c).evidence = .full ∧ (r.snapshot c).text = r.text ∧ r.completed = true) ∨
    ((r.snapshot c).evidence = .exactPlayed ∧ (r.snapshot c).text = r.exactText ∧
      (r.snapshot c).playedMs = some r.playedMs ∧ r.exactText.isEmpty = false) ∨
    ((r.snapshot c).evidence = .confirmedSentences ∧ (r.snapshot c).text = r.confirmedText) ∨
    ((r.snapshot c).evidence = .none ∧ (r.snapshot c).text = []) := by
  unfold Reply.snapshot
  by_cases hcompleted : r.completed = true
  · rw [if_pos hcompleted]
    exact .inl ⟨rfl, rfl, hcompleted⟩
  rw [if_neg hcompleted]
  by_cases hexact : (c.mapping && r.progressSeen && !r.exactText.isEmpty) = true
  · rw [if_pos hexact]
    simp only [Bool.and_eq_true, Bool.not_eq_true'] at hexact
    obtain ⟨⟨-, hseen⟩, hnonempty⟩ := hexact
    exact .inr (.inl ⟨rfl, rfl, by simp [hseen], hnonempty⟩)
  rw [if_neg hexact]
  by_cases hconfirmed : (c.ack && !r.confirmedText.isEmpty) = true
  · rw [if_pos hconfirmed]
    exact .inr (.inr (.inl ⟨rfl, rfl⟩))
  · rw [if_neg hconfirmed]
    exact .inr (.inr (.inr ⟨rfl, rfl⟩))

theorem snapshot_evidenced {r : Reply} (hr : ReplySound r) (c : PlaybackCapabilities) :
    Evidenced r (r.snapshot c) := by
  unfold Evidenced
  rcases snapshot_cases r c with ⟨hlevel, htext, hcompleted⟩ | ⟨hlevel, htext, hplayed, hnonempty⟩ |
    ⟨hlevel, htext⟩ | ⟨hlevel, htext⟩
  · simp only [hlevel, htext]
    exact ⟨trivial, hr.completed hcompleted⟩
  · simp only [hlevel, htext]
    exact ⟨hplayed, exactText_spec hr hnonempty⟩
  · simp only [hlevel, htext]
    refine ⟨(r.sentences.map (·.2)).filter (·.acked), List.filter_sublist, rfl, fun s hs => ?_⟩
    obtain ⟨hmem, hacked⟩ := List.mem_filter.mp hs
    obtain ⟨stop, hstop, hstart, hfloor⟩ := hr.acked s hmem hacked
    exact ⟨hacked, stop, hstop, hstart, hr.ends s hmem stop hstop, hfloor⟩
  · simp only [hlevel, htext]

theorem snapshot_ordered {r r' : Reply} (hr : ReplySound r) (h : ReplyGrows r r')
    (c c' : PlaybackCapabilities) : TextsOrdered (r.snapshot c) (r'.snapshot c') := by
  refine ⟨fun hlevel hlater => ?_, fun hlevel hlater => ?_⟩
  · rcases snapshot_cases r c with ⟨hcase, -⟩ | ⟨-, htext, -, hnonempty⟩ | ⟨hcase, -⟩ | ⟨hcase, -⟩
    · simp [hcase] at hlevel
    · rw [htext]
      rcases snapshot_cases r' c' with ⟨-, htext', -⟩ | ⟨-, htext', -, -⟩ | ⟨hcase, -⟩ | ⟨hcase, -⟩
      · rw [htext']
        exact (exactText_spec hr hnonempty).1.trans h.text
      · rw [htext']
        exact exactPrefix_mono h.text (Nat.mul_le_mul_right 48 h.played) h.sentences
          (List.prefix_refl _) (List.prefix_refl _)
      · simp [hcase] at hlater
      · simp [hcase] at hlater
    · simp [hcase] at hlevel
    · simp [hcase] at hlevel
  · have hconfirmed : ∀ {r : Reply} {c : PlaybackCapabilities},
        (r.snapshot c).evidence = .confirmedSentences → (r.snapshot c).text = r.confirmedText := by
      intro r c hlevel
      rcases snapshot_cases r c with ⟨hcase, -⟩ | ⟨hcase, -⟩ | ⟨-, htext⟩ | ⟨hcase, -⟩
      · simp [hcase] at hlevel
      · simp [hcase] at hlevel
      · exact htext
      · simp [hcase] at hlevel
    rw [hconfirmed hlevel, hconfirmed hlater]
    exact confirmed_sublist h.sentences

/-! ### Every run -/

/-- What happens to the evidence of a call. -/
inductive PlaybackInput
  | feed (e : ProviderEvent) (allowBuffered : Bool) (sid : Ident)
  | client (f : ClientFrame) (c : PlaybackCapabilities)

/-- The identity of a new sentence is not that of another sentence of the reply. -/
def Fresh (s : PlaybackEvidence) (e : ProviderEvent) (sid : Ident) : Prop :=
  ∀ r, (e.replyId.bind s.replies.lookup) = some r → sid ∉ r.sentences.map (·.1)

instance (s : PlaybackEvidence) (e : ProviderEvent) (sid : Ident) : Decidable (Fresh s e sid) :=
  match h : e.replyId.bind s.replies.lookup with
  | none => isTrue fun r hr => by simp [h] at hr
  | some r =>
    decidable_of_iff (sid ∉ r.sentences.map (·.1)) ⟨fun hsid r' hr' => by
      rw [h] at hr'
      exact Option.some.inj hr' ▸ hsid, fun hall => hall r h⟩

/-- The evidence of the call with the given identity. -/
def playback (callId : Ident) : Machine PlaybackEvidence PlaybackInput where
  start s := s = .new callId
  step s
    | .feed e allowBuffered sid => if Fresh s e sid then some (s.feed e allowBuffered sid).1 else none
    | .client f c => some (s.client f c).1

def AllSound (s : PlaybackEvidence) : Prop :=
  ∀ reply r, s.replies.lookup reply = some r → ReplySound r

def AllGrow (s s' : PlaybackEvidence) : Prop :=
  ∀ reply r, s.replies.lookup reply = some r →
    ∃ r', s'.replies.lookup reply = some r' ∧ ReplyGrows r r'

theorem AllGrow.refl (s : PlaybackEvidence) : AllGrow s s := fun _ r hr => ⟨r, hr, .refl r⟩

theorem AllGrow.trans {s₁ s₂ s₃ : PlaybackEvidence} (h : AllGrow s₁ s₂) (h' : AllGrow s₂ s₃) :
    AllGrow s₁ s₃ := by
  intro reply r hr
  obtain ⟨r', hr', hgrows⟩ := h reply r hr
  obtain ⟨r'', hr'', hgrows'⟩ := h' reply r' hr'
  exact ⟨r'', hr'', hgrows.trans hgrows'⟩

/-- Replacing a reply by one that has grown. -/
theorem putReply_sound {s : PlaybackEvidence} {reply : Ident} {r r' : Reply} (hs : AllSound s)
    (hr : s.replies.lookup reply = some r) (hsound : ReplySound r') (hgrows : ReplyGrows r r') :
    AllSound (s.putReply reply r') ∧ AllGrow s (s.putReply reply r') := by
  refine ⟨fun reply' t ht => ?_, fun reply' t ht => ?_⟩
  · by_cases hsame : reply' = reply
    · subst hsame
      rw [PlaybackEvidence.putReply, AList.lookup_insert] at ht
      exact Option.some.inj ht ▸ hsound
    · rw [PlaybackEvidence.putReply, AList.lookup_insert_ne hsame] at ht
      exact hs reply' t ht
  · by_cases hsame : reply' = reply
    · subst hsame
      rw [hr] at ht
      exact ⟨r', AList.lookup_insert _, Option.some.inj ht ▸ hgrows⟩
    · exact ⟨t, (AList.lookup_insert_ne hsame).trans ht, .refl t⟩

/-- The reply of an event; its sentences are those it had before. -/
theorem openReply_sound {s s' : PlaybackEvidence} {e : ProviderEvent} {reply : Ident} {r : Reply}
    (hs : AllSound s) (h : s.openReply e reply = .ok (s', r)) :
    AllSound s' ∧ AllGrow s s' ∧ s'.replies.lookup reply = some r ∧
      (s.replies.lookup reply = some r ∨ r.sentences = []) := by
  unfold PlaybackEvidence.openReply at h
  split at h
  · next hfound =>
    simp only [Except.ok.injEq, Prod.mk.injEq] at h
    obtain ⟨rfl, rfl⟩ := h
    exact ⟨hs, .refl s, hfound, .inl hfound⟩
  · next hnone =>
    split at h
    · split_ifs at h
      simp only [Except.ok.injEq, Prod.mk.injEq] at h
      obtain ⟨rfl, rfl⟩ := h
      refine ⟨fun reply' t ht => ?_, fun reply' t ht => ?_, AList.lookup_insert _, .inr rfl⟩
      · by_cases hsame : reply' = reply
        · subst hsame
          rw [PlaybackEvidence.putReply, AList.lookup_insert] at ht
          exact Option.some.inj ht ▸ replySound_new _
        · rw [PlaybackEvidence.putReply, AList.lookup_insert_ne hsame] at ht
          exact hs reply' t ht
      · have hne : reply' ≠ reply := by
          rintro rfl
          simp [hnone] at ht
        exact ⟨t, (AList.lookup_insert_ne hne).trans ht, .refl t⟩
    · cases h

/-- Every event. -/
theorem feed_allSound {s : PlaybackEvidence} {e : ProviderEvent} (allowBuffered : Bool) {sid : Ident}
    (hs : AllSound s) (hfresh : Fresh s e sid) :
    AllSound (s.feed e allowBuffered sid).1 ∧ AllGrow s (s.feed e allowBuffered sid).1 := by
  unfold PlaybackEvidence.feed
  split_ifs
  · exact ⟨hs, .refl s⟩
  · exact ⟨hs, .refl s⟩
  dsimp only
  split
  · exact ⟨hs, .refl s⟩
  · exact ⟨hs, .refl s⟩
  next c cs hreply =>
  split
  · exact ⟨hs, .refl s⟩
  next s' r hopened =>
  obtain ⟨hs', hgrow, hfound, hold⟩ := openReply_sound (s := { s with
    providerSequence := s.providerSequence.insert e.sessionId
      (max e.sequence ((s.providerSequence.lookup e.sessionId).getD 0)) }) hs hopened
  by_cases hquestion : some r.questionId ≠ e.questionId
  · rw [if_pos hquestion]
    exact ⟨hs', hgrow⟩
  rw [if_neg hquestion]
  by_cases hstopped : r.stopped = true
  · rw [if_pos hstopped]
    exact ⟨hs', hgrow⟩
  rw [if_neg hstopped]
  split
  · exact ⟨hs', hgrow⟩
  next r' boundary hfed =>
  have hsid : sid ∉ r.sentences.map (·.1) := by
    rcases hold with hold | hnone
    · exact hfresh r (by rw [hreply]; exact hold)
    · rw [hnone]
      exact List.not_mem_nil
  obtain ⟨hsound, hgrows⟩ := feed_sound (hs' _ r hfound) (by simpa using hstopped) hsid hfed
  obtain ⟨hall, hall'⟩ := putReply_sound hs' hfound hsound hgrows
  exact ⟨hall, hgrow.trans hall'⟩

/-- What a frame does: it is refused or passed over and changes no reply, or its result is what the
reply proves after it. -/
theorem client_cases (s : PlaybackEvidence) (f : ClientFrame) (c : PlaybackCapabilities) :
    (∃ err, s.client f c = (s, .error err)) ∨
    (∃ s', s.client f c = (s', .ok none) ∧ s'.replies = s.replies) ∨
    (∃ reply r r' frame, s.client f c =
        ({ s.putReply reply r' with clientSequence := frame.seq }, .ok (some (reply, r'.snapshot c))) ∧
      s.replies.lookup reply = some r ∧ r.stopped = false ∧ r.client frame = .ok (some r')) := by
  unfold PlaybackEvidence.client
  split
  · exact .inl ⟨_, rfl⟩
  next frame _ =>
  by_cases hstale : frame.seq ≤ s.clientSequence
  · rw [if_pos hstale]
    exact .inr (.inl ⟨s, rfl, rfl⟩)
  rw [if_neg hstale]
  split
  · exact .inl ⟨_, rfl⟩
  next r hr =>
  by_cases hstopped : r.stopped = true
  · rw [if_pos hstopped]
    exact .inr (.inl ⟨s, rfl, rfl⟩)
  rw [if_neg hstopped]
  split
  · exact .inl ⟨_, rfl⟩
  · exact .inr (.inl ⟨_, rfl, rfl⟩)
  · next r' hclient =>
    exact .inr (.inr ⟨frame.reply, r, r', frame, rfl, hr, by simpa using hstopped, hclient⟩)

/-- Every frame. -/
theorem client_allSound {s : PlaybackEvidence} (f : ClientFrame) (c : PlaybackCapabilities)
    (hs : AllSound s) : AllSound (s.client f c).1 ∧ AllGrow s (s.client f c).1 := by
  rcases client_cases s f c with ⟨err, heq⟩ | ⟨s', heq, hreplies⟩ |
    ⟨reply, r, r', frame, heq, hr, hopen, hclient⟩
  · rw [heq]
    exact ⟨hs, .refl s⟩
  · rw [heq]
    unfold AllSound AllGrow
    rw [hreplies]
    exact ⟨hs, AllGrow.refl s⟩
  · rw [heq]
    obtain ⟨hsound, hgrows⟩ := client_sound (hs reply r hr) hopen hclient
    exact putReply_sound hs hr hsound hgrows

theorem step_allSound {callId : Ident} {s s' : PlaybackEvidence} {i : PlaybackInput}
    (hs : AllSound s) (h : (playback callId).step s i = some s') : AllSound s' ∧ AllGrow s s' := by
  cases i with
  | feed e allowBuffered sid =>
    simp only [playback] at h
    split_ifs at h with hfresh
    obtain rfl := Option.some.inj h
    exact feed_allSound allowBuffered hs hfresh
  | client f c =>
    obtain rfl := Option.some.inj h
    exact client_allSound f c hs

theorem reachable_allSound {callId : Ident} {s : PlaybackEvidence}
    (hs : (playback callId).Reachable s) : AllSound s := by
  refine Machine.reachable_invariant ?_ (fun s i s' hs h => (step_allSound hs h).1) hs
  rintro s rfl reply r hr
  simp [PlaybackEvidence.new] at hr

/-- What a client can bring about: whatever it sends, positions and acknowledgements stay within the
audio that was sent and never go back, a refused frame leaves the evidence as it is, a stopped reply
stays as it is, and the texts said to have been heard are made of whole sentences and only grow. -/
structure ClientBounded (callId : Ident) (s : PlaybackEvidence) : Prop where
  replies : ∀ reply r, s.replies.lookup reply = some r →
    r.playedMs ≤ r.audioBytes / 48 ∧ r.ackFloorMs ≤ r.audioBytes / 48 ∧
      ∀ c, Evidenced r (r.snapshot c)
  frames : ∀ f c, match (s.client f c).2 with
    | .error _ => (s.client f c).1 = s
    | .ok none => (s.client f c).1.replies = s.replies
    | .ok (some (reply, result)) => ∃ r r', s.replies.lookup reply = some r ∧ r.stopped = false ∧
      (s.client f c).1.replies = s.replies.insert reply r' ∧ result = r'.snapshot c
  runs : ∀ is s', (playback callId).run s is = some s' →
    ∀ reply r, s.replies.lookup reply = some r → ∃ r', s'.replies.lookup reply = some r' ∧
      r.playedMs ≤ r'.playedMs ∧ r.ackFloorMs ≤ r'.ackFloorMs ∧ (r.stopped = true → r' = r) ∧
      ∀ c c', TextsOrdered (r.snapshot c) (r'.snapshot c')

theorem playback_sound (callId : Ident) {s : PlaybackEvidence}
    (hs : (playback callId).Reachable s) : ClientBounded callId s := by
  have hsound := reachable_allSound hs
  refine ⟨fun reply r hr => ?_, fun f c => ?_, fun is s' hrun reply r hr => ?_⟩
  · have hreply := hsound reply r hr
    exact ⟨hreply.played, hreply.floor, snapshot_evidenced hreply⟩
  · rcases client_cases s f c with ⟨err, heq⟩ | ⟨s', heq, hreplies⟩ |
      ⟨reply, r, r', frame, heq, hr, hopen, hclient⟩
    · rw [heq]
    · rw [heq]
      exact hreplies
    · rw [heq]
      exact ⟨r, r', hr, hopen, rfl, rfl⟩
  · have hrun' := Machine.run_invariant (I := fun s' => AllSound s' ∧ AllGrow s s') ?_
      ⟨hsound, .refl s⟩ hrun
    · obtain ⟨r', hr', hgrows⟩ := hrun'.2 reply r hr
      exact ⟨r', hr', hgrows.played, hgrows.floor, hgrows.stopped,
        snapshot_ordered (hsound reply r hr) hgrows⟩
    · intro s₁ i s₂ hs₁ hstep
      obtain ⟨hsound₂, hgrow⟩ := step_allSound hs₁.1 hstep
      exact ⟨hsound₂, hs₁.2.trans hgrow⟩

/-- Two sentences of two seconds are sent. -/
def twoSentences : List PlaybackInput :=
  let event (kind : EventKind) (sequence : ℕ) (payload : Payload) (sid : Ident) : PlaybackInput :=
    .feed ⟨kind, ['c'], ['s'], sequence, some ['q'], some ['r'], payload, none⟩ true sid
  [event .chatText 1 (.text ['a', 'b']) [], event .sentenceStarted 2 (.data (.str ['a'])) ['1'],
    event .ttsAudio 3 (.audio 96000) [], event .sentenceFinished 4 .absent [],
    event .sentenceStarted 5 (.data (.str ['b'])) ['2'], event .ttsAudio 6 (.audio 96000) [],
    event .sentenceFinished 7 .absent []]

def sentencePlayed (seq : ℕ) (sid : Ident) : ClientFrame :=
  ⟨some .sentencePlayed, some (.str ['c']), some (.str ['r']), some (.int seq), none, some (.str sid),
    false⟩

theorem playback_sound_twoSentences :
    let s := (playback ['c']).after (.new ['c'])
      (twoSentences ++ [.client (sentencePlayed 1 ['1']) ⟨true, true⟩])
    (s.replies.lookup ['r']).map (·.ackFloorMs) = some 2000 ∧ ClientBounded ['c'] s :=
  ⟨by decide, playback_sound ['c'] (Machine.reachable_after rfl (by decide))⟩

/-- A client that reports only the second sentence: its text is kept, though it is no prefix of the
reply's text and lies beyond the position of the reply. -/
theorem second_sentence_alone :
    let s := (playback ['c']).after (.new ['c']) twoSentences
    (playback ['c']).Reachable s ∧
      (s.client (sentencePlayed 1 ['2']) ⟨false, true⟩).2 =
        .ok (some (['r'], ⟨['b'], .confirmedSentences, none, false, false⟩)) ∧
      (s.replies.lookup ['r']).map (·.text) = some ['a', 'b'] ∧ ¬ ['b'] <+: ['a', 'b'] :=
  ⟨Machine.reachable_after rfl (by decide), by decide, by decide,
    by decide⟩

end CompanionBackend.PlaybackSoundness
