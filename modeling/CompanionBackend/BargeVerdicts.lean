import CompanionBackend.BargeClassifier

/-!
# What an interruption verdict rests on

Every call keeps what the classifier's fields say about the calls made so far. A verdict is read off
them, and after it the question is settled until another one starts.
-/
namespace CompanionBackend.BargeClassifier

section Invariant

variable (H : Hearing) (W : Words)

/-- The fields say what the text reads as. -/
structure ReadAs (s : Classifier) (normalized : List Char) : Prop where
  nonempty : normalized ≠ []
  weak : s.weak = BackchannelService.pureAck normalized W.weakAcknowledgements
  strong : s.strong = holdsStrong W normalized
  meaningful : s.meaningful = decide (2 ≤ normalized.length)

/-- The fields follow from the calls so far. -/
structure Inv (s : Classifier) (calls : List Call) : Prop where
  question : s.question = lastStarted calls
  asked : s.hasText = true → s.asked = true
  stretch : ∃ earlier fs, frames calls = earlier ++ fs ∧ Stretch H s fs
  current : ∀ q, s.question = some q → ∃ before now after, Current calls q before now after ∧
    Heard H s.speechMs before now after ∧
    (s.resolved = false → s.hasText = true →
      ∃ text, Latest q text after ∧ ReadAs W s (normalize H text))

end Invariant

section Steps

variable {H : Hearing} {W : Words} {S : Settings} {s : Classifier} {calls : List Call}

theorem inv_new : Inv H W Classifier.new [] where
  question := rfl
  asked := by simp [Classifier.new]
  stretch := ⟨[], [], rfl, ⟨⟨by simp, List.isChain_nil⟩, rfl, rfl, rfl, rfl⟩⟩
  current := by simp [Classifier.new]

/-- A settled question needs no text any more. -/
theorem Inv.resolve (h : Inv H W s calls) : Inv H W { s with resolved := true } calls where
  question := h.question
  asked := h.asked
  stretch := by
    obtain ⟨earlier, fs, hframes, hs⟩ := h.stretch
    exact ⟨earlier, fs, hframes, ⟨hs.sounding, hs.opened, hs.last, hs.audio, hs.wall⟩⟩
  current := by
    intro q hq
    obtain ⟨before, now, after, hcurrent, hheard, -⟩ := h.current q hq
    exact ⟨before, now, after, hcurrent, hheard, by simp⟩

/-- A call that changes no field. -/
theorem Inv.skip (h : Inv H W s calls) {c : Call} (hframes : frames [c] = [])
    (hstart : ∀ q n, c = .start q n → s.question = some q)
    (htext : ∀ q t f, c = .text q t f →
      s.asked = false ∨ s.question ≠ some q ∨ s.resolved = true) : Inv H W s (calls ++ [c]) where
  question := by
    cases c with
    | start q n => rw [hstart q n rfl, lastStarted_start]
    | audio pcm now => rw [h.question, lastStarted_other (by simp)]
    | text q t f => rw [h.question, lastStarted_other (by simp)]
  asked := h.asked
  stretch := by
    obtain ⟨earlier, fs, hsplit, hs⟩ := h.stretch
    exact ⟨earlier, fs, by rw [frames_append, hframes, List.append_nil, hsplit], hs⟩
  current := by
    intro q hq
    obtain ⟨before, now, after, hcurrent, hheard, hread⟩ := h.current q hq
    refine ⟨before, now, after ++ [c], hcurrent.extend ?_, hheard.extend c, fun hres hhas => ?_⟩
    · intro q' n hc
      exact Option.some.inj ((hstart q' n hc).symm.trans hq)
    · obtain ⟨text, hlatest, has⟩ := hread hres hhas
      refine ⟨text, hlatest.extend fun t f hc => ?_, has⟩
      rcases htext q t f hc with hasked | hother | hresolved
      · rw [h.asked hhas] at hasked
        cases hasked
      · exact hother hq
      · rw [hres] at hresolved
        cases hresolved

/-- A stretch is carried over if the question starts soon enough after it. -/
theorem heard_carried {earlier fs : List Frame} (hframes : frames calls = earlier ++ fs)
    (hs : Stretch H s fs) (now : Option ℚ) : Heard H (s.carried now) calls now [] := by
  unfold Classifier.carried
  split
  case h_2 => exact heard_zero H calls _ []
  case h_1 n t hlast =>
    by_cases hsoon : 0 ≤ n - t ∧ n - t ≤ 1 / 4
    · rw [if_pos hsoon]
      refine ⟨earlier, fs, [], by simpa [frames] using hframes, hs.sounding,
        (min_le_left _ _).trans hs.audio.le, (min_le_right _ _).trans hs.wall.le, fun last hl => ?_⟩
      refine ⟨by simp, fun n' hn' => ?_⟩
      obtain rfl := Option.some.inj hn'
      have ht := hs.last
      rw [hl, hlast] at ht
      rw [← Option.some.inj ht]
      exact hsoon.2
    · rw [if_neg hsoon]
      exact heard_zero H calls _ []

theorem Inv.start (h : Inv H W s calls) (q : ProviderEvents.Text) (now : Option ℚ) :
    Inv H W (s.start q now) (calls ++ [.start q now]) := by
  by_cases hq : s.question = some q
  · rw [Classifier.start, if_pos hq]
    refine h.skip rfl (fun q' n hc => ?_) (fun _ _ _ hc => by cases hc)
    cases hc
    exact hq
  · rw [Classifier.start, if_neg hq]
    obtain ⟨earlier, fs, hframes, hs⟩ := h.stretch
    refine ⟨(lastStarted_start calls q now).symm, by simp, ⟨earlier, fs, ?_, ?_⟩, ?_⟩
    · rw [frames_append, hframes]
      exact List.append_nil _
    · exact ⟨hs.sounding, hs.opened, hs.last, hs.audio, hs.wall⟩
    · intro q' hq'
      obtain rfl : q = q' := Option.some.inj hq'
      exact ⟨calls, now, [], ⟨rfl, h.question ▸ hq, by simp⟩, heard_carried hframes hs now, by simp⟩

theorem Inv.silence (h : Inv H W s calls) (pcm : List ℤ) (now : ℚ) :
    Inv H W s.silence (calls ++ [.audio pcm now]) where
  question := h.question.trans (lastStarted_other (by simp) calls).symm
  asked := h.asked
  stretch := ⟨frames (calls ++ [.audio pcm now]), [], (List.append_nil _).symm,
    ⟨⟨by simp, List.isChain_nil⟩, rfl, rfl, rfl, rfl⟩⟩
  current := by
    intro q hq
    obtain ⟨before, n, after, hcurrent, hheard, hread⟩ := h.current q hq
    refine ⟨before, n, after ++ [.audio pcm now], hcurrent.extend (by simp), hheard.extend _,
      fun hres hhas => ?_⟩
    obtain ⟨text, hlatest, has⟩ := hread hres hhas
    exact ⟨text, hlatest.extend (by simp), ⟨has.nonempty, has.weak, has.strong, has.meaningful⟩⟩

/-- The stretch that the frame belongs to is heard by the question that was started before it. -/
theorem heard_sound {earlier fs : List Frame} {pcm : List ℤ} {now : ℚ} {q : ProviderEvents.Text}
    {before after : List Call} {started : Option ℚ}
    (hmono : Nondecreasing (calls ++ [.audio pcm now])) (hcurrent : Current calls q before started after)
    (hframes : frames (calls ++ [.audio pcm now]) = earlier ++ fs)
    (hlast : fs.getLast? = some ⟨pcm, now⟩) (hs : Stretch H s fs) :
    Heard H (min s.audioMs s.wallMs) before started (after ++ [.audio pcm now]) := by
  refine ⟨earlier, fs, [], ?_, hs.sounding, (min_le_left _ _).trans hs.audio.le,
    (min_le_right _ _).trans hs.wall.le, fun last hl => ⟨fun _ => by simp [frames], ?_⟩⟩
  · rw [List.append_nil, ← hframes, hcurrent.split]
    simp [frames]
  · rintro n rfl
    obtain rfl : ⟨pcm, now⟩ = last := Option.some.inj (hlast.symm.trans hl)
    have hle : n ≤ now := le_of_nondecreasing hmono (by rw [hcurrent.split]; simp [times])
    linarith

theorem Inv.sound (h : Inv H W s calls) {pcm : List ℤ} {now : ℚ} (hloud : H.loud pcm = true)
    (hmono : Nondecreasing (calls ++ [.audio pcm now])) :
    Inv H W (s.sound pcm now) (calls ++ [.audio pcm now]) := by
  obtain ⟨earlier, fs, hframes, hs⟩ := h.stretch
  have hle : ∀ f ∈ fs, f.time ≤ now := fun f hf =>
    le_of_nondecreasing hmono (time_mem (hframes ▸ List.mem_append_right earlier hf))
  obtain ⟨fs', hs', hfs'⟩ := hs.sound hloud hle
  have hframes' : ∃ earlier', frames (calls ++ [.audio pcm now]) = earlier' ++ fs' := by
    rw [frames_append, hframes]
    rcases hfs' with rfl | rfl
    · exact ⟨earlier ++ fs, rfl⟩
    · exact ⟨earlier, List.append_assoc _ _ _⟩
  obtain ⟨earlier', hframes'⟩ := hframes'
  obtain ⟨opened, audioMs, hreopen⟩ : ∃ a m, s.reopen now = { s with startedAt := a, audioMs := m } := by
    rw [Classifier.reopen]
    split
    · exact ⟨some now, 0, rfl⟩
    · split_ifs
      · exact ⟨some now, 0, rfl⟩
      · exact ⟨s.startedAt, s.audioMs, rfl⟩
  have hasked : (s.sound pcm now).asked = s.asked := by
    simp [Classifier.sound, hreopen, Classifier.asked]
  have hquestion : (s.sound pcm now).question = s.question := by
    simp [Classifier.sound, hreopen]
  refine ⟨hquestion.trans (h.question.trans (lastStarted_other (by simp) calls).symm), ?_,
    ⟨earlier', fs', hframes', hs'⟩, fun q hq => ?_⟩
  · rw [hasked]
    have hhas : (s.sound pcm now).hasText = s.hasText := by simp [Classifier.sound, hreopen]
    rw [hhas]
    exact h.asked
  · obtain ⟨before, n, after, hcurrent, hheard, hread⟩ := h.current q (hquestion ▸ hq)
    refine ⟨before, n, after ++ [.audio pcm now], hcurrent.extend (by simp), ?_, fun hres hhas => ?_⟩
    · have hlast : fs'.getLast? = some ⟨pcm, now⟩ := by
        rcases hfs' with rfl | rfl
        · rfl
        · exact List.getLast?_concat
      have hnew := heard_sound hmono hcurrent hframes' hlast hs'
      have hspeech : (s.sound pcm now).speechMs = s.speechMs ∨ (s.sound pcm now).speechMs =
          min (s.sound pcm now).audioMs (s.sound pcm now).wallMs := by
        simp only [Classifier.sound, hreopen]
        split_ifs
        · exact max_choice _ _
        · exact .inl rfl
      rcases hspeech with hspeech | hspeech
      · rw [hspeech]
        exact hheard.extend _
      · rw [hspeech]
        exact hnew
    · simp only [Classifier.sound, hreopen] at hres hhas
      obtain ⟨text, hlatest, has⟩ := hread hres hhas
      refine ⟨text, hlatest.extend (by simp), ⟨has.nonempty, ?_, ?_, ?_⟩⟩
      · simpa [Classifier.sound, hreopen] using has.weak
      · simpa [Classifier.sound, hreopen] using has.strong
      · simpa [Classifier.sound, hreopen] using has.meaningful

/-- A text of the question is what is read from then on. -/
theorem Inv.read (h : Inv H W s calls) {q t : ProviderEvents.Text} (final : Bool)
    (hasked : s.asked = true) (hq : s.question = some q) :
    Inv H W (s.read W (normalize H t)) (calls ++ [.text q t final]) where
  question := h.question.trans (lastStarted_other (by simp) calls).symm
  asked := fun _ => hasked
  stretch := by
    obtain ⟨earlier, fs, hframes, hs⟩ := h.stretch
    refine ⟨earlier, fs, ?_, ⟨hs.sounding, hs.opened, hs.last, hs.audio, hs.wall⟩⟩
    rw [frames_append, hframes]
    exact List.append_nil _
  current := by
    intro q' hq'
    obtain rfl : q = q' := Option.some.inj (hq.symm.trans hq')
    obtain ⟨before, now, after, hcurrent, hheard, -⟩ := h.current q hq
    refine ⟨before, now, after ++ [.text q t final], hcurrent.extend (by simp), hheard.extend _,
      fun _ hhas => ⟨t, latest_last q t after final, of_decide_eq_true hhas, rfl, rfl, rfl⟩⟩

end Steps

/-! ### Deciding -/

section Deciding

variable {H : Hearing} {W : Words} {S : Settings} {s : Classifier} {calls : List Call} {c : Call}

/-- What the fields have to say for a verdict. -/
def Says (s : Classifier) (final : Bool) : Verdict → Prop
  | .bargeIn => s.strong = true ∨ (s.weak = false ∧ s.meaningful = true)
  | .backchannel => final = true ∧ s.weak = true ∧ s.strong = false

theorem decide_spec {final : Bool} {v : Verdict} (h : (s.decide S final).2 = some v) :
    s.resolved = false ∧ s.hasText = true ∧ S.candidateMs - 1 / 1000 ≤ s.speechMs ∧
      (s.decide S final).1.resolved = true ∧ Says s final v := by
  rw [Classifier.decide] at h ⊢
  by_cases hopen : (s.resolved || !s.asked || !s.hasText) = true
  · rw [if_pos hopen] at h
    cases h
  by_cases hshort : s.speechMs + 1 / 1000 < S.candidateMs
  · rw [if_neg hopen, if_pos hshort] at h
    cases h
  rw [if_neg hopen, if_neg hshort] at h ⊢
  simp only [Bool.or_eq_true, Bool.not_eq_true', not_or, Bool.not_eq_true, Bool.not_eq_false]
    at hopen
  refine ⟨hopen.1.1, hopen.2, by linarith, ?_⟩
  by_cases hbarge : (s.strong || (!s.weak && s.meaningful && (final || decide (250 ≤ s.speechMs)))) = true
  · rw [if_pos hbarge] at h ⊢
    obtain rfl := Option.some.inj h
    simp only [Bool.or_eq_true, Bool.and_eq_true, Bool.not_eq_true'] at hbarge
    exact ⟨rfl, hbarge.imp_right And.left⟩
  by_cases hback : (final && s.weak) = true
  · rw [if_neg hbarge, if_pos hback] at h ⊢
    obtain rfl := Option.some.inj h
    rw [Bool.and_eq_true] at hback
    simp only [Bool.or_eq_true, not_or, Bool.not_eq_true] at hbarge
    exact ⟨rfl, hback.1, hback.2, hbarge.1⟩
  · rw [if_neg hbarge, if_neg hback] at h
    cases h

theorem decide_fst (s : Classifier) (S : Settings) (final : Bool) :
    (s.decide S final).1 = s ∨ (s.decide S final).1 = { s with resolved := true } := by
  rw [Classifier.decide]
  split_ifs <;> simp

theorem Inv.decide (h : Inv H W s calls) (S : Settings) (final : Bool) :
    Inv H W (s.decide S final).1 calls := by
  rcases decide_fst s S final with heq | heq
  · rwa [heq]
  · rw [heq]
    exact h.resolve

/-- What the fields say about the question that a call decides on. -/
structure Decided (H : Hearing) (W : Words) (s : Classifier) (calls : List Call) (c : Call)
    (final : Bool) : Prop where
  evidence : ∃ q before now after text, Current (calls ++ [c]) q before now after ∧
    Latest q text after ∧ Heard H s.speechMs before now after ∧ ReadAs W s (normalize H text) ∧
    (final = true → c = .text q text true)

theorem Decided.grounded {final : Bool} {v : Verdict} (h : Decided H W s calls c final)
    (hv : (s.decide S final).2 = some v) : Grounded H W S calls c v := by
  obtain ⟨-, -, hlong, -, hwhy⟩ := decide_spec hv
  obtain ⟨q, before, now, after, text, hcurrent, hlatest, hheard, hread, hfinal⟩ := h.evidence
  refine ⟨q, before, now, after, text, hcurrent, hlatest, hread.nonempty, hheard.mono hlong, ?_⟩
  cases v with
  | backchannel =>
    exact ⟨hfinal hwhy.1, hread.weak ▸ hwhy.2.1, hread.strong ▸ hwhy.2.2⟩
  | bargeIn =>
    refine hwhy.imp (fun hstrong => hread.strong ▸ hstrong) fun ⟨hweak, hmeaning⟩ => ?_
    exact ⟨hread.weak ▸ hweak, of_decide_eq_true (hread.meaningful ▸ hmeaning)⟩

/-- One call: the fields keep following from the calls, and a verdict has its grounds. -/
theorem step_spec (h : Inv H W s calls) (hmono : Nondecreasing (calls ++ [c])) :
    Inv H W (s.step H W S c).1 (calls ++ [c]) ∧
      ∀ v, (s.step H W S c).2 = some v → Grounded H W S calls c v := by
  cases c with
  | start q now => exact ⟨h.start q now, fun v hv => by cases hv⟩
  | audio pcm now =>
    rw [Classifier.step, Classifier.audio]
    split_ifs with hloud
    · have hs := h.sound hloud hmono
      refine ⟨hs.decide S false, fun v hv => Decided.grounded ⟨?_⟩ hv⟩
      obtain ⟨hres, hhas, -⟩ := decide_spec hv
      obtain ⟨q, hq⟩ : ∃ q, (s.sound pcm now).question = some q := by
        have hasked := hs.asked hhas
        rw [Classifier.asked, Option.any_eq_true] at hasked
        exact ⟨_, hasked.choose_spec.1⟩
      obtain ⟨before, n, after, hcurrent, hheard, hread⟩ := hs.current q hq
      obtain ⟨text, hlatest, has⟩ := hread hres hhas
      exact ⟨q, before, n, after, text, hcurrent, hlatest, hheard, has, by simp⟩
    · exact ⟨h.silence pcm now, fun v hv => by cases hv⟩
  | text q t final =>
    rw [Classifier.step, Classifier.text]
    split_ifs with hskip
    · refine ⟨h.skip rfl (fun _ _ hc => by cases hc) fun q' t' f hc => ?_, fun v hv => by cases hv⟩
      cases hc
      simpa [or_assoc] using hskip
    · simp only [Bool.or_eq_true, Bool.not_eq_true', decide_eq_true_eq, not_or, not_not,
        Bool.not_eq_false] at hskip
      obtain ⟨⟨hasked, hq⟩, -⟩ := hskip
      refine ⟨(h.read final hasked hq).decide S final, fun v hv => Decided.grounded ⟨?_⟩ hv⟩
      obtain ⟨-, hhas, -⟩ := decide_spec hv
      obtain ⟨before, n, after, hcurrent, hheard, -⟩ := h.current q hq
      refine ⟨q, before, n, after ++ [.text q t final], t, hcurrent.extend (by simp),
        latest_last q t after final, hheard.extend _, ⟨of_decide_eq_true hhas, rfl, rfl, rfl⟩, ?_⟩
      rintro rfl
      rfl

end Deciding

/-! ### Whole runs -/

section Runs

variable (H : Hearing) (W : Words) (S : Settings)

theorem run_concat (calls : List Call) (c : Call) :
    run H W S (calls ++ [c]) = ((run H W S calls).step H W S c).1 := by
  rw [run, List.foldl_append]
  rfl

theorem inv_run {calls : List Call} (hmono : Nondecreasing calls) :
    Inv H W (run H W S calls) calls := by
  induction calls using List.reverseRecOn with
  | nil => exact inv_new
  | append_singleton calls c ih =>
    have hprefix : Nondecreasing calls := by
      rw [Nondecreasing, times_append, List.pairwise_append] at hmono
      exact hmono.1
    rw [run_concat]
    exact (step_spec (ih hprefix) hmono).1

theorem sound_resolved (s : Classifier) (pcm : List ℤ) (now : ℚ) :
    (s.sound pcm now).resolved = s.resolved := by
  simp only [Classifier.sound, Classifier.reopen]
  split
  · rfl
  · split_ifs <;> rfl

/-- A settled question gets no other verdict. -/
theorem step_silent {s : Classifier} (hs : s.resolved = true) (c : Call) :
    (s.step H W S c).2 = none := by
  cases c with
  | start q n => rfl
  | audio pcm now =>
    rw [Classifier.step, Classifier.audio]
    split_ifs
    · rw [Classifier.decide, if_pos (by simp [sound_resolved, hs])]
    · rfl
  | text q t final => rw [Classifier.step, Classifier.text, if_pos (by simp [hs])]

/-- It stays settled until another one starts. -/
theorem step_resolved {s : Classifier} {c : Call} (hs : s.resolved = true)
    (hc : ∀ q n, c = .start q n → s.question = some q) : (s.step H W S c).1.resolved = true := by
  cases c with
  | start q n =>
    rw [Classifier.step, Classifier.start, if_pos (hc q n rfl)]
    exact hs
  | audio pcm now =>
    rw [Classifier.step, Classifier.audio]
    split_ifs
    · rw [Classifier.decide, if_pos (by simp [sound_resolved, hs]), sound_resolved, hs]
    · exact hs
  | text q t final =>
    rw [Classifier.step, Classifier.text, if_pos (by simp [hs])]
    exact hs

theorem step_settles {s : Classifier} {c : Call} {v : Verdict} (h : (s.step H W S c).2 = some v) :
    (s.step H W S c).1.resolved = true := by
  cases c with
  | start q n => cases h
  | audio pcm now =>
    rw [Classifier.step, Classifier.audio] at h ⊢
    split_ifs at h ⊢
    exact (decide_spec h).2.2.2.1
  | text q t final =>
    rw [Classifier.step, Classifier.text] at h ⊢
    split_ifs at h ⊢
    exact (decide_spec h).2.2.2.1

/-- The start of another question among the calls behind the first ones. -/
def StartsOther (first mid : List Call) : Prop :=
  ∃ a q now b, mid = a ++ .start q now :: b ∧ lastStarted (first ++ a) ≠ some q

theorem settled {first mid : List Call} (hmono : Nondecreasing (first ++ mid))
    (hfirst : (run H W S first).resolved = true) (hmid : ¬ StartsOther first mid) :
    (run H W S (first ++ mid)).resolved = true := by
  induction mid using List.reverseRecOn with
  | nil => rwa [List.append_nil]
  | append_singleton mid c ih =>
    rw [← List.append_assoc] at hmono ⊢
    have hprefix : Nondecreasing (first ++ mid) := by
      rw [Nondecreasing, times_append, List.pairwise_append] at hmono
      exact hmono.1
    have hother : ¬ StartsOther first mid := by
      rintro ⟨a, q, now, b, hab, hne⟩
      exact hmid ⟨a, q, now, b ++ [c], by rw [hab, List.append_assoc, List.cons_append], hne⟩
    have hres := ih hprefix hother
    rw [run_concat]
    refine step_resolved H W S hres fun q n hc => ?_
    rw [(inv_run H W S hprefix).question]
    by_contra hne
    exact hmid ⟨mid, q, n, [], by rw [hc], hne⟩

/-- Every verdict of a sequence of calls has its grounds, and there is another one only for a question
that starts after it. -/
theorem verdicts_grounded {calls before after : List Call} {c : Call} {v : Verdict}
    (hmono : Nondecreasing calls) (hcalls : calls = before ++ c :: after)
    (hv : verdict H W S before c = some v) :
    Grounded H W S before c v ∧
      ∀ mid d rest w, after = mid ++ d :: rest →
        verdict H W S (before ++ c :: mid) d = some w → StartsOther (before ++ [c]) mid := by
  have hprefix : ∀ as bs, calls = as ++ bs → Nondecreasing as := by
    rintro as bs rfl
    rw [Nondecreasing, times_append, List.pairwise_append] at hmono
    exact hmono.1
  have hfirst : Nondecreasing before := hprefix before (c :: after) hcalls
  have hthis : Nondecreasing (before ++ [c]) := hprefix _ after (by simp [hcalls])
  refine ⟨(step_spec (inv_run H W S hfirst) hthis).2 v hv, fun mid d rest w hafter hw => ?_⟩
  by_contra hother
  have hres : (run H W S (before ++ [c])).resolved = true := by
    rw [run_concat]
    exact step_settles H W S hv
  have hmid : Nondecreasing (before ++ [c] ++ mid) :=
    hprefix _ (d :: rest) (by simp [hcalls, hafter])
  have hstill := settled H W S hmid hres hother
  rw [List.append_assoc, List.singleton_append] at hstill
  have hnone := step_silent H W S hstill d
  rw [verdict, hnone] at hw
  cases hw

end Runs

/-! ### A run -/

/-- Exact arithmetic for a threshold of 0.015. -/
def sampleHearing : Hearing :=
  ⟨fun pcm => decide (241592 * (pcm.length : ℤ) ≤ (pcm.map fun v => v * v).sum) && pcm != [],
    fun c => c ∈ ['，', '。', '！', '？']⟩

def sampleWords : Words := ⟨["嗯".toList], ["停".toList], ["但是".toList]⟩

/-- Two frames of 100 ms, 200 ms apart, and a text between them. -/
def sampleCalls : List Call :=
  [.start "q".toList (some 0), .audio (List.replicate 1600 1000) 0,
    .text "q".toList "停，".toList false]

theorem verdicts_grounded_sample :
    Grounded sampleHearing sampleWords ⟨200⟩ sampleCalls (.audio (List.replicate 1600 1000) (1 / 5))
      .bargeIn ∧
    ∀ mid d rest w, [] = mid ++ d :: rest → verdict sampleHearing sampleWords ⟨200⟩
        (sampleCalls ++ .audio (List.replicate 1600 1000) (1 / 5) :: mid) d = some w →
      StartsOther (sampleCalls ++ [.audio (List.replicate 1600 1000) (1 / 5)]) mid :=
  @verdicts_grounded sampleHearing sampleWords ⟨200⟩
    (sampleCalls ++ [.audio (List.replicate 1600 1000) (1 / 5)]) _ _ _ _
    (by unfold Nondecreasing; decide +kernel) rfl (by decide +kernel)

end CompanionBackend.BargeClassifier
