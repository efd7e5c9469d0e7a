import Mathlib.Algebra.Order.Ring.Rat
import Mathlib.Data.List.Infix
import Mathlib.Tactic.Linarith
import CompanionBackend.BackchannelService
import CompanionBackend.CapabilityEvidence

/-!
# The two-stage interruption policy

While the assistant speaks, loud frames alone stop nothing: a verdict needs a text of the question as
well. The classifier keeps how long the current stretch of loud frames is, by its samples and by the
clock, and carries it over to a question that starts within a quarter of a second of it.
-/
namespace CompanionBackend.BargeClassifier

open ProviderEvents (Text)
open BackchannelService (pureAck)
open CapabilityEvidence (strip)
open TurnRecords (isBlank)

/-- What the classifier is told about a frame and a character. -/
structure Hearing where
  /-- The root mean square of the samples reaches `vad_rms_threshold`. -/
  loud : List ℤ → Bool
  /-- The Unicode category begins with `P`. -/
  isPunctuation : Char → Bool

structure Words where
  weakAcknowledgements : List Text
  strongInterruptions : List Text
  upgradeConnectors : List Text

structure Settings where
  candidateMs : ℚ

inductive Verdict
  | bargeIn | backchannel
  deriving DecidableEq, Repr

structure Classifier where
  question : Option Text
  resolved : Bool
  hasText : Bool
  weak : Bool
  strong : Bool
  meaningful : Bool
  startedAt : Option ℚ
  lastAudio : Option ℚ
  audioMs : ℚ
  wallMs : ℚ
  speechMs : ℚ

inductive Call
  | start (questionId : Text) (now : Option ℚ)
  | audio (pcm : List ℤ) (now : ℚ)
  | text (questionId text : Text) (final : Bool)
  deriving DecidableEq

/-- Samples of 16 kHz in milliseconds. -/
def duration (pcm : List ℤ) : ℚ := pcm.length / 16

section Program

variable (H : Hearing) (W : Words) (S : Settings)

def normalize (value : Text) : Text := (strip value).filter fun c => !isBlank c && !H.isPunctuation c

/-- A strong word or a connector stands in the text. -/
def holdsStrong (normalized : Text) : Bool :=
  (W.strongInterruptions ++ W.upgradeConnectors).any fun word => decide (word <:+: normalized)

namespace Classifier

def new : Classifier := ⟨none, false, false, false, false, false, none, none, 0, 0, 0⟩

/-- `bool(self.question)`. -/
def asked (s : Classifier) : Bool := s.question.any fun q => decide (q ≠ [])

/-- The stretch that a question takes over when it starts. -/
def carried (s : Classifier) (now : Option ℚ) : ℚ :=
  match now, s.lastAudio with
  | some n, some t => if 0 ≤ n - t ∧ n - t ≤ 1 / 4 then min s.audioMs s.wallMs else 0
  | _, _ => 0

def start (s : Classifier) (questionId : Text) (now : Option ℚ) : Classifier :=
  if s.question = some questionId then s
  else
    { s with
      question := some questionId
      resolved := false
      hasText := false
      weak := false
      strong := false
      meaningful := false
      speechMs := s.carried now }

def decide (s : Classifier) (final : Bool) : Classifier × Option Verdict :=
  if s.resolved || !s.asked || !s.hasText then (s, none)
  else if s.speechMs + 1 / 1000 < S.candidateMs then (s, none)
  else if s.strong || (!s.weak && s.meaningful && (final || Decidable.decide (250 ≤ s.speechMs))) then
    ({ s with resolved := true }, some .bargeIn)
  else if final && s.weak then ({ s with resolved := true }, some .backchannel)
  else (s, none)

/-- A frame below the threshold ends the stretch. -/
def silence (s : Classifier) : Classifier :=
  { s with startedAt := none, lastAudio := none, audioMs := 0, wallMs := 0 }

/-- A gap of more than a quarter of a second begins a new stretch. -/
def reopen (s : Classifier) (now : ℚ) : Classifier :=
  match s.lastAudio with
  | none => { s with startedAt := some now, audioMs := 0 }
  | some t => if 1 / 4 < now - t then { s with startedAt := some now, audioMs := 0 } else s

def sound (s : Classifier) (pcm : List ℤ) (now : ℚ) : Classifier :=
  let s := s.reopen now
  let audioMs := s.audioMs + duration pcm
  let wallMs := max 0 ((now - s.startedAt.getD now) * 1000) + min (duration pcm) 20
  { s with
    audioMs := audioMs
    wallMs := wallMs
    lastAudio := some now
    speechMs := if s.asked then max s.speechMs (min audioMs wallMs) else s.speechMs }

def audio (s : Classifier) (pcm : List ℤ) (now : ℚ) : Classifier × Option Verdict :=
  if H.loud pcm then (s.sound pcm now).decide S false else (s.silence, none)

def read (s : Classifier) (normalized : Text) : Classifier :=
  { s with
    hasText := Decidable.decide (normalized ≠ [])
    weak := pureAck normalized W.weakAcknowledgements
    strong := holdsStrong W normalized
    meaningful := Decidable.decide (2 ≤ normalized.length) }

def text (s : Classifier) (questionId text : Text) (final : Bool) : Classifier × Option Verdict :=
  if !s.asked || Decidable.decide (s.question ≠ some questionId) || s.resolved then (s, none)
  else (s.read W (normalize H text)).decide S final

def step (s : Classifier) : Call → Classifier × Option Verdict
  | .start questionId now => (s.start questionId now, none)
  | .audio pcm now => s.audio H S pcm now
  | .text questionId t final => s.text H W S questionId t final

end Classifier

open Classifier (step)

def run (calls : List Call) : Classifier :=
  calls.foldl (fun s c => (s.step H W S c).1) Classifier.new

/-- What the call returns behind the calls before it. -/
def verdict (calls : List Call) (c : Call) : Option Verdict := ((run H W S calls).step H W S c).2

end Program

/-! ### What a sequence of calls shows -/

structure Frame where
  pcm : List ℤ
  time : ℚ

def frames (calls : List Call) : List Frame :=
  calls.filterMap fun c => match c with | .audio pcm now => some ⟨pcm, now⟩ | _ => none

/-- The readings of the clock, in the order of the calls. -/
def times (calls : List Call) : List ℚ :=
  calls.filterMap fun c =>
    match c with | .audio _ now => some now | .start _ now => now | .text _ _ _ => none

def lastStarted (calls : List Call) : Option Text :=
  (calls.filterMap fun c => match c with | .start q _ => some q | _ => none).getLast?

def total (fs : List Frame) : ℚ := (fs.map fun f => duration f.pcm).sum

/-- From the first frame to the last one by the clock, and at most 20 ms of the last one. -/
def span : List Frame → ℚ
  | [] => 0
  | f :: fs =>
    let last := (f :: fs).getLast (List.cons_ne_nil f fs)
    (last.time - f.time) * 1000 + min (duration last.pcm) 20

/-- Loud frames with no gap of more than a quarter of a second between neighbours. -/
def Sounding (H : Hearing) (fs : List Frame) : Prop :=
  (∀ f ∈ fs, H.loud f.pcm = true) ∧ List.IsChain (fun f g => g.time - f.time ≤ 1 / 4) fs

/-- `q` was started by the call between `before` and `after`, and no other question since. -/
structure Current (calls : List Call) (q : Text) (before : List Call) (now : Option ℚ)
    (after : List Call) : Prop where
  split : calls = before ++ .start q now :: after
  fresh : lastStarted before ≠ some q
  kept : ∀ q' n, .start q' n ∈ after → q' = q

/-- The latest text of the question. -/
def Latest (q text : Text) (after : List Call) : Prop :=
  ∃ a b final, after = a ++ .text q text final :: b ∧ ∀ t f, .text q t f ∉ b

/-- Some stretch of loud frames measures at least `ms` both ways, and its last frame does not lie more
than a quarter of a second before the start of the question. -/
def Heard (H : Hearing) (ms : ℚ) (before : List Call) (now : Option ℚ) (after : List Call) : Prop :=
  ∃ earlier fs later, frames before ++ frames after = earlier ++ fs ++ later ∧ Sounding H fs ∧
    ms ≤ total fs ∧ ms ≤ span fs ∧
    ∀ last, fs.getLast? = some last →
      (now = none → later.length < (frames after).length) ∧
      ∀ n, now = some n → n - last.time ≤ 1 / 4

/-- What a verdict rests on. -/
def Grounded (H : Hearing) (W : Words) (S : Settings) (calls : List Call) (c : Call) (v : Verdict) :
    Prop :=
  ∃ q before now after text, Current (calls ++ [c]) q before now after ∧ Latest q text after ∧
    normalize H text ≠ [] ∧ Heard H (S.candidateMs - 1 / 1000) before now after ∧
    match v with
    | .backchannel => c = .text q text true ∧
        pureAck (normalize H text) W.weakAcknowledgements = true ∧
        holdsStrong W (normalize H text) = false
    | .bargeIn => holdsStrong W (normalize H text) = true ∨
        (pureAck (normalize H text) W.weakAcknowledgements = false ∧ 2 ≤ (normalize H text).length)

def Nondecreasing (calls : List Call) : Prop := (times calls).Pairwise (· ≤ ·)

/-! ### Calls one after the other -/

@[simp] theorem frames_append (as bs : List Call) : frames (as ++ bs) = frames as ++ frames bs :=
  List.filterMap_append

@[simp] theorem times_append (as bs : List Call) : times (as ++ bs) = times as ++ times bs :=
  List.filterMap_append

@[simp] theorem lastStarted_start (calls : List Call) (q : Text) (now : Option ℚ) :
    lastStarted (calls ++ [.start q now]) = some q := by
  simp [lastStarted]

theorem lastStarted_other {c : Call} (h : ∀ q now, c ≠ .start q now) (calls : List Call) :
    lastStarted (calls ++ [c]) = lastStarted calls := by
  cases c with
  | start q now => exact absurd rfl (h q now)
  | audio pcm now => simp [lastStarted]
  | text q t final => simp [lastStarted]

theorem time_mem {calls : List Call} {f : Frame} (h : f ∈ frames calls) : f.time ∈ times calls := by
  simp only [frames, times, List.mem_filterMap] at h ⊢
  obtain ⟨c, hc, hf⟩ := h
  refine ⟨c, hc, ?_⟩
  cases c with
  | audio pcm now =>
    obtain rfl := Option.some.inj hf
    rfl
  | start q now => cases hf
  | text q t final => cases hf

theorem le_of_nondecreasing {calls : List Call} {pcm : List ℤ} {now t : ℚ}
    (h : Nondecreasing (calls ++ [.audio pcm now])) (ht : t ∈ times calls) : t ≤ now := by
  rw [Nondecreasing, times_append, List.pairwise_append] at h
  exact h.2.2 t ht now (by simp [times])

section Extending

variable {H : Hearing} {calls before after : List Call} {q t : Text} {now : Option ℚ} {c : Call}
  {ms : ℚ}

theorem Current.extend (h : Current calls q before now after) (hc : ∀ q' n, c = .start q' n → q' = q) :
    Current (calls ++ [c]) q before now (after ++ [c]) where
  split := by rw [h.split, List.append_assoc, List.cons_append]
  fresh := h.fresh
  kept := by
    intro q' n hmem
    rcases List.mem_append.mp hmem with hmem | hmem
    · exact h.kept q' n hmem
    · exact hc q' n (List.mem_singleton.mp hmem).symm

theorem Latest.extend (h : Latest q t after) (hc : ∀ t' f, c ≠ .text q t' f) :
    Latest q t (after ++ [c]) := by
  obtain ⟨a, b, final, rfl, hb⟩ := h
  refine ⟨a, b ++ [c], final, by simp, fun t' f hmem => ?_⟩
  rcases List.mem_append.mp hmem with hmem | hmem
  · exact hb t' f hmem
  · exact hc t' f (List.mem_singleton.mp hmem).symm

theorem latest_last (q t : Text) (after : List Call) (final : Bool) :
    Latest q t (after ++ [.text q t final]) := ⟨after, [], final, rfl, by simp⟩

theorem Heard.extend (h : Heard H ms before now after) (c : Call) :
    Heard H ms before now (after ++ [c]) := by
  obtain ⟨earlier, fs, later, hsplit, hsound, htotal, hspan, hlast⟩ := h
  refine ⟨earlier, fs, later ++ frames [c], ?_, hsound, htotal, hspan, fun last hl => ?_⟩
  · rw [frames_append, ← List.append_assoc, hsplit, List.append_assoc, List.append_assoc]
  · refine ⟨fun hnow => ?_, (hlast last hl).2⟩
    have hlen := (hlast last hl).1 hnow
    simp only [frames_append, List.length_append]
    omega

theorem Heard.mono {ms' : ℚ} (h : Heard H ms before now after) (hle : ms' ≤ ms) :
    Heard H ms' before now after := by
  obtain ⟨earlier, fs, later, hsplit, hsound, htotal, hspan, hlast⟩ := h
  exact ⟨earlier, fs, later, hsplit, hsound, hle.trans htotal, hle.trans hspan, hlast⟩

/-- No evidence is needed for nothing. -/
theorem heard_zero (H : Hearing) (before : List Call) (now : Option ℚ) (after : List Call) :
    Heard H 0 before now after :=
  ⟨[], [], frames before ++ frames after, rfl, ⟨by simp, List.isChain_nil⟩, le_refl _, le_refl _,
    by simp⟩

end Extending

/-! ### The current stretch -/

structure Stretch (H : Hearing) (s : Classifier) (fs : List Frame) : Prop where
  sounding : Sounding H fs
  opened : s.startedAt = fs.head?.map Frame.time
  last : s.lastAudio = fs.getLast?.map Frame.time
  audio : s.audioMs = total fs
  wall : s.wallMs = span fs

section Stretches

variable {H : Hearing} {s : Classifier} {fs : List Frame} {pcm : List ℤ} {now : ℚ}

theorem span_single (f : Frame) : span [f] = min (duration f.pcm) 20 := by
  simp [span]

theorem span_concat (f : Frame) (fs : List Frame) (g : Frame) :
    span (f :: fs ++ [g]) = (g.time - f.time) * 1000 + min (duration g.pcm) 20 := by
  rw [List.cons_append, span]
  simp

theorem total_concat (fs : List Frame) (g : Frame) : total (fs ++ [g]) = total fs + duration g.pcm := by
  simp [total]

theorem Sounding.concat (h : Sounding H fs) (hloud : H.loud pcm = true)
    (hgap : ∀ g, fs.getLast? = some g → now - g.time ≤ 1 / 4) : Sounding H (fs ++ [⟨pcm, now⟩]) := by
  refine ⟨fun f hf => ?_, List.isChain_append.mpr ⟨h.2, List.isChain_singleton _, ?_⟩⟩
  · rcases List.mem_append.mp hf with hf | hf
    · exact h.1 f hf
    · rw [List.mem_singleton.mp hf]
      exact hloud
  · intro g hg g' hg'
    obtain rfl : (⟨pcm, now⟩ : Frame) = g' := by simpa using hg'
    exact hgap g hg

/-- A loud frame goes on with the stretch or begins a new one. -/
theorem Stretch.sound (h : Stretch H s fs) (hloud : H.loud pcm = true)
    (hle : ∀ f ∈ fs, f.time ≤ now) :
    ∃ fs', Stretch H (s.sound pcm now) fs' ∧ (fs' = [⟨pcm, now⟩] ∨ fs' = fs ++ [⟨pcm, now⟩]) := by
  have hnew : ∀ s' : Classifier, s.reopen now = s' → s'.startedAt = some now → s'.audioMs = 0 →
      Stretch H (s.sound pcm now) [⟨pcm, now⟩] := by
    rintro s' rfl hstart haudio
    refine ⟨⟨by simpa using hloud, List.isChain_singleton _⟩, hstart, rfl, ?_, ?_⟩
    · simp [Classifier.sound, haudio, total]
    · simp [Classifier.sound, hstart, span_single]
  match fs, h with
  | [], h =>
    have hreopen : s.reopen now = { s with startedAt := some now, audioMs := 0 } := by
      rw [Classifier.reopen, h.last]
      rfl
    exact ⟨_, hnew _ hreopen rfl rfl, .inl rfl⟩
  | f :: fs, h =>
    set g := (f :: fs).getLast (List.cons_ne_nil f fs) with hg
    have hlast : (f :: fs).getLast? = some g := List.getLast?_eq_some_getLast _
    have hat : s.lastAudio = some g.time := by rw [h.last, hlast]; rfl
    by_cases hgap : 1 / 4 < now - g.time
    · have hreopen : s.reopen now = { s with startedAt := some now, audioMs := 0 } := by
        rw [Classifier.reopen, hat]
        exact if_pos hgap
      exact ⟨_, hnew _ hreopen rfl rfl, .inl rfl⟩
    · have hreopen : s.reopen now = s := by
        rw [Classifier.reopen, hat]
        exact if_neg hgap
      have hstart : s.startedAt = some f.time := h.opened
      refine ⟨f :: fs ++ [⟨pcm, now⟩], ⟨h.sounding.concat hloud ?_, ?_, ?_, ?_, ?_⟩, .inr rfl⟩
      · intro g' hg'
        obtain rfl : g = g' := Option.some.inj (hlast.symm.trans hg')
        exact not_lt.mp hgap
      · simp [Classifier.sound, hreopen, hstart]
      · rw [List.getLast?_concat]
        rfl
      · rw [total_concat, ← h.audio]
        simp [Classifier.sound, hreopen]
      · have hf : f.time ≤ now := hle f (by simp)
        have hpos : 0 ≤ (now - f.time) * 1000 := by linarith
        rw [span_concat]
        simp [Classifier.sound, hreopen, hstart, max_eq_right hpos]

end Stretches

end CompanionBackend.BargeClassifier
