import Mathlib.Data.Int.Order.Basic
import CompanionBackend.Runs

/-!
# The limit on resending

A counter in the cache admits the resends of one batch of a user. The request that creates its key gives
it a lifetime by a second command, and may fail before it does. Two requests a minute is what one
lifetime admits; any minute admits what the two lifetimes that can meet in it do.
-/
namespace CompanionBackend.ResendQuota

open Runs

/-- `max_per_window`, and `window_sec` in the microseconds that instants are counted in. -/
structure Limit where
  maxPerWindow : ℕ
  window : ℤ

/-- The counter under a key, and what it admitted since its creation, known to no one. -/
structure Counter where
  value : ℕ
  expiresAt : Option ℤ
  created : ℤ
  admitted : List ℤ
  deriving DecidableEq, Repr

def Counter.live (c : Counter) (now : ℤ) : Bool := c.expiresAt.all fun t => decide (now < t)

/-- The key, whether the request that created it is still to send `EXPIRE`, and the counters that were
under the key before. -/
structure State where
  now : ℤ
  counter : Option Counter
  expiring : Bool
  gone : List Counter
  deriving DecidableEq, Repr

inductive Input
  | incr
  | expire
  /-- The request that created the key dies before its second command. -/
  | abandon
  | wait (elapsed : ℕ)
  deriving DecidableEq, Repr

variable (L : Limit)

/-- `INCR`, and the answer it leads to. -/
def Counter.incr (c : Counter) (now : ℤ) : Counter :=
  { c with
    value := c.value + 1
    admitted := if c.value + 1 ≤ L.maxPerWindow then now :: c.admitted else c.admitted }

/-- The commands of `try_consume_resend_quota`, of any number of requests. -/
def step (s : State) : Input → Option State
  | .incr =>
    match s.counter.filter (Counter.live · s.now) with
    | some c => some { s with counter := some (c.incr L s.now) }
    | none => some
        { now := s.now, counter := some (Counter.incr L ⟨0, none, s.now, []⟩ s.now)
          expiring := true, gone := s.counter.toList ++ s.gone }
  | .expire => if s.expiring then some { s with
      counter := s.counter.map fun c => { c with expiresAt := some (s.now + L.window) }
      expiring := false } else none
  | .abandon => if s.expiring then some { s with expiring := false } else none
  | .wait elapsed => some { s with now := s.now + elapsed }

def resends : Machine State Input where
  start s := s.counter = none ∧ s.expiring = false ∧ s.gone = []
  step := step L

/-- The counters that were ever under the key, the last first. -/
def State.counters (s : State) : List Counter := s.counter.toList ++ s.gone

/-- How many instants fall in the window from `a` on. -/
def within (a : ℤ) (ts : List ℤ) : ℕ := ts.countP fun t => decide (a ≤ t ∧ t < a + L.window)

/-! ### Counters follow one another -/

variable {L : Limit} {s : State} {c : Counter} {cs : List Counter} {a : ℤ}

/-- A counter admits as many as it counts up to the limit, and nothing before it is created. -/
structure Fits (L : Limit) (c : Counter) : Prop where
  length : c.admitted.length = min c.value L.maxPerWindow
  later : ∀ t ∈ c.admitted, c.created ≤ t

/-- By an instant the counter was there for the window, and what it admitted is past. -/
def OverBy (L : Limit) (now : ℤ) (c : Counter) : Prop :=
  c.created + L.window ≤ now ∧ ∀ t ∈ c.admitted, t ≤ now

def Follow (L : Limit) (cs : List Counter) : Prop :=
  cs.Pairwise fun next c => OverBy L next.created c

theorem OverBy.mono {now now' : ℤ} (h : OverBy L now c) (hle : now ≤ now') : OverBy L now' c :=
  ⟨Int.le_trans h.1 hle, fun t ht => Int.le_trans (h.2 t ht) hle⟩

theorem Fits.few (h : Fits L c) : c.admitted.length ≤ L.maxPerWindow := by
  have := h.length
  omega

theorem admitted_within (hfits : ∀ c ∈ cs, Fits L c) (hfollow : Follow L cs) :
    within L a (cs.flatMap Counter.admitted) ≤ 2 * L.maxPerWindow := by
  have hone : ∀ c ∈ cs, within L a c.admitted ≤ L.maxPerWindow := fun c hc =>
    Nat.le_trans List.countP_le_length (hfits c hc).few
  induction cs with
  | nil => simp [within]
  | cons last cs ih =>
    obtain ⟨hlast, hrest⟩ := List.pairwise_cons.mp hfollow
    have hcount := hone last List.mem_cons_self
    rw [List.flatMap_cons, within, List.countP_append]
    by_cases hnone : within L a last.admitted = 0
    · have := ih (fun c hc => hfits c (List.mem_cons_of_mem last hc)) hrest
        fun c hc => hone c (List.mem_cons_of_mem last hc)
      simp only [within] at hnone this ⊢
      omega
    · -- When the last admits in the window, those before the one before it cannot.
      obtain ⟨t, ht, hin⟩ := List.countP_pos_iff.mp (Nat.pos_of_ne_zero hnone)
      have hstart := (hfits last List.mem_cons_self).later t ht
      simp only [decide_eq_true_eq] at hin
      cases cs with
      | nil => simp only [within, List.flatMap_nil, List.countP_nil] at hcount ⊢; omega
      | cons before earlier =>
        have hbefore := (hlast before List.mem_cons_self).1
        have hnothing : within L a (earlier.flatMap Counter.admitted) = 0 := by
          refine List.countP_eq_zero.mpr fun u hu hwithin => ?_
          obtain ⟨c, hc, huc⟩ := List.mem_flatMap.mp hu
          have := ((List.pairwise_cons.mp hrest).1 c hc).2 u huc
          simp only [decide_eq_true_eq] at hwithin
          omega
        have := hone before (List.mem_cons_of_mem last List.mem_cons_self)
        rw [List.flatMap_cons, List.countP_append]
        simp only [within] at hcount hnothing this
        omega

/-! ### The commands keep them so -/

structure Sound (L : Limit) (s : State) : Prop where
  fits : ∀ c ∈ s.counters, Fits L c
  follow : Follow L s.counters
  gone : ∀ c ∈ s.gone, OverBy L s.now c
  expires : ∀ c ∈ s.counter, ∀ t ∈ c.expiresAt, c.created + L.window ≤ t
  past : ∀ c ∈ s.counter, ∀ t ∈ c.created :: c.admitted, t ≤ s.now

theorem mem_incr {now t : ℤ} (h : t ∈ (c.incr L now).admitted) : t = now ∨ t ∈ c.admitted := by
  simp only [Counter.incr] at h
  split_ifs at h
  · exact List.mem_cons.mp h
  · exact .inr h

theorem Fits.incr {now : ℤ} (h : Fits L c) (hnow : c.created ≤ now) : Fits L (c.incr L now) where
  length := by
    have hlength := h.length
    by_cases hfew : c.value + 1 ≤ L.maxPerWindow
    · simp only [Counter.incr, if_pos hfew, List.length_cons]
      omega
    · simp only [Counter.incr, if_neg hfew]
      omega
  later t ht := by
    rcases mem_incr ht with rfl | ht
    · exact hnow
    · exact h.later t ht

theorem past_incr {now : ℤ} (h : ∀ t ∈ c.created :: c.admitted, t ≤ now) :
    ∀ t ∈ (c.incr L now).created :: (c.incr L now).admitted, t ≤ now := by
  intro t ht
  rcases List.mem_cons.mp ht with rfl | ht
  · exact h _ List.mem_cons_self
  · rcases mem_incr ht with rfl | ht
    · exact Int.le_refl t
    · exact h t (List.mem_cons_of_mem _ ht)

/-- A key that is gone was there for its window. -/
theorem Sound.over (h : Sound L s) (hgone : s.counter.filter (Counter.live · s.now) = none) :
    ∀ c ∈ s.counters, OverBy L s.now c := by
  intro c hc
  rcases List.mem_append.mp hc with hc | hc
  · have hcounter : s.counter = some c := Option.mem_toList.mp hc
    have hdead : c.live s.now = false := by simpa [hcounter] using hgone
    have hpast := h.past c hcounter
    refine ⟨?_, fun t ht => hpast t (List.mem_cons_of_mem _ ht)⟩
    cases hexpires : c.expiresAt with
    | none => simp [Counter.live, hexpires] at hdead
    | some t =>
      have hover : t ≤ s.now := by simpa [Counter.live, hexpires] using hdead
      exact Int.le_trans (h.expires c hcounter t hexpires) hover
  · exact h.gone c hc

theorem Sound.incr (h : Sound L s) (t : State) (hstep : step L s .incr = some t) : Sound L t := by
  rw [ResendQuota.step] at hstep
  cases hfound : s.counter.filter (Counter.live · s.now) with
  | none =>
    rw [hfound] at hstep
    obtain rfl := Option.some.inj hstep
    have hover := h.over hfound
    have hfresh : Fits L ⟨0, none, s.now, []⟩ := ⟨by simp, by simp⟩
    refine ⟨fun c hc => ?_, List.pairwise_cons.mpr ⟨hover, h.follow⟩, hover, ?_, ?_⟩
    · rcases List.mem_cons.mp hc with rfl | hc
      · exact hfresh.incr (Int.le_refl _)
      · exact h.fits c hc
    · rintro c ⟨⟩ t ⟨⟩
    · rintro c ⟨⟩
      exact past_incr (by simp)
  | some c =>
    rw [hfound] at hstep
    obtain rfl := Option.some.inj hstep
    have hcounter : s.counter = some c := (Option.filter_eq_some_iff.mp hfound).1
    have hpast := h.past c hcounter
    have hcounters : s.counters = c :: s.gone := by rw [State.counters, hcounter]; rfl
    have hfits := hcounters ▸ h.fits
    have hfollow := List.pairwise_cons.mp (hcounters ▸ h.follow)
    refine ⟨fun d hd => ?_, List.pairwise_cons.mpr hfollow, h.gone, ?_, ?_⟩
    · rcases List.mem_cons.mp hd with rfl | hd
      · exact (hfits c List.mem_cons_self).incr (hpast _ List.mem_cons_self)
      · exact hfits d (List.mem_cons_of_mem c hd)
    · rintro d ⟨⟩
      exact h.expires c hcounter
    · rintro d ⟨⟩
      exact past_incr hpast

theorem Sound.step (i : Input) (t : State) (h : Sound L s) (hstep : step L s i = some t) :
    Sound L t := by
  cases i with
  | incr => exact h.incr t hstep
  | expire =>
    obtain ⟨-, hstep⟩ := Option.ite_none_right_eq_some.mp hstep
    obtain rfl := Option.some.inj hstep
    obtain ⟨now, counter, expiring, gone⟩ := s
    cases counter with
    | none => exact ⟨h.fits, h.follow, h.gone, h.expires, h.past⟩
    | some c =>
      have hpast := h.past c rfl
      have hfits := h.fits c List.mem_cons_self
      refine ⟨fun d hd => ?_, List.pairwise_cons.mpr (List.pairwise_cons.mp h.follow), h.gone, ?_, ?_⟩
      · rcases List.mem_cons.mp hd with rfl | hd
        · exact ⟨hfits.length, hfits.later⟩
        · exact h.fits d (List.mem_cons_of_mem c hd)
      · rintro d ⟨⟩ t ⟨⟩
        exact Int.add_le_add_right (hpast _ List.mem_cons_self) _
      · rintro d ⟨⟩
        exact hpast
  | abandon =>
    obtain ⟨-, hstep⟩ := Option.ite_none_right_eq_some.mp hstep
    obtain rfl := Option.some.inj hstep
    exact ⟨h.fits, h.follow, h.gone, h.expires, h.past⟩
  | wait elapsed =>
    obtain rfl := Option.some.inj hstep
    have hnow : s.now ≤ s.now + elapsed := by omega
    exact ⟨h.fits, h.follow, fun c hc => (h.gone c hc).mono hnow, h.expires,
      fun c hc t ht => Int.le_trans (h.past c hc t ht) hnow⟩

/-- Whatever the requests do and however they fail, what is admitted under one key keeps the limit, and
what is admitted in any window of time is no more than twice the limit. -/
theorem resends_limited (L : Limit) (s : State) (hs : (resends L).Reachable s) :
    (∀ c ∈ s.counters, c.admitted.length ≤ L.maxPerWindow) ∧
      ∀ a, within L a (s.counters.flatMap Counter.admitted) ≤ 2 * L.maxPerWindow := by
  have hsound : Sound L s := by
    refine Machine.reachable_invariant (fun s hstart => ?_) (fun s i t => Sound.step i t) hs
    obtain ⟨hcounter, -, hgone⟩ := hstart
    constructor <;> simp [State.counters, Follow, hcounter, hgone]
  exact ⟨fun c hc => (hsound.fits c hc).few, fun a => admitted_within hsound.fits hsound.follow⟩

def twicePerMinute : Limit := ⟨2, 60000000⟩

/-- Two requests are admitted, a third is not; the key expires, and two more are. -/
def sampleRequests : List Input :=
  [.incr, .wait 59000000, .expire, .incr, .incr, .wait 60000000, .incr, .expire, .incr]

theorem sample_limited :
    (∀ c ∈ ((resends twicePerMinute).after ⟨0, none, false, []⟩ sampleRequests).counters,
      c.admitted.length ≤ 2) ∧
      ∀ a, within twicePerMinute a (((resends twicePerMinute).after ⟨0, none, false, []⟩
        sampleRequests).counters.flatMap Counter.admitted) ≤ 2 * 2 :=
  resends_limited twicePerMinute _ (Machine.reachable_after ⟨rfl, rfl, rfl⟩ (by decide))

end CompanionBackend.ResendQuota
