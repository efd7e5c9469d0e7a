import CompanionBackend.BackchannelService
import CompanionBackend.TurnOrder

/-!
# What the backchannel filter holds back

Every event of a session is in one place: handed over, held, or in the hand of the
operation that looks at it. Held events are at most a window behind, so the turn
service, which waits for their numbers, never runs out of room.
-/
namespace CompanionBackend.BackchannelLag

open ProviderEvents BackchannelService EventReordering Reorderer Runs
open BackchannelFilter (outdated releaseOutdated)

def held (s : BackchannelFilter) : List ProviderEvent := s.buffers.flatMap (·.2)

/-- What has been handed over, and what is held. -/
def pool (s : BackchannelFilter) (outputs : List Output) : List ProviderEvent :=
  outputs.map Output.event ++ held s

def delivered (outputs : List Output) : List ProviderEvent :=
  outputs.filterMap fun o => match o with
    | .deliver e => some e
    | .discard _ => none

/-- The numbers in the order in which they were handed over. -/
def numbers (outputs : List Output) : List ℕ := outputs.map (·.event.sequence)

/-- Output events of a question, or its other events. -/
def ofClass (question : Option Ident) (output : Bool) (e : ProviderEvent) : Bool :=
  e.questionId = question && isOutput e.kind = output

/-- A final transcript that is an acknowledgement. -/
def Acknowledges (words : List Text) (question : Ident) (e : ProviderEvent) : Prop :=
  e.kind = .asrFinal ∧ e.questionId = some question ∧
    ∃ text, e.payload = .text text ∧ pureAck text words = true

/-- The buffer of a question. -/
structure BufferSound (s : BackchannelFilter) (p : Ident × List ProviderEvent) : Prop where
  candidate : s.states.lookup p.1 = some .candidate
  nonempty : p.2 ≠ []
  sorted : p.2.Pairwise fun a b => a.sequence < b.sequence
  frames : ∀ f ∈ p.2, f.questionId = some p.1 ∧ isOutput f.kind = true

/-- The invariant, while the events of `hand` have been taken and not yet placed. -/
structure FilterSound (s : BackchannelFilter) (consumed : List ProviderEvent)
    (outputs : List Output) (hand : List ProviderEvent) : Prop where
  once : List.Perm consumed (pool s outputs ++ hand)
  down : ∀ e ∈ consumed, 1 ≤ e.sequence ∧
    ∀ j, 1 ≤ j → j ≤ e.sequence → ∃ e' ∈ consumed, e'.sequence = j
  last : ∀ e ∈ hand, ∀ x ∈ pool s outputs, x.sequence < e.sequence
  near : ∀ x ∈ pool s outputs, ∀ h ∈ held s, x.sequence < h.sequence + 64
  keys : (s.buffers.map (·.1)).Nodup
  buffers : ∀ p ∈ s.buffers, BufferSound s p
  blocked : ∀ q, s.states.lookup q = some .blocked → ∃ a ∈ consumed, Acknowledges s.words q a
  discards : ∀ e, .discard e ∈ outputs → ∃ q, e.questionId = some q ∧
    s.states.lookup q = some .blocked ∧ (isOutput e.kind ∨ isTranscript e.kind)
  ordered : ∀ question output, ((delivered outputs).filter (ofClass question output)).Pairwise
    fun a b => a.sequence < b.sequence
  after : ∀ h ∈ held s, ∀ d ∈ delivered outputs, d.questionId = h.questionId →
    isOutput d.kind = true → d.sequence < h.sequence
  lags : Lags 64 (numbers outputs)

/-! ### Buffers -/

theorem mem_held {s : BackchannelFilter} {e : ProviderEvent} :
    e ∈ held s ↔ ∃ p ∈ s.buffers, e ∈ p.2 := by
  simp [held, List.mem_flatMap]

theorem frames_of_mem {s : BackchannelFilter} {p : Ident × List ProviderEvent}
    (hkeys : (s.buffers.map (·.1)).Nodup) (hp : p ∈ s.buffers) : s.frames p.1 = p.2 := by
  unfold BackchannelFilter.frames
  cases hlookup : s.buffers.lookup p.1 with
  | none =>
    rw [List.lookup_eq_none_iff] at hlookup
    exact absurd (hlookup p hp) (by simp)
  | some frames =>
    obtain ⟨l₁, l₂, hsplit, -⟩ := List.lookup_eq_some_iff.mp hlookup
    have hmem : (p.1, frames) ∈ s.buffers := by
      rw [hsplit]
      simp
    have hsame := List.inj_on_of_nodup_map hkeys hmem hp rfl
    exact congrArg Prod.snd hsame

/-- Frames of a question are those of its buffer. -/
theorem mem_frames {s : BackchannelFilter} {q : Ident} {e : ProviderEvent} (h : e ∈ s.frames q) :
    ∃ p ∈ s.buffers, p.1 = q ∧ p.2 = s.frames q ∧ e ∈ p.2 := by
  unfold BackchannelFilter.frames at *
  cases hlookup : s.buffers.lookup q with
  | none => simp [hlookup] at h
  | some frames =>
    obtain ⟨l₁, l₂, hsplit, -⟩ := List.lookup_eq_some_iff.mp hlookup
    refine ⟨(q, frames), ?_, rfl, rfl, by simpa [hlookup] using h⟩
    rw [hsplit]
    simp

/-- Taking a buffer away takes its frames. -/
theorem held_dropBuffer {s : BackchannelFilter} (hkeys : (s.buffers.map (·.1)).Nodup) (q : Ident) :
    List.Perm (held s) (s.frames q ++ held (s.dropBuffer q)) := by
  by_cases hq : ∃ p ∈ s.buffers, p.1 = q
  · obtain ⟨p, hp, rfl⟩ := hq
    rw [frames_of_mem hkeys hp]
    obtain ⟨l₁, l₂, hsplit⟩ := List.append_of_mem hp
    rw [hsplit, List.map_append, List.map_cons, List.nodup_append, List.nodup_cons] at hkeys
    obtain ⟨-, ⟨hlater, -⟩, hearlier⟩ := hkeys
    have hfirst : l₁.filter (fun r => r.1 ≠ p.1) = l₁ := by
      refine List.filter_eq_self.mpr fun r hr => decide_eq_true fun hsame => ?_
      exact hearlier r.1 (List.mem_map_of_mem hr) p.1 List.mem_cons_self hsame
    have hsecond : l₂.filter (fun r => r.1 ≠ p.1) = l₂ := by
      refine List.filter_eq_self.mpr fun r hr => decide_eq_true fun hsame => ?_
      exact hlater (hsame ▸ List.mem_map_of_mem hr)
    have hdrop : (s.dropBuffer p.1).buffers = l₁ ++ l₂ := by
      simp only [BackchannelFilter.dropBuffer, hsplit, List.filter_append, List.filter_cons,
        hfirst, hsecond]
      simp
    simp only [held, hdrop, hsplit, List.flatMap_append, List.flatMap_cons]
    exact List.perm_append_comm_assoc _ _ _
  · have hnone : s.frames q = [] := by
      by_contra hne
      obtain ⟨e, he⟩ := List.exists_mem_of_ne_nil _ hne
      obtain ⟨p, hp, hq', -⟩ := mem_frames he
      exact hq ⟨p, hp, hq'⟩
    have hdrop : (s.dropBuffer q).buffers = s.buffers := by
      refine List.filter_eq_self.mpr fun r hr => decide_eq_true fun hsame => ?_
      exact hq ⟨r, hr, hsame⟩
    rw [hnone, List.nil_append, held, held, hdrop]

/-! ### Emptying a buffer -/

/-- What becomes of the frames of a question that is no longer a candidate. -/
def handOver : QuestionState → ProviderEvent → Output
  | .blocked => .discard
  | _ => .deliver

theorem handOver_event (state : QuestionState) (e : ProviderEvent) :
    (handOver state e).event = e := by
  cases state <;> rfl

theorem delivered_append (outputs outputs' : List Output) :
    delivered (outputs ++ outputs') = delivered outputs ++ delivered outputs' :=
  List.filterMap_append

theorem mem_delivered_handOver {state : QuestionState} {frames : List ProviderEvent}
    {d : ProviderEvent} (h : d ∈ delivered (frames.map (handOver state))) : d ∈ frames := by
  obtain ⟨o, ho, hd⟩ := List.mem_filterMap.mp h
  obtain ⟨f, hf, rfl⟩ := List.mem_map.mp ho
  cases state <;> simp [handOver] at hd
  · exact hd ▸ hf
  · exact hd ▸ hf

theorem delivered_sublist (state : QuestionState) (frames : List ProviderEvent) :
    List.Sublist (delivered (frames.map (handOver state))) frames := by
  induction frames with
  | nil => exact List.Sublist.refl _
  | cons f frames ih =>
    cases state
    · exact ih.cons_cons f
    · exact ih.cons_cons f
    · exact ih.cons f

theorem map_event_handOver (state : QuestionState) (frames : List ProviderEvent) :
    (frames.map (handOver state)).map Output.event = frames := by
  rw [List.map_map]
  exact (List.map_congr_left fun e _ => handOver_event state e).trans (List.map_id _)

/-- The buffer of a candidate is emptied once it is decided. -/
theorem FilterSound.emptied {s : BackchannelFilter} {consumed hand : List ProviderEvent}
    {outputs : List Output} (h : FilterSound s consumed outputs hand) {q : Ident}
    (hcandidate : s.states.lookup q = some .candidate) (state : QuestionState)
    (hblocked : state = .blocked → ∃ a ∈ consumed, Acknowledges s.words q a) :
    FilterSound ((s.mark q state).dropBuffer q) consumed
      (outputs ++ (s.frames q).map (handOver state)) hand := by
  have hheld : List.Perm (held s) (s.frames q ++ held ((s.mark q state).dropBuffer q)) :=
    held_dropBuffer h.keys q
  have hpool : List.Perm (pool ((s.mark q state).dropBuffer q)
      (outputs ++ (s.frames q).map (handOver state))) (pool s outputs) := by
    unfold pool
    rw [List.map_append, map_event_handOver, List.append_assoc]
    exact hheld.symm.append_left _
  have hsub : ∀ x ∈ held ((s.mark q state).dropBuffer q), x ∈ held s := fun x hx =>
    hheld.mem_iff.mpr (List.mem_append_right _ hx)
  have hframes : ∀ f ∈ s.frames q, f ∈ held s ∧ f.questionId = some q ∧ isOutput f.kind = true := by
    intro f hf
    obtain ⟨p, hp, rfl, -, hfp⟩ := mem_frames hf
    exact ⟨mem_held.mpr ⟨p, hp, hfp⟩, (h.buffers p hp).frames f hfp⟩
  refine ⟨h.once.trans (hpool.symm.append_right _), h.down, ?_, ?_, ?_, ?_, ?_, ?_, ?_, ?_, ?_⟩
  · exact fun e he x hx => h.last e he x (hpool.mem_iff.mp hx)
  · exact fun x hx y hy => h.near x (hpool.mem_iff.mp hx) y (hsub y hy)
  · exact h.keys.sublist (List.filter_sublist.map _)
  · intro p hp
    obtain ⟨hp, hne⟩ := List.mem_filter.mp hp
    have hne' : p.1 ≠ q := of_decide_eq_true hne
    have hsound := h.buffers p hp
    exact ⟨(AList.lookup_insert_ne hne').trans hsound.candidate, hsound.nonempty, hsound.sorted,
      hsound.frames⟩
  · intro q' hq'
    by_cases hsame : q' = q
    · subst hsame
      have hq'' : some state = some QuestionState.blocked := (AList.lookup_insert _).symm.trans hq'
      exact hblocked (Option.some.inj hq'')
    · exact h.blocked q' ((AList.lookup_insert_ne hsame).symm.trans hq')
  · intro e he
    rcases List.mem_append.mp he with he | he
    · obtain ⟨q', hq', hlookup, hkind⟩ := h.discards e he
      have hne : q' ≠ q := by
        rintro rfl
        rw [hcandidate] at hlookup
        cases hlookup
      exact ⟨q', hq', (AList.lookup_insert_ne hne).trans hlookup, hkind⟩
    · obtain ⟨f, hf, heq⟩ := List.mem_map.mp he
      obtain ⟨-, hquestion, houtput⟩ := hframes f hf
      cases state with
      | candidate => cases heq
      | valid => cases heq
      | blocked =>
        cases heq
        exact ⟨q, hquestion, AList.lookup_insert _, .inl houtput⟩
  · intro question output
    rw [delivered_append, List.filter_append]
    have hsorted : (s.frames q).Pairwise fun a b => a.sequence < b.sequence := by
      cases hempty : s.frames q with
      | nil => exact List.Pairwise.nil
      | cons f rest =>
        obtain ⟨p, hp, -, heq, -⟩ := mem_frames (s := s) (q := q) (e := f) (by simp [hempty])
        rw [← hempty, ← heq]
        exact (h.buffers p hp).sorted
    refine List.pairwise_append.mpr ⟨h.ordered question output,
      (hsorted.sublist (delivered_sublist state _)).filter _, fun d hd f hf => ?_⟩
    obtain ⟨hd, hdclass⟩ := List.mem_filter.mp hd
    obtain ⟨hf, hfclass⟩ := List.mem_filter.mp hf
    obtain ⟨hfheld, -, houtput⟩ := hframes f (mem_delivered_handOver hf)
    simp only [ofClass, Bool.and_eq_true, decide_eq_true_eq] at hdclass hfclass
    refine h.after f hfheld d hd (hdclass.1.trans hfclass.1.symm) ?_
    rw [hdclass.2, ← hfclass.2, houtput]
  · intro x hx d hd hquestion houtput
    rw [delivered_append] at hd
    rcases List.mem_append.mp hd with hd | hd
    · exact h.after x (hsub x hx) d hd hquestion houtput
    · obtain ⟨-, hdq, -⟩ := hframes d (mem_delivered_handOver hd)
      obtain ⟨p, hp, hxp⟩ := mem_held.mp hx
      obtain ⟨hp, hne⟩ := List.mem_filter.mp hp
      have hxq := ((h.buffers p hp).frames x hxp).1
      rw [hdq, hxq, Option.some.injEq] at hquestion
      exact absurd hquestion.symm (of_decide_eq_true hne)
  · unfold numbers
    rw [List.map_append]
    refine h.lags.append fun i hi => ?_
    obtain ⟨o, ho, rfl⟩ := List.mem_map.mp hi
    obtain ⟨f, hf, rfl⟩ := List.mem_map.mp ho
    rw [handOver_event]
    obtain ⟨hfheld, -⟩ := hframes f hf
    have hfpool : f ∈ pool s outputs := List.mem_append_right _ hfheld
    obtain ⟨hpos, hdown⟩ := h.down f (h.once.mem_iff.mpr (List.mem_append_left _ hfpool))
    refine ⟨hpos, fun j hj hji => ?_⟩
    obtain ⟨e', he', rfl⟩ := hdown j hj (by omega)
    rcases List.mem_append.mp (h.once.mem_iff.mp he') with he' | he'
    · rcases List.mem_append.mp he' with he' | he'
      · obtain ⟨o, ho, rfl⟩ := List.mem_map.mp he'
        exact List.mem_map.mpr ⟨o, ho, rfl⟩
      · have hnear := h.near f hfpool e' he'
        omega
    · have hlast := h.last e' he' f hfpool
      omega

/-! ### Placing an event -/

/-- The event in the hand is handed over, discarded when its question is blocked. -/
theorem FilterSound.handed {s : BackchannelFilter} {consumed : List ProviderEvent}
    {outputs : List Output} {e : ProviderEvent} (h : FilterSound s consumed outputs [e])
    (hnear : ∀ x ∈ held s, e.sequence < x.sequence + 64) (state : QuestionState)
    (hdiscard : state = .blocked → ∃ q, e.questionId = some q ∧
      s.states.lookup q = some .blocked ∧ (isOutput e.kind ∨ isTranscript e.kind))
    (hdeliver : state ≠ .blocked → ∀ x ∈ held s, e.questionId = x.questionId →
      isOutput e.kind = false) :
    FilterSound s consumed (outputs ++ [handOver state e]) [] := by
  have hpool : List.Perm (pool s (outputs ++ [handOver state e])) (pool s outputs ++ [e]) := by
    unfold pool
    rw [List.map_append, List.map_cons, List.map_nil, handOver_event, List.append_assoc,
      List.append_assoc]
    exact List.perm_append_comm.append_left _
  have hlast := h.last e (List.mem_singleton_self e)
  have hpast : ∀ d ∈ delivered outputs, d.sequence < e.sequence := by
    intro d hd
    obtain ⟨o, ho, heq⟩ := List.mem_filterMap.mp hd
    refine hlast d (List.mem_append_left _ (List.mem_map.mpr ⟨o, ho, ?_⟩))
    cases o <;> simp at heq
    exact heq
  have hadded : ∀ d ∈ delivered [handOver state e], d = e ∧ state ≠ .blocked := by
    intro d hd
    cases state <;> simp [delivered, handOver] at hd ⊢ <;> exact hd
  refine ⟨?_, h.down, by simp, ?_, h.keys, h.buffers, h.blocked, ?_, ?_, ?_, ?_⟩
  · rw [List.append_nil]
    exact h.once.trans hpool.symm
  · intro x hx y hy
    rcases List.mem_append.mp (hpool.mem_iff.mp hx) with hx | hx
    · exact h.near x hx y hy
    · obtain rfl := List.mem_singleton.mp hx
      exact hnear y hy
  · intro d hd
    rcases List.mem_append.mp hd with hd | hd
    · exact h.discards d hd
    · cases state <;> simp [handOver] at hd
      exact hd ▸ hdiscard rfl
  · intro question output
    rw [delivered_append, List.filter_append]
    refine List.pairwise_append.mpr ⟨h.ordered question output, ?_, fun d hd d' hd' => ?_⟩
    · cases state <;> simp [delivered, handOver, List.filter_cons] <;> split_ifs <;> simp
    · obtain ⟨rfl, -⟩ := hadded d' (List.mem_of_mem_filter hd')
      exact hpast d (List.mem_of_mem_filter hd)
  · intro x hx d hd hquestion houtput
    rw [delivered_append] at hd
    rcases List.mem_append.mp hd with hd | hd
    · exact h.after x hx d hd hquestion houtput
    · obtain ⟨rfl, hstate⟩ := hadded d hd
      rw [hdeliver hstate x hx hquestion] at houtput
      cases houtput
  · unfold numbers
    rw [List.map_append, List.map_cons, List.map_nil, handOver_event]
    refine h.lags.append fun i hi => ?_
    obtain rfl := List.mem_singleton.mp hi
    have hmem : e ∈ consumed := h.once.mem_iff.mpr (by simp)
    obtain ⟨hpos, hdown⟩ := h.down e hmem
    refine ⟨hpos, fun j hj hji => ?_⟩
    obtain ⟨e', he', rfl⟩ := hdown j hj (by omega)
    rcases List.mem_append.mp (h.once.mem_iff.mp he') with he' | he'
    · rcases List.mem_append.mp he' with he' | he'
      · obtain ⟨o, ho, rfl⟩ := List.mem_map.mp he'
        exact List.mem_map.mpr ⟨o, ho, rfl⟩
      · have hnear := hnear e' he'
        omega
    · obtain rfl := List.mem_singleton.mp he'
      omega

theorem mem_hold {s : BackchannelFilter} {q : Ident} {e : ProviderEvent}
    {p : Ident × List ProviderEvent} (h : p ∈ (s.hold q e).buffers) :
    p ∈ s.buffers ∧ p.1 ≠ q ∨ p.1 = q ∧ (p.2 = [e] ∧ s.buffers.lookup q = none ∨
      ∃ p' ∈ s.buffers, p'.1 = q ∧ p.2 = p'.2 ++ [e]) := by
  unfold BackchannelFilter.hold at h
  simp only at h
  split_ifs at h with hsome
  · obtain ⟨p', hp', rfl⟩ := List.mem_map.mp h
    by_cases hsame : p'.1 = q
    · rw [if_pos hsame]
      exact .inr ⟨hsame, .inr ⟨p', hp', hsame, rfl⟩⟩
    · rw [if_neg hsame]
      exact .inl ⟨hp', hsame⟩
  · have hnone : s.buffers.lookup q = none := Option.not_isSome_iff_eq_none.mp hsome
    rcases List.mem_append.mp h with h | h
    · refine .inl ⟨h, fun hsame => ?_⟩
      have hne := List.lookup_eq_none_iff.mp hnone p h
      simp [hsame] at hne
    · obtain rfl := List.mem_singleton.mp h
      exact .inr ⟨rfl, .inl ⟨rfl, hnone⟩⟩

theorem held_hold {s : BackchannelFilter} (hkeys : (s.buffers.map (·.1)).Nodup) (q : Ident)
    (e : ProviderEvent) : List.Perm (held (s.hold q e)) (held s ++ [e]) ∧
      ((s.hold q e).buffers.map (·.1)).Nodup := by
  unfold BackchannelFilter.hold held
  cases hlookup : s.buffers.lookup q with
  | none =>
    simp only [Option.isSome_none, Bool.false_eq_true, if_false]
    refine ⟨by simp, ?_⟩
    rw [List.map_append]
    refine List.nodup_append.mpr ⟨hkeys, List.nodup_singleton _, ?_⟩
    intro a ha b hb
    obtain ⟨p, hp, rfl⟩ := List.mem_map.mp ha
    have hne := List.lookup_eq_none_iff.mp hlookup p hp
    obtain rfl := List.mem_singleton.mp hb
    exact fun hsame => by simp [hsame] at hne
  | some frames =>
    simp only [Option.isSome_some, if_true]
    obtain ⟨l₁, l₂, hsplit, -⟩ := List.lookup_eq_some_iff.mp hlookup
    have hids : (s.buffers.map fun p => if p.1 = q then (p.1, p.2 ++ [e]) else p).map (·.1) =
        s.buffers.map (·.1) := by
      rw [List.map_map]
      refine List.map_congr_left fun p _ => ?_
      by_cases hsame : p.1 = q <;> simp [hsame]
    refine ⟨?_, by rw [hids]; exact hkeys⟩
    rw [hsplit, List.map_append, List.map_cons, List.nodup_append, List.nodup_cons] at hkeys
    obtain ⟨-, ⟨hlater, -⟩, hearlier⟩ := hkeys
    have hfirst : l₁.map (fun p => if p.1 = q then (p.1, p.2 ++ [e]) else p) = l₁ := by
      refine (List.map_congr_left fun p hp => if_neg fun hsame => ?_).trans (List.map_id _)
      exact hearlier p.1 (List.mem_map_of_mem hp) q List.mem_cons_self hsame
    have hsecond : l₂.map (fun p => if p.1 = q then (p.1, p.2 ++ [e]) else p) = l₂ := by
      refine (List.map_congr_left fun p hp => if_neg fun hsame => ?_).trans (List.map_id _)
      exact hlater (List.mem_map.mpr ⟨p, hp, hsame⟩)
    rw [hsplit, List.map_append, List.map_cons, if_pos rfl, hfirst, hsecond]
    simp only [List.flatMap_append, List.flatMap_cons, List.append_assoc]
    exact (List.perm_append_comm.append_left frames).append_left _

/-- The event in the hand is held. -/
theorem FilterSound.kept {s : BackchannelFilter} {consumed : List ProviderEvent}
    {outputs : List Output} {e : ProviderEvent} {q : Ident} (h : FilterSound s consumed outputs [e])
    (hnear : ∀ x ∈ held s, e.sequence < x.sequence + 64)
    (hcandidate : s.states.lookup q = some .candidate) (hquestion : e.questionId = some q)
    (houtput : isOutput e.kind = true) : FilterSound (s.hold q e) consumed outputs [] := by
  obtain ⟨hperm, hkeys⟩ := held_hold h.keys q e
  have hlast := h.last e (List.mem_singleton_self e)
  have hpool : List.Perm (pool (s.hold q e) outputs) (pool s outputs ++ [e]) := by
    unfold pool
    rw [List.append_assoc]
    exact hperm.append_left _
  refine ⟨?_, h.down, by simp, ?_, hkeys, ?_, h.blocked, h.discards, h.ordered, ?_, h.lags⟩
  · rw [List.append_nil]
    exact h.once.trans hpool.symm
  · intro x hx y hy
    rcases List.mem_append.mp (hpool.mem_iff.mp hx) with hold | hnew <;>
      rcases List.mem_append.mp (hperm.mem_iff.mp hy) with hold' | hnew'
    · exact h.near x hold y hold'
    · have hlt := hlast x hold
      rw [List.mem_singleton.mp hnew']
      omega
    · rw [List.mem_singleton.mp hnew]
      exact hnear y hold'
    · rw [List.mem_singleton.mp hnew, List.mem_singleton.mp hnew']
      omega
  · intro p hp
    rcases mem_hold hp with ⟨hp, -⟩ | ⟨rfl, ⟨hframes, -⟩ | ⟨p', hp', hsame, hframes⟩⟩
    · have hsound := h.buffers p hp
      exact ⟨hsound.candidate, hsound.nonempty, hsound.sorted, hsound.frames⟩
    · refine ⟨hcandidate, by simp [hframes], by simp [hframes], fun f hf => ?_⟩
      rw [hframes] at hf
      obtain rfl := List.mem_singleton.mp hf
      exact ⟨hquestion, houtput⟩
    · have hsound := h.buffers p' hp'
      refine ⟨hcandidate, by simp [hframes], ?_, fun f hf => ?_⟩
      · rw [hframes]
        refine List.pairwise_append.mpr ⟨hsound.sorted, List.pairwise_singleton _ _, ?_⟩
        intro a ha b hb
        obtain rfl := List.mem_singleton.mp hb
        exact hlast a (List.mem_append_right _ (mem_held.mpr ⟨p', hp', ha⟩))
      · rw [hframes] at hf
        rcases List.mem_append.mp hf with hf | hf
        · exact hsame ▸ hsound.frames f hf
        · obtain rfl := List.mem_singleton.mp hf
          exact ⟨hquestion, houtput⟩
  · intro x hx d hd hq hd'
    rcases List.mem_append.mp (hperm.mem_iff.mp hx) with hx | hx
    · exact h.after x hx d hd hq hd'
    · obtain rfl := List.mem_singleton.mp hx
      obtain ⟨o, ho, heq⟩ := List.mem_filterMap.mp hd
      refine hlast d (List.mem_append_left _ (List.mem_map.mpr ⟨o, ho, ?_⟩))
      cases o <;> simp at heq
      exact heq

/-! ### The parts of an operation -/

/-- What no part of an operation changes. -/
structure SameRun (s s' : BackchannelFilter) : Prop where
  closed : s'.closed = s.closed
  sid : s'.sid = s.sid
  words : s'.words = s.words

theorem SameRun.refl (s : BackchannelFilter) : SameRun s s := ⟨rfl, rfl, rfl⟩

theorem SameRun.trans {s₁ s₂ s₃ : BackchannelFilter} (h : SameRun s₁ s₂) (h' : SameRun s₂ s₃) :
    SameRun s₁ s₃ :=
  ⟨h'.closed.trans h.closed, h'.sid.trans h.sid, h'.words.trans h.words⟩

section Parts

variable {s s' : BackchannelFilter} {consumed hand outputs' : List ProviderEvent}
  {outputs out : List Output} {e : ProviderEvent} {q : Ident}

/-- The invariant speaks of words, states and buffers alone. -/
theorem FilterSound.aside (h : FilterSound s consumed outputs hand) (finished deleted : List Ident)
    (sid : Option Ident) :
    FilterSound { s with finished := finished, deleted := deleted, sid := sid } consumed outputs hand :=
  ⟨h.once, h.down, h.last, h.near, h.keys, fun p hp => ⟨(h.buffers p hp).candidate,
    (h.buffers p hp).nonempty, (h.buffers p hp).sorted, (h.buffers p hp).frames⟩, h.blocked,
    h.discards, h.ordered, h.after, h.lags⟩

theorem FilterSound.scheduled (h : FilterSound s consumed outputs hand) (q : Ident) :
    FilterSound (s.scheduleDelete q) consumed outputs hand := by
  unfold BackchannelFilter.scheduleDelete
  split_ifs
  · exact h.aside s.finished (q :: s.deleted) s.sid
  · exact h

theorem sameRun_scheduleDelete (s : BackchannelFilter) (q : Ident) :
    SameRun s (s.scheduleDelete q) := by
  unfold BackchannelFilter.scheduleDelete
  split_ifs <;> exact ⟨rfl, rfl, rfl⟩

/-- A question that is seen for the first time. -/
theorem FilterSound.nominated (h : FilterSound s consumed outputs hand)
    (hnew : s.states.lookup q = none) : FilterSound (s.mark q .candidate) consumed outputs hand := by
  have hother : ∀ q' state, s.states.lookup q' = some state →
      (s.mark q .candidate).states.lookup q' = some state := by
    intro q' state hq'
    have hne : q' ≠ q := by
      rintro rfl
      rw [hnew] at hq'
      cases hq'
    exact (AList.lookup_insert_ne hne).trans hq'
  refine ⟨h.once, h.down, h.last, h.near, h.keys, fun p hp => ?_, fun q' hq' => ?_, fun d hd => ?_,
    h.ordered, h.after, h.lags⟩
  · have hsound := h.buffers p hp
    exact ⟨hother _ _ hsound.candidate, hsound.nonempty, hsound.sorted, hsound.frames⟩
  · by_cases hsame : q' = q
    · subst hsame
      have hq'' : some QuestionState.candidate = some .blocked :=
        (AList.lookup_insert _).symm.trans hq'
      cases hq''
    · exact h.blocked q' ((AList.lookup_insert_ne hsame).symm.trans hq')
  · obtain ⟨q', hq', hlookup, hkind⟩ := h.discards d hd
    exact ⟨q', hq', hother _ _ hlookup, hkind⟩

theorem FilterSound.released (h : FilterSound s consumed outputs hand)
    (hcandidate : s.states.lookup q = some .candidate) :
    FilterSound (s.release q).1 consumed (outputs ++ (s.release q).2) hand :=
  h.emptied hcandidate .valid (by simp)

theorem sameRun_release (s : BackchannelFilter) (q : Ident) : SameRun s (s.release q).1 :=
  ⟨rfl, rfl, rfl⟩

/-- Emptying the buffers that lie too far back. -/
theorem releaseOutdated_sound {n : ℕ} {items : List (Ident × List ProviderEvent)}
    (h : FilterSound s consumed outputs hand) (hitems : ∀ p ∈ items, p ∈ s.buffers)
    (hkeys : (items.map (·.1)).Nodup) :
    let r := releaseOutdated n s items
    FilterSound r.1 consumed (outputs ++ r.2) hand ∧ SameRun s r.1 ∧
      ∀ p ∈ r.1.buffers, p ∈ s.buffers ∧ (p ∈ items → outdated n p.2 = false) := by
  induction items generalizing s outputs with
  | nil =>
    refine ⟨?_, .refl s, fun p hp => ⟨hp, by simp⟩⟩
    simpa [releaseOutdated] using h
  | cons item rest ih =>
    obtain ⟨q, frames⟩ := item
    obtain ⟨hfirst, hrest⟩ := List.nodup_cons.mp hkeys
    have hmem := hitems (q, frames) List.mem_cons_self
    simp only [releaseOutdated]
    by_cases hold : outdated n frames = true
    · rw [if_pos hold]
      have hreleased := h.released (h.buffers _ hmem).candidate
      have hothers : ∀ p ∈ rest, p ∈ (s.release q).1.buffers := by
        intro p hp
        refine List.mem_filter.mpr ⟨hitems p (List.mem_cons_of_mem _ hp), decide_eq_true ?_⟩
        exact fun hsame => hfirst (List.mem_map.mpr ⟨p, hp, hsame⟩)
      obtain ⟨hsound, hsame, hleft⟩ := ih hreleased hothers hrest
      refine ⟨by simpa [List.append_assoc] using hsound, (sameRun_release s q).trans hsame,
        fun p hp => ?_⟩
      obtain ⟨hp', hnot⟩ := hleft p hp
      obtain ⟨hp', hne⟩ := List.mem_filter.mp hp'
      refine ⟨hp', fun hin => ?_⟩
      rcases List.mem_cons.mp hin with rfl | hin
      · exact absurd rfl (of_decide_eq_true hne)
      · exact hnot hin
    · rw [if_neg hold]
      obtain ⟨hsound, hsame, hleft⟩ :=
        ih h (fun p hp => hitems p (List.mem_cons_of_mem _ hp)) hrest
      refine ⟨hsound, hsame, fun p hp => ⟨(hleft p hp).1, fun hin => ?_⟩⟩
      rcases List.mem_cons.mp hin with rfl | hin
      · simpa using hold
      · exact (hleft p hp).2 hin

/-- What is left lies at most a window behind the event. -/
theorem near_of_releaseOutdated (h : FilterSound s consumed outputs hand) :
    ∀ x ∈ held (releaseOutdated e.sequence s s.buffers).1,
      e.sequence < x.sequence + 64 := by
  intro x hx
  obtain ⟨p, hp, hxp⟩ := mem_held.mp hx
  obtain ⟨hp', hfresh⟩ := (releaseOutdated_sound h (fun _ => id) h.keys).2.2 p hp
  have hfresh := hfresh hp'
  have hsorted := (h.buffers p hp').sorted
  cases hframes : p.2 with
  | nil => simp [hframes] at hxp
  | cons f rest =>
    rw [hframes] at hsorted hxp
    simp only [outdated, hframes, List.head?_cons, Option.any_some, decide_eq_false_iff_not,
      not_le] at hfresh
    rcases List.mem_cons.mp hxp with rfl | hxp
    · exact hfresh
    · have hlt := (List.pairwise_cons.mp hsorted).1 x hxp
      omega

/-- The decision about a candidate. -/
theorem classify_sound (h : FilterSound s consumed outputs hand) (he : e ∈ consumed) :
    FilterSound (s.classify e).1 consumed (outputs ++ (s.classify e).2) hand ∧
      SameRun s (s.classify e).1 ∧ ∀ x ∈ held (s.classify e).1, x ∈ held s := by
  have hkeep : FilterSound s consumed (outputs ++ []) hand ∧ SameRun s s ∧
      ∀ x ∈ held s, x ∈ held s := ⟨by rwa [List.append_nil], .refl s, fun _ => id⟩
  unfold BackchannelFilter.classify
  split
  · next _ q hkind hquestion =>
    by_cases hcandidate : s.state (some q) = some .candidate
    swap
    · rw [if_neg hcandidate]
      exact hkeep
    rw [if_pos hcandidate]
    have hsub : ∀ state, ∀ x ∈ held ((s.mark q state).dropBuffer q), x ∈ held s := by
      intro state x hx
      obtain ⟨p, hp, hxp⟩ := mem_held.mp hx
      exact mem_held.mpr ⟨p, List.mem_of_mem_filter hp, hxp⟩
    have hvalid := h.released (q := q) hcandidate
    cases hpayload : e.payload with
    | text text =>
      by_cases hack : pureAck text s.words = true
      · simp only [hack, if_true]
        refine ⟨FilterSound.scheduled (h.emptied hcandidate .blocked fun _ => ?_) q,
          ?_, fun x hx => ?_⟩
        · exact ⟨e, he, hkind, hquestion, text, hpayload, hack⟩
        · have hmarked : SameRun s ((s.mark q .blocked).dropBuffer q) := ⟨rfl, rfl, rfl⟩
          exact hmarked.trans (sameRun_scheduleDelete _ q)
        · refine hsub .blocked x ?_
          unfold BackchannelFilter.scheduleDelete at hx
          split_ifs at hx <;> exact hx
      · simp only [hack, Bool.false_eq_true, if_false]
        exact ⟨hvalid, sameRun_release s q, hsub .valid⟩
    | absent => exact ⟨hvalid, sameRun_release s q, hsub .valid⟩
    | audio bytes => exact ⟨hvalid, sameRun_release s q, hsub .valid⟩
    | data text => exact ⟨hvalid, sameRun_release s q, hsub .valid⟩
  · exact hkeep

/-- The end of an operation. -/
theorem place_sound (h : FilterSound s consumed outputs [e])
    (hnear : ∀ x ∈ held s, e.sequence < x.sequence + 64) :
    FilterSound (s.place e).1 consumed (outputs ++ (s.place e).2) [] ∧ SameRun s (s.place e).1 := by
  have hfree : (∀ x ∈ held s, e.questionId = x.questionId → isOutput e.kind = false) →
      FilterSound s consumed (outputs ++ [.deliver e]) [] ∧ SameRun s s := fun hother =>
    ⟨h.handed hnear .valid (by simp) fun _ => hother, .refl s⟩
  unfold BackchannelFilter.place
  cases hquestion : e.questionId with
  | none =>
    refine hfree fun x hx hsame => ?_
    obtain ⟨p, hp, hxp⟩ := mem_held.mp hx
    rw [hquestion, ((h.buffers p hp).frames x hxp).1] at hsame
    cases hsame
  | some q =>
    by_cases hheld : isOutput e.kind = true ∧ s.state (some q) = some .candidate
    · simp only [if_pos hheld]
      have hkept := h.kept hnear (q := q) hheld.2 hquestion hheld.1
      split_ifs
      · exact ⟨hkept.released hheld.2, ⟨rfl, rfl, rfl⟩⟩
      · rw [List.append_nil]
        exact ⟨hkept, ⟨rfl, rfl, rfl⟩⟩
    · simp only [if_neg hheld]
      by_cases hblocked : s.state (some q) = some .blocked ∧ (isOutput e.kind ∨ isTranscript e.kind)
      · simp only [if_pos hblocked]
        have hsound := h.handed hnear .blocked (fun _ => ⟨q, hquestion, hblocked⟩) (by simp)
        split_ifs
        · exact ⟨hsound.scheduled q, sameRun_scheduleDelete s q⟩
        · exact ⟨hsound, .refl s⟩
      · simp only [if_neg hblocked]
        refine hfree fun x hx hsame => ?_
        obtain ⟨p, hp, hxp⟩ := mem_held.mp hx
        have hxq := ((h.buffers p hp).frames x hxp).1
        rw [hquestion, hxq, Option.some.injEq] at hsame
        cases houtput : isOutput e.kind with
        | false => rfl
        | true =>
          have hcandidate := (h.buffers p hp).candidate
          rw [← hsame] at hcandidate
          exact absurd ⟨houtput, hcandidate⟩ hheld

/-- The next event of the session is taken. -/
theorem FilterSound.taken (h : FilterSound s consumed outputs [])
    (hnumbered : consumed.map (·.sequence) = List.range' 1 consumed.length)
    (hnext : e.sequence = consumed.length + 1) : FilterSound s (consumed ++ [e]) outputs [e] := by
  have hnumber : ∀ j, 1 ≤ j → j ≤ consumed.length → ∃ e' ∈ consumed, e'.sequence = j := by
    intro j hj hle
    refine List.mem_map.mp ?_
    rw [hnumbered, List.mem_range'_1]
    omega
  have hbound : ∀ x ∈ consumed, x.sequence ≤ consumed.length := by
    intro x hx
    have hmem : x.sequence ∈ consumed.map (·.sequence) := List.mem_map_of_mem hx
    rw [hnumbered, List.mem_range'_1] at hmem
    omega
  have honce : List.Perm consumed (pool s outputs) := by simpa using h.once
  refine ⟨honce.append_right _, fun x hx => ?_, fun x hx y hy => ?_, h.near, h.keys, h.buffers,
    fun q hq => ?_, h.discards, h.ordered, h.after, h.lags⟩
  · rcases List.mem_append.mp hx with hx | hx
    · obtain ⟨hpos, hdown⟩ := h.down x hx
      refine ⟨hpos, fun j hj hle => ?_⟩
      obtain ⟨e', he', heq⟩ := hdown j hj hle
      exact ⟨e', List.mem_append_left _ he', heq⟩
    · obtain rfl := List.mem_singleton.mp hx
      refine ⟨by omega, fun j hj hle => ?_⟩
      rcases Nat.lt_or_ge consumed.length j with hlt | hge
      · exact ⟨x, List.mem_append_right _ (List.mem_singleton_self x), by omega⟩
      · obtain ⟨e', he', heq⟩ := hnumber j hj hge
        exact ⟨e', List.mem_append_left _ he', heq⟩
  · obtain rfl := List.mem_singleton.mp hx
    have hy := hbound y (honce.mem_iff.mpr hy)
    omega
  · obtain ⟨a, ha, hack⟩ := h.blocked q hq
    exact ⟨a, List.mem_append_left _ ha, hack⟩

theorem nominate_sound {playing : Option Ident} (h : FilterSound s consumed outputs hand)
    (hok : s.nominate e playing = .ok s') :
    FilterSound s' consumed outputs hand ∧ SameRun s s' ∧ s'.buffers = s.buffers := by
  unfold BackchannelFilter.nominate at hok
  split at hok
  · obtain rfl := Except.ok.inj hok
    exact ⟨h, .refl s, rfl⟩
  · next q _ =>
    split_ifs at hok with hlimit hknown
    · obtain rfl := Except.ok.inj hok
      exact ⟨h, .refl s, rfl⟩
    · obtain rfl := Except.ok.inj hok
      exact ⟨h.nominated (Option.not_isSome_iff_eq_none.mp hknown), ⟨rfl, rfl, rfl⟩, rfl⟩

/-- A whole operation. -/
theorem consume_sound {playing : Option Ident} (h : FilterSound s consumed outputs [])
    (hclosed : s.closed = false) (hsession : s.sid.any (fun sid => sid ≠ e.sessionId) = false)
    (hnumbered : consumed.map (·.sequence) = List.range' 1 consumed.length)
    (hnext : e.sequence = consumed.length + 1) (hok : s.consume e playing = (s', out, none)) :
    FilterSound s' (consumed ++ [e]) (outputs ++ out) [] ∧ s'.closed = false ∧
      s'.sid = some e.sessionId ∧ s'.words = s.words := by
  have hentered : s.enter e.sessionId = { s with sid := some e.sessionId } := by
    unfold BackchannelFilter.enter
    rw [if_neg (by rw [hsession]; exact Bool.false_ne_true)]
  have htaken : FilterSound (s.enter e.sessionId) (consumed ++ [e]) outputs [e] := by
    rw [hentered]
    exact (h.taken hnumbered hnext).aside s.finished s.deleted (some e.sessionId)
  have hold := releaseOutdated_sound (n := e.sequence) htaken (fun _ => id) htaken.keys
  have hnear := near_of_releaseOutdated (e := e) htaken
  simp only [BackchannelFilter.consume, hclosed, Bool.false_eq_true, if_false] at hok
  cases hnominated : (releaseOutdated e.sequence (s.enter e.sessionId)
      (s.enter e.sessionId).buffers).1.nominate e playing with
  | error err => simp [hnominated] at hok
  | ok s₁ =>
    simp only [hnominated, Prod.mk.injEq] at hok
    obtain ⟨rfl, rfl, -⟩ := hok
    obtain ⟨hsound₁, hsame₁, hbuffers⟩ := nominate_sound hold.1 hnominated
    obtain ⟨hsound₂, hsame₂, hsub⟩ := classify_sound (e := e) hsound₁ (by simp)
    have hnoted : FilterSound ((s₁.classify e).1.noteFinished e) (consumed ++ [e])
        (outputs ++ (releaseOutdated e.sequence (s.enter e.sessionId)
          (s.enter e.sessionId).buffers).2 ++ (s₁.classify e).2) [e] ∧
        SameRun (s₁.classify e).1 ((s₁.classify e).1.noteFinished e) ∧
        held ((s₁.classify e).1.noteFinished e) = held (s₁.classify e).1 := by
      unfold BackchannelFilter.noteFinished
      split
      · exact ⟨hsound₂.aside _ _ _, ⟨rfl, rfl, rfl⟩, rfl⟩
      · exact ⟨hsound₂, .refl _, rfl⟩
    obtain ⟨hsound₃, hsame₃, hheld⟩ := hnoted
    obtain ⟨hplaced, hsame₄⟩ := place_sound hsound₃ fun x hx => by
      rw [hheld] at hx
      have hx₁ := hsub x hx
      rw [held, hbuffers] at hx₁
      exact hnear x hx₁
    have hsame := hold.2.1.trans (hsame₁.trans (hsame₂.trans (hsame₃.trans hsame₄)))
    rw [hentered] at hsame
    refine ⟨by simpa [List.append_assoc] using hplaced, hsame.closed.trans hclosed, hsame.sid,
      hsame.words⟩

end Parts

/-! ### Every run of a session -/

structure FilterRun where
  filter : BackchannelFilter
  consumed : List ProviderEvent
  outputs : List Output

inductive FilterInput
  | consume (e : ProviderEvent) (playing : Option Ident)
  | timeout (question : Ident)

/-- The filter during one session, whose events are numbered from one without a gap. A raised error
ends the session. -/
def backchannels (words : List Text) (session : Ident) : Machine FilterRun FilterInput where
  start w := w = ⟨.new words, [], []⟩
  step w
    | .consume e playing =>
      if e.sessionId = session ∧ e.sequence = w.consumed.length + 1 then
        match w.filter.consume e playing with
        | (s, out, none) => some ⟨s, w.consumed ++ [e], w.outputs ++ out⟩
        | (_, _, some _) => none
      else none
    | .timeout q =>
      let r := w.filter.timeout q
      some ⟨r.1, w.consumed, w.outputs ++ r.2⟩

/-- The invariant of a session. -/
structure RunSound (words : List Text) (session : Ident) (w : FilterRun) : Prop where
  sound : FilterSound w.filter w.consumed w.outputs []
  numbered : w.consumed.map (·.sequence) = List.range' 1 w.consumed.length
  session : w.filter.sid.any (fun sid => sid ≠ session) = false
  closed : w.filter.closed = false
  words : w.filter.words = words

theorem filterSound_new (words : List Text) : FilterSound (.new words) [] [] [] := by
  refine ⟨List.Perm.refl _, by simp, by simp, ?_, List.nodup_nil, ?_, ?_, by simp, ?_, ?_, ?_⟩
  · simp [pool, held, BackchannelFilter.new]
  · simp [BackchannelFilter.new]
  · simp [BackchannelFilter.new]
  · simp [delivered]
  · simp [held, BackchannelFilter.new]
  · intro before i after heq
    simp [numbers] at heq

theorem timeout_sound {s : BackchannelFilter} {consumed : List ProviderEvent} {outputs : List Output}
    (h : FilterSound s consumed outputs []) (q : Ident) :
    FilterSound (s.timeout q).1 consumed (outputs ++ (s.timeout q).2) [] ∧
      SameRun s (s.timeout q).1 := by
  unfold BackchannelFilter.timeout
  split_ifs with hfires
  · simp only [Bool.and_eq_true, decide_eq_true_eq] at hfires
    exact ⟨h.released hfires.2, sameRun_release s q⟩
  · rw [List.append_nil]
    exact ⟨h, .refl s⟩

theorem step_runSound {words : List Text} {session : Ident} {w w' : FilterRun} {i : FilterInput}
    (h : RunSound words session w) (hstep : (backchannels words session).step w i = some w') :
    RunSound words session w' := by
  cases i with
  | consume e playing =>
    simp only [backchannels] at hstep
    split_ifs at hstep with hnext
    obtain ⟨rfl, hnext⟩ := hnext
    split at hstep
    · next s out hok =>
      obtain rfl := Option.some.inj hstep
      obtain ⟨hsound, hclosed, hsid, hwords⟩ :=
        consume_sound h.sound h.closed h.session h.numbered hnext hok
      refine ⟨hsound, ?_, by simp [hsid], hclosed, hwords.trans h.words⟩
      simp only [List.map_append, List.map_cons, List.map_nil, h.numbered, List.length_append,
        List.length_singleton, hnext]
      rw [List.range'_concat, Nat.one_mul, Nat.add_comm 1]
    · cases hstep
  | timeout q =>
    obtain rfl := Option.some.inj hstep
    obtain ⟨hsound, hsame⟩ := timeout_sound h.sound q
    exact ⟨hsound, h.numbered, by rw [hsame.sid]; exact h.session, hsame.closed.trans h.closed,
      hsame.words.trans h.words⟩

theorem reachable_runSound {words : List Text} {session : Ident} {w : FilterRun}
    (hw : (backchannels words session).Reachable w) : RunSound words session w := by
  refine Machine.reachable_invariant ?_ (fun w i w' => step_runSound) hw
  rintro w rfl
  exact ⟨filterSound_new words, rfl, rfl, rfl, rfl⟩

/-- What the turn service gets: a discarded event leaves only its number. -/
def tombstone : Output → ProviderEvent
  | .deliver e => e
  | .discard e => { e with kind := .backchannelFiltered, payload := .absent }

/-- The turn service takes the outputs of a session without running out of room, as long as it can
handle each of them. -/
def TurnsKeepUp (session : Ident) (outputs : List Output) : Prop :=
  ∀ callId answers (s₀ : TurnService.TurnState) (stream : ℕ → ProviderEvent),
    let R := TurnService.turnReorderer callId session answers fun _ => false
    s₀.service.frozen = false → (∀ o ∈ outputs, stream o.event.sequence = tombstone o) →
    (∀ m, m + 1 ∈ numbers outputs → R.Passes stream s₀ m) →
      R.Windowed stream (.init s₀) (numbers outputs) ∧
        (R.deliverAll stream (.init s₀) (numbers outputs)).2 = []

/-- What the filter does to a session: every event is handed over once or still held, what is
discarded belongs to an acknowledgement, the output of a question and its other events each keep
their order, a held event is released by its timer, and nothing is handed over before everything
that lies 64 numbers behind it. -/
structure NothingLost (words : List Text) (session : Ident) (w : FilterRun) : Prop where
  numbered : w.consumed.map (·.sequence) = List.range' 1 w.consumed.length
  once : List.Perm w.consumed (w.outputs.map Output.event ++ held w.filter)
  discarded : ∀ e, .discard e ∈ w.outputs → (isOutput e.kind ∨ isTranscript e.kind) ∧
    ∃ q, e.questionId = some q ∧ ∃ a ∈ w.consumed, Acknowledges words q a
  ordered : ∀ question output, ((delivered w.outputs).filter (ofClass question output)).Pairwise
    fun a b => a.sequence < b.sequence
  timed : ∀ x ∈ held w.filter, ∃ q, x.questionId = some q ∧
    .deliver x ∈ (w.filter.timeout q).2
  lags : Lags 64 (numbers w.outputs)
  turns : TurnsKeepUp session w.outputs

theorem nothing_lost (words : List Text) (session : Ident) {w : FilterRun}
    (hw : (backchannels words session).Reachable w) : NothingLost words session w := by
  have h := reachable_runSound hw
  refine ⟨h.numbered, ?_, fun e he => ?_, h.sound.ordered, fun x hx => ?_, h.sound.lags, ?_⟩
  · simpa [pool] using h.sound.once
  · obtain ⟨q, hq, hblocked, hkind⟩ := h.sound.discards e he
    exact ⟨hkind, q, hq, h.words ▸ h.sound.blocked q hblocked⟩
  · obtain ⟨p, hp, hxp⟩ := mem_held.mp hx
    have hbuffer := h.sound.buffers p hp
    refine ⟨p.1, (hbuffer.frames x hxp).1, ?_⟩
    have hfires : (!w.filter.closed && w.filter.state (some p.1) = some .candidate) = true := by
      simp [h.closed, BackchannelFilter.state, hbuffer.candidate]
    unfold BackchannelFilter.timeout
    rw [if_pos hfires]
    refine List.mem_map.mpr ⟨x, ?_, rfl⟩
    rw [frames_of_mem h.sound.keys hp]
    exact hxp
  · intro callId answers s₀ stream R hopen _ hpasses
    have hretry := TurnOrder.turnReorderer_retriable callId session answers
    have hstill := TurnOrder.turnReorderer_open callId session answers stream hopen
    have hlags : Lags R.window (numbers w.outputs) := h.sound.lags.mono (show 64 ≤ 128 by omega)
    exact ⟨windowed_of_lags hretry hstill hlags hpasses, quiet_of_lags hretry hstill hlags hpasses⟩

def overlapEvent (kind : EventKind) (sequence : ℕ) (payload : Payload) : FilterInput :=
  .consume ⟨kind, ['c'], ['s'], sequence, some ['q'], none, payload, none⟩ (some ['p'])

/-- The user starts to speak while a reply is playing, and the timer of the new question fires. -/
def overlap : List FilterInput :=
  [overlapEvent .userSpeechStarted 1 .absent, overlapEvent .chatText 2 (.text ['a']),
    overlapEvent .asrInterim 3 (.text ['b']), .timeout ['q']]

theorem nothing_lost_overlap :
    let w := (backchannels [['嗯']] ['s']).after ⟨.new [['嗯']], [], []⟩ overlap
    w.outputs.length = 3 ∧ NothingLost [['嗯']] ['s'] w :=
  ⟨by decide, nothing_lost [['嗯']] ['s'] (Machine.reachable_after rfl (by decide))⟩

/-- Held output is overtaken by the other events of its question; and the transcript that turns out
to be an acknowledgement is discarded although it was never held. -/
theorem overtaken_and_not_held :
    let M := backchannels [['嗯']] ['s']
    let w := M.after ⟨.new [['嗯']], [], []⟩ overlap
    let w' := M.after ⟨.new [['嗯']], [], []⟩ [overlapEvent .userSpeechStarted 1 .absent,
      overlapEvent .asrFinal 2 (.text ['嗯'])]
    M.Reachable w ∧ numbers w.outputs = [1, 3, 2] ∧
      (delivered w.outputs).map (·.questionId) = [some ['q'], some ['q'], some ['q']] ∧
      M.Reachable w' ∧
      w'.outputs.map (fun o => (o.event.kind, decide (o = .discard o.event))) =
        [(.userSpeechStarted, false), (.asrFinal, true)] :=
  ⟨Machine.reachable_after rfl (by decide), by decide, by decide,
    Machine.reachable_after rfl (by decide), by decide⟩

end CompanionBackend.BackchannelLag
