import CompanionBackend.BackchannelLag
import CompanionBackend.PlaybackService
import CompanionBackend.PlaybackViews

/-!
# Turn recording beside playback evidence

What the filter delivers goes to the turn service and then to the playback evidence,
one event at a time; what it discards leaves only its number in the turn service. A
client frame is read at any moment, and its result waits for the lock of the turn
service. An event that raises ends the delivery of events.
-/
namespace CompanionBackend.EvidenceLink

open ProviderEvents BackchannelService BackchannelLag EventReordering PlaybackService Runs
open TurnRecords TurnService

structure LinkState where
  /-- The filter with what it has taken and handed over. -/
  run : FilterRun
  /-- What the turn service has been given, in that order. -/
  taken : List Output
  /-- What has been handed over and not yet been given on. -/
  queue : List Output
  /-- The event the turn service has been given and the playback evidence not. -/
  feeding : Option ProviderEvent
  ended : Bool
  turns : Buffer TurnState ProviderEvent
  playback : PlaybackEvidence
  fed : List ProviderEvent
  /-- The result of a frame, until it is applied. -/
  waiting : Option (Ident × EffectiveText)

inductive LinkInput
  | filter (i : FilterInput)
  | record
  | feed (sid : Ident)
  | client (f : ClientFrame) (c : PlaybackCapabilities)
  | apply (a : ApplyAnswers) (cancelled : Bool)

/-- A discarded event is not for the playback evidence. -/
def toFeed : Output → Option ProviderEvent
  | .deliver e => some e
  | .discard _ => none

namespace LinkState

/-- The filter works when everything it has handed over has been given on. -/
def filter (s : LinkState) (words : List Text) (session : Ident) (i : FilterInput) :
    Option LinkState :=
  if s.ended || s.feeding.isSome || !s.queue.isEmpty then none
  else ((backchannels words session).step s.run i).map fun run =>
    { s with run, queue := run.outputs.drop s.run.outputs.length }

/-- `turns.consume`, of an event or of what is left of a discarded one. -/
def record (s : LinkState) (R : Reorderer TurnState ProviderEvent TurnError) : Option LinkState :=
  if s.ended || s.feeding.isSome then none
  else
    match s.queue with
    | [] => none
    | o :: rest =>
      let r := R.deliver s.turns o.event.sequence (tombstone o)
      some { s with
        taken := s.taken ++ [o]
        queue := rest
        feeding := toFeed o
        turns := r.1
        ended := r.2.isSome }

/-- `playback.feed`. -/
def feed (s : LinkState) (sid : Ident) : Option LinkState :=
  if s.ended then none
  else
    s.feeding.map fun e =>
      let r := s.playback.feed e true sid
      match r.2 with
      | .ok _ => { s with playback := r.1, feeding := none, fed := s.fed ++ [e] }
      | .error _ => { s with playback := r.1, ended := true }

/-- `playback.client`; frames are read one after the other. -/
def client (s : LinkState) (f : ClientFrame) (c : PlaybackCapabilities) : Option LinkState :=
  if s.waiting.isSome then none
  else
    let r := s.playback.client f c
    some { s with playback := r.1, waiting := r.2.toOption.join }

/-- `turns.apply_effective` and what follows it. -/
def apply (s : LinkState) (a : ApplyAnswers) (cancelled : Bool) : Option LinkState :=
  s.waiting.map fun (reply, result) =>
    let r := applyEffective s.turns.inner reply result a cancelled
    { s with
      turns := { s.turns with inner := r.1 }
      playback := if r.2.toOption.isSome && (result.completed || result.interrupted) then
        s.playback.releaseText reply else s.playback
      waiting := none }

end LinkState

/-- One session of a call. -/
def links (words : List Text) (callId session : Ident) (answers : ℕ → EventAnswers)
    (cancelled : ℕ → Bool) : Machine LinkState LinkInput where
  start s := ∃ hasJobs db, s = ⟨⟨.new words, [], []⟩, [], [], none, false,
    .init ⟨.new callId session hasJobs, db⟩, .new callId, [], none⟩
  step s
    | .filter i => s.filter words session i
    | .record => s.record (turnReorderer callId session answers cancelled)
    | .feed sid => s.feed sid
    | .client f c => s.client f c
    | .apply a cancelled => s.apply a cancelled

/-! ### When the two views agree -/

/-- An event about a reply. -/
def ofReply (reply : Ident) (e : ProviderEvent) : Bool := e.replyId = some reply

/-- An event names the question of its reply. A reply that is new to the playback evidence begins with
an event the turn service records, and its question has no other reply. -/
def begins (s : LinkState) (e : ProviderEvent) : Bool :=
  (e.replyId.getD []).isEmpty ||
    match s.playback.replies.lookup (e.replyId.getD []) with
    | some r => some r.questionId = e.questionId
    | none =>
      recorded e.kind && s.playback.replies.entries.all fun p => some p.2.questionId ≠ e.questionId

/-- No text of a reply comes after its end. -/
def inTime (s : LinkState) (e : ProviderEvent) : Bool :=
  e.kind ≠ .chatText ||
    (s.playback.replies.lookup (e.replyId.getD [])).all fun r => !r.textFinished

/-- The turn service has handled an event of the reply; and when the reply has been played to its
end, neither text of it nor the end of its audio is waiting for a number that is missing. -/
def caughtUp (s : LinkState) (f : CheckedFrame) : Bool :=
  (s.fed.any fun e => ofReply f.reply e && recorded e.kind && e.sequence ≤ s.turns.sequence) &&
    (f.kind ≠ .replyPlaybackCompleted || s.turns.pending.entries.all fun p =>
      !(ofReply f.reply p.2 && (p.2.kind = .ttsFinished || p.2.kind = .chatText)))

/-- The condition on a step. -/
def met (s : LinkState) : LinkInput → Bool
  | .record =>
    match s.queue with
    | .deliver e :: _ => begins s e && inTime s e
    | _ => true
  | .client f _ => (s.playback.checked f).all (caughtUp s)
  | _ => true

end CompanionBackend.EvidenceLink

/-!
## When playback evidence and turn recording agree

While every reply is the only one of its question and ends with its text, and a client
frame is read when the turn service has caught up with the reply, every result the
playback evidence returns is accepted by the turn service.
-/
namespace CompanionBackend.EvidenceAgreement

open ProviderEvents BackchannelService BackchannelLag EventReordering EvidenceLink PlaybackService
open PlaybackViews Runs TurnRecords TurnService TurnViews

variable {p : PlaybackEvidence} {e : ProviderEvent}

/-- The events up to a number. -/
def upTo (n : ℕ) (log : List ProviderEvent) : List ProviderEvent :=
  log.filter fun e => e.sequence ≤ n

/-! ### The next event of a log -/

/-- What is known of the events the turn service has been given: their numbers, their order, and the
replies they name. -/
structure LogSound (p : PlaybackEvidence) (taken : List Output) : Prop where
  once : (numbers taken).Nodup
  ordered : ∀ question output, ((delivered taken).filter (ofClass question output)).Pairwise
    fun a b => a.sequence < b.sequence
  placed : ∀ e ∈ delivered taken, Placed p e
  together : ∀ e ∈ delivered taken, ∀ e' ∈ delivered taken, ∀ r, e.replyId = some r → r ≠ [] →
    e'.replyId = some r → e.questionId = e'.questionId

theorem mem_delivered {outputs : List Output} : e ∈ delivered outputs ↔ .deliver e ∈ outputs := by
  unfold delivered
  rw [List.mem_filterMap]
  constructor
  · rintro ⟨o, ho, heq⟩
    cases o <;> simp at heq
    exact heq ▸ ho
  · exact fun h => ⟨.deliver e, h, rfl⟩

theorem delivered_singleton (o : Output) : delivered [o] = (toFeed o).toList := by
  cases o <;> rfl

theorem mem_toFeed {o : Output} : e ∈ toFeed o ↔ o = .deliver e := by
  cases o <;> simp [toFeed]

/-- No two outputs have one number. -/
theorem LogSound.same {taken : List Output} (h : LogSound p taken) {o o' : Output} (ho : o ∈ taken)
    (ho' : o' ∈ taken) (heq : o.event.sequence = o'.event.sequence) : o = o' :=
  List.inj_on_of_nodup_map h.once ho ho' heq

/-- The pieces of text of a reply are in the order of their numbers. -/
theorem LogSound.chats {taken : List Output} (h : LogSound p taken) (r : Ident) :
    ((delivered taken).filter (isChat r)).Pairwise fun a b => a.sequence < b.sequence := by
  cases hchats : (delivered taken).filter (isChat r) with
  | nil => exact List.Pairwise.nil
  | cons e rest =>
    have he : e ∈ (delivered taken).filter (isChat r) := hchats ▸ List.mem_cons_self
    obtain ⟨hlog, hchat⟩ := List.mem_filter.mp he
    obtain ⟨-, hreply, hne⟩ := isChat_iff.mp hchat
    rw [← hchats]
    have hsub : ((delivered taken).filter (isChat r)).Sublist
        ((delivered taken).filter (ofClass e.questionId true)) := by
      have hclass : (delivered taken).filter (isChat r) =
          ((delivered taken).filter (ofClass e.questionId true)).filter (isChat r) := by
        rw [List.filter_filter]
        refine List.filter_congr fun e' he' => ?_
        by_cases hchat' : isChat r e' = true
        · obtain ⟨hkind', hreply', -⟩ := isChat_iff.mp hchat'
          have hsame := h.together e hlog e' he' r hreply hne hreply'
          simp [hchat', ofClass, hsame, hkind', isOutput]
        · simp [hchat']
      rw [hclass]
      exact List.filter_sublist
    exact (h.ordered _ _).sublist hsub

theorem textOf_upTo (n : ℕ) (log : List ProviderEvent) (r : Ident) :
    textOf (upTo n log) r = (upTo n (log.filter (isChat r))).flatMap eventText := by
  unfold textOf upTo
  rw [List.filter_filter, List.filter_filter]
  congr 2
  funext e
  exact Bool.and_comm ..

/-- The text of a reply up to the next number, which an event has. -/
theorem LogSound.text_next {taken : List Output} (h : LogSound p taken) {n : ℕ}
    (he : e ∈ delivered taken) (hnext : e.sequence = n + 1) (r : Ident) :
    textOf (upTo (n + 1) (delivered taken)) r =
      if isChat r e then textOf (upTo n (delivered taken)) r ++ eventText e
      else textOf (upTo n (delivered taken)) r := by
  rw [textOf_upTo, textOf_upTo]
  have hsame : ∀ e' ∈ delivered taken, e'.sequence = n + 1 → e' = e := by
    intro e' he' heq
    exact Output.deliver.inj (h.same (mem_delivered.mp he') (mem_delivered.mp he)
      (heq.trans hnext.symm))
  split_ifs with hchat
  · have hlast := filter_le_succ (h.chats r) (List.mem_filter.mpr ⟨he, hchat⟩) hnext
    unfold upTo
    rw [hlast, List.flatMap_append]
    simp
  · unfold upTo
    congr 1
    refine List.filter_congr fun e' he' => ?_
    obtain ⟨hlog, hchat'⟩ := List.mem_filter.mp he'
    have hne : e'.sequence ≠ n + 1 := by
      intro heq
      rw [hsame e' hlog heq] at hchat'
      exact hchat hchat'
    exact decide_eq_decide.mpr ⟨fun hle => by omega, fun hle => by omega⟩

/-! ### The buffer of the turn service -/

/-- The buffer holds what was given and not yet handled, and the drafts are made of the rest. -/
structure TurnsSound (p : PlaybackEvidence) (taken : List Output) (arrived : List ProviderEvent)
    (b : Buffer TurnState ProviderEvent) : Prop where
  pending : ∀ i e, b.pending.lookup i = some e →
    ∃ o ∈ taken, o.event.sequence = i ∧ e = tombstone o
  passed : ∀ i, 1 ≤ i → i ≤ b.sequence → i ∈ numbers taken
  arrived : ∀ e ∈ arrived, e.sequence ≤ b.sequence ∨ b.pending.lookup e.sequence = some e
  view : TurnView p (fun e => e ∈ delivered taken ∧ e.sequence ≤ b.sequence)
    (textOf (upTo b.sequence (delivered taken))) b.inner.service

section Buffers

variable (callId session : Ident) (answers : ℕ → EventAnswers) (cancelled : ℕ → Bool)
  {taken : List Output} {arrived : List ProviderEvent} {b : Buffer TurnState ProviderEvent}

theorem numbers_append (outputs : List Output) (o : Output) :
    numbers (outputs ++ [o]) = numbers outputs ++ [o.event.sequence] := by
  simp [numbers]

theorem sequence_mem {o : Output} (ho : o ∈ taken) : o.event.sequence ∈ numbers taken :=
  List.mem_map_of_mem ho

/-- The next number is that of a delivered event. -/
theorem LogSound.nextEvent (hlog : LogSound p taken) {n : ℕ} (he : e ∈ delivered taken)
    (hnext : e.sequence = n + 1) :
    NextEvent p (fun e => e ∈ delivered taken ∧ e.sequence ≤ n)
      (fun e => e ∈ delivered taken ∧ e.sequence ≤ n + 1) (textOf (upTo n (delivered taken)))
      (textOf (upTo (n + 1) (delivered taken))) e := by
  refine ⟨fun e' he' => ?_, hlog.text_next he hnext, fun r hr hne => ?_, fun r hne htext => ?_⟩
  · rcases Nat.lt_or_ge n e'.sequence with hlt | hle
    · have heq : e'.sequence = e.sequence := by
        have hle := he'.2
        omega
      exact .inr (Output.deliver.inj
        (hlog.same (mem_delivered.mp he'.1) (mem_delivered.mp he) heq))
    · exact .inl ⟨he'.1, hle⟩
  · exact (hlog.placed e he r hr hne).imp_right And.right
  · obtain ⟨e', hchat⟩ : ∃ e', e' ∈ (upTo n (delivered taken)).filter (isChat r) := by
      refine List.exists_mem_of_ne_nil _ fun hnil => htext ?_
      rw [textOf, hnil]
      rfl
    obtain ⟨hmem, hchat⟩ := List.mem_filter.mp hchat
    obtain ⟨hmem, hle⟩ := List.mem_filter.mp hmem
    obtain ⟨hkind, hreply, -⟩ := isChat_iff.mp hchat
    exact ⟨e', ⟨hmem, of_decide_eq_true hle⟩, by rw [hkind]; rfl, hreply⟩

/-- The next number is that of a discarded event. -/
theorem LogSound.skip (hlog : LogSound p taken) {n : ℕ} {o : Output} (ho : o ∈ taken)
    (hdiscard : o = .discard e) (hnext : o.event.sequence = n + 1) {s : VoiceTurnService}
    (h : TurnView p (fun e => e ∈ delivered taken ∧ e.sequence ≤ n)
      (textOf (upTo n (delivered taken))) s) :
    TurnView p (fun e => e ∈ delivered taken ∧ e.sequence ≤ n + 1)
      (textOf (upTo (n + 1) (delivered taken))) s := by
  have hle : ∀ e' ∈ delivered taken, e'.sequence ≤ n + 1 → e'.sequence ≤ n := by
    intro e' he' hle
    by_contra hlt
    have heq : (Output.deliver e').event.sequence = o.event.sequence := by
      change e'.sequence = _
      omega
    have hsame := hlog.same (mem_delivered.mp he') ho heq
    rw [hdiscard] at hsame
    cases hsame
  have hupTo : upTo (n + 1) (delivered taken) = upTo n (delivered taken) :=
    List.filter_congr fun e' he' => decide_eq_decide.mpr ⟨hle e' he', fun h => Nat.le_succ_of_le h⟩
  rw [hupTo]
  exact h.next (fun e' he' => .inl ⟨he'.1, hle e' he'.1 he'.2⟩) fun _ _ _ _ _ _ _ => rfl

/-- The loop keeps the buffer sound. -/
theorem drain_sound (hlog : LogSound p taken) (hdistinct : Distinct p) (fuel : ℕ)
    (h : TurnsSound p taken arrived b) :
    TurnsSound p taken arrived ((turnReorderer callId session answers cancelled).drain fuel b).1 := by
  refine Reorderer.drain_elim (P := TurnsSound p taken arrived) (fun b e h hlookup => ?_) fuel h
  obtain ⟨o, ho, hsequence, rfl⟩ := h.pending _ e hlookup
  have hview : ((handle (answers (tombstone o).sequence) (cancelled (tombstone o).sequence) b.inner
        (tombstone o)).2 = none →
      TurnView p (fun e => e ∈ delivered taken ∧ e.sequence ≤ b.sequence + 1)
        (textOf (upTo (b.sequence + 1) (delivered taken)))
        (handle (answers (tombstone o).sequence) (cancelled (tombstone o).sequence) b.inner
          (tombstone o)).1.service) ∧
      ((handle (answers (tombstone o).sequence) (cancelled (tombstone o).sequence) b.inner
        (tombstone o)).2 ≠ none →
      TurnView p (fun e => e ∈ delivered taken ∧ e.sequence ≤ b.sequence)
        (textOf (upTo b.sequence (delivered taken)))
        (handle (answers (tombstone o).sequence) (cancelled (tombstone o).sequence) b.inner
          (tombstone o)).1.service) := by
    cases o with
    | deliver e =>
      exact handle_view hdistinct (hlog.nextEvent (mem_delivered.mpr ho) hsequence) h.view _ _
    | discard e =>
      exact ⟨fun _ => hlog.skip ho rfl hsequence (filterDraft_view _ h.view), fun hraised => absurd rfl hraised⟩
  refine ⟨fun hnone => ⟨fun i e he => ?_, fun i hi hle => ?_, fun e he => ?_, hview.1 hnone⟩,
    fun hraised => ⟨h.pending, h.passed, h.arrived, hview.2 hraised⟩⟩
  · have hi : i ≠ b.sequence + 1 := by
      rintro rfl
      rw [AList.lookup_erase] at he
      cases he
    exact h.pending i e ((AList.lookup_erase_ne hi).symm.trans he)
  · rcases Nat.lt_or_ge b.sequence i with hlt | hge
    · have heq : i = o.event.sequence := by
        have hle : i ≤ b.sequence + 1 := hle
        omega
      exact heq ▸ sequence_mem ho
    · exact h.passed i hi hge
  · change e.sequence ≤ b.sequence + 1 ∨ _
    by_cases heq : e.sequence = b.sequence + 1
    · exact .inl heq.le
    · exact (h.arrived e he).imp Nat.le_succ_of_le fun hkept => (AList.lookup_erase_ne heq).trans hkept

theorem drain_sequence_le (fuel : ℕ) :
    b.sequence ≤ ((turnReorderer callId session answers cancelled).drain fuel b).1.sequence :=
  Reorderer.drain_elim (P := fun b' => b.sequence ≤ b'.sequence)
    (fun _ _ h _ => ⟨fun _ => Nat.le_succ_of_le h, fun _ => h⟩) fuel le_rfl

/-- An output is given to the turn service, before its buffer looks at it. -/
theorem TurnsSound.given (h : TurnsSound p taken arrived b) {o : Output}
    (hnew : o.event.sequence ∉ numbers taken) (hpos : 1 ≤ o.event.sequence) :
    b.sequence < o.event.sequence ∧ o.event.sequence ∉ b.pending ∧
      TurnsSound p (taken ++ [o]) arrived b := by
  have hlt : b.sequence < o.event.sequence := by
    by_contra hle
    exact hnew (h.passed _ hpos (not_lt.mp hle))
  have hfree : o.event.sequence ∉ b.pending := by
    intro hmem
    obtain ⟨e, he⟩ := Option.isSome_iff_exists.mp (AList.lookup_isSome.mpr hmem)
    obtain ⟨o', ho', heq, -⟩ := h.pending _ e he
    exact hnew (heq ▸ sequence_mem ho')
  have hsame : upTo b.sequence (delivered (taken ++ [o])) = upTo b.sequence (delivered taken) := by
    unfold upTo
    rw [delivered_append, List.filter_append]
    have hnone : (delivered [o]).filter (fun e => e.sequence ≤ b.sequence) = [] := by
      refine List.filter_eq_nil_iff.mpr fun e he hle => ?_
      have ho := List.mem_singleton.mp (mem_delivered.mp he)
      rw [← ho] at hlt
      exact absurd hlt (not_lt.mpr (of_decide_eq_true hle))
    rw [hnone, List.append_nil]
  refine ⟨hlt, hfree, fun i e he => ?_, fun i hi hle => ?_, h.arrived, ?_⟩
  · obtain ⟨o', ho', hrest⟩ := h.pending i e he
    exact ⟨o', List.mem_append_left _ ho', hrest⟩
  · rw [numbers_append]
    exact List.mem_append_left _ (h.passed i hi hle)
  · rw [hsame]
    refine h.view.next (fun e he => .inl ⟨?_, he.2⟩) fun _ _ _ _ _ _ _ => rfl
    have he' : e ∈ upTo b.sequence (delivered taken) :=
      hsame ▸ List.mem_filter.mpr ⟨he.1, decide_eq_true he.2⟩
    exact (List.mem_filter.mp he').1

/-- `turns.consume` of an output. -/
theorem consume_sound (h : TurnsSound p taken arrived b) {o : Output}
    (hnew : o.event.sequence ∉ numbers taken) (hpos : 1 ≤ o.event.sequence)
    (harrived : ∀ e ∈ arrived, e ∈ delivered taken) (hlog : LogSound p (taken ++ [o]))
    (hdistinct : Distinct p) :
    let r := (turnReorderer callId session answers cancelled).deliver b o.event.sequence (tombstone o)
    b.sequence ≤ r.1.sequence ∧ TurnsSound p (taken ++ [o]) arrived r.1 ∧
      (r.2 = none → TurnsSound p (taken ++ [o]) (arrived ++ delivered [o]) r.1) := by
  intro r
  obtain ⟨hlt, hfree, hgiven⟩ := h.given hnew hpos
  rcases Reorderer.deliver_cases (R := turnReorderer callId session answers cancelled) (tombstone o)
    h.view.frozen hlt hfree with ⟨err, hr⟩ | hr
  · change r = (b, some err) at hr
    rw [hr]
    exact ⟨le_rfl, hgiven, nofun⟩
  · have hkept : TurnsSound p (taken ++ [o]) (arrived ++ delivered [o])
        { b with pending := b.pending.insert o.event.sequence (tombstone o) } := by
      refine ⟨fun i e he => ?_, hgiven.passed, fun e he => ?_, hgiven.view⟩
      · by_cases hi : i = o.event.sequence
        · subst hi
          exact ⟨o, List.mem_append_right _ (List.mem_singleton_self o), rfl,
            (Option.some.inj ((AList.lookup_insert _).symm.trans he)).symm⟩
        · exact hgiven.pending i e ((AList.lookup_insert_ne hi).symm.trans he)
      · rcases List.mem_append.mp he with he | he
        · refine (h.arrived e he).imp id fun hold => ?_
          have hne : e.sequence ≠ o.event.sequence := by
            intro heq
            exact hnew (heq ▸ sequence_mem (mem_delivered.mp (harrived e he)))
          exact (AList.lookup_insert_ne hne).trans hold
        · obtain rfl := List.mem_singleton.mp (mem_delivered.mp he)
          exact .inr (AList.lookup_insert _)
    have hdrained := drain_sound callId session answers cancelled hlog hdistinct
      (b.pending.keys.length + 1) hkept
    have hle := drain_sequence_le callId session answers cancelled (b := { b with
      pending := b.pending.insert o.event.sequence (tombstone o) }) (b.pending.keys.length + 1)
    rw [← hr] at hdrained hle
    exact ⟨hle, ⟨hdrained.pending, hdrained.passed,
      fun e he => hdrained.arrived e (List.mem_append_left _ he), hdrained.view⟩, fun _ => hdrained⟩

end Buffers

/-! ### The invariant -/

/-- Every number is handed over once, and the numbers begin with one. -/
theorem outputs_once {words : List Text} {session : Ident} {w : FilterRun}
    (h : RunSound words session w) :
    (numbers w.outputs).Nodup ∧ ∀ n ∈ numbers w.outputs, 1 ≤ n := by
  have hperm : List.Perm (List.range' 1 w.consumed.length)
      (numbers w.outputs ++ (held w.filter).map (·.sequence)) := by
    have hmap := h.sound.once.map (·.sequence)
    rw [h.numbered, List.append_nil, pool, List.map_append, List.map_map] at hmap
    exact hmap
  refine ⟨?_, fun n hn => ?_⟩
  · exact (List.nodup_append.mp (hperm.nodup_iff.mp List.nodup_range')).1
  · exact (List.mem_range'_1.mp (hperm.mem_iff.mpr (List.mem_append_left _ hn))).1

theorem filter_outputs {words : List Text} {session : Ident} {w w' : FilterRun} {i : FilterInput}
    (h : (backchannels words session).step w i = some w') :
    ∃ out, w'.outputs = w.outputs ++ out := by
  cases i with
  | consume e playing =>
    simp only [backchannels] at h
    split_ifs at h
    split at h
    · obtain rfl := Option.some.inj h
      exact ⟨_, rfl⟩
    · cases h
  | timeout q =>
    obtain rfl := Option.some.inj h
    exact ⟨_, rfl⟩

/-- All that a result which says the reply was played to its end is made of has been handled. -/
structure Whole (s : LinkState) (reply : Ident) (result : EffectiveText) : Prop where
  audio : ∃ e ∈ s.fed, e.replyId = some reply ∧ e.kind = .ttsFinished ∧
    e.sequence ≤ s.turns.sequence
  chats : ∀ e ∈ delivered s.taken, isChat reply e = true → e.sequence ≤ s.turns.sequence
  text : result.text = textOf (delivered s.taken) reply
  finished : ∃ R, s.playback.replies.lookup reply = some R ∧ R.textFinished = true

/-- A result that waits to be applied. -/
structure Awaits (s : LinkState) (reply : Ident) (result : EffectiveText) : Prop where
  matched : mismatched result = false
  named : reply ≠ []
  handled : ∃ e ∈ s.fed, e.replyId = some reply ∧ recorded e.kind = true ∧
    e.sequence ≤ s.turns.sequence
  whole : result.completed = true → Whole s reply result
  stops : (result.completed || result.interrupted) = true →
    ∃ R, s.playback.replies.lookup reply = some R ∧ R.stopped = true

/-- No text of a reply that has ended is on its way. -/
def InTime (p : PlaybackEvidence) (e : ProviderEvent) : Prop :=
  ∀ r R, isChat r e = true → p.replies.lookup r = some R → R.textFinished = false

structure LinkSound (words : List Text) (session : Ident) (s : LinkState) : Prop where
  run : RunSound words session s.run
  outputs : s.run.outputs = s.taken ++ s.queue
  log : delivered s.taken = s.fed ++ s.feeding.toList
  playback : PlaybackView s.playback s.fed
  placed : s.ended = false → ∀ e ∈ s.feeding, Placed s.playback e
  inTime : ∀ e ∈ s.feeding, InTime s.playback e
  turns : TurnsSound s.playback s.taken
    (if s.ended then s.fed else s.fed ++ s.feeding.toList) s.turns
  waiting : ∀ w ∈ s.waiting, Awaits s w.1 w.2

theorem begins_placed {s : LinkState} (h : begins s e = true) : Placed s.playback e := by
  intro r hr hne
  obtain rfl : e.replyId.getD [] = r := by rw [hr, Option.getD_some]
  simp only [begins, Bool.or_eq_true, List.isEmpty_iff] at h
  rcases h with hnil | h
  · exact absurd hnil hne
  · split at h
    · next R hR => exact .inl ⟨R, hR, (of_decide_eq_true h).symm⟩
    · next hnone =>
      rw [Bool.and_eq_true, List.all_eq_true] at h
      refine .inr ⟨hnone, fun r' R hR => ?_⟩
      exact of_decide_eq_true (h.2 ⟨r', R⟩ (AList.mem_lookup_iff.mp hR))

theorem inTime_of {s : LinkState} (h : inTime s e = true) : InTime s.playback e := by
  intro r R hchat hR
  obtain ⟨hkind, hr, -⟩ := isChat_iff.mp hchat
  obtain rfl : e.replyId.getD [] = r := by rw [hr, Option.getD_some]
  simpa [inTime, hkind, hR] using h

/-! ### Steps -/

section Steps

variable {words : List Text} {callId session : Ident} {answers : ℕ → EventAnswers}
  {cancelled : ℕ → Bool} {s s' : LinkState}

/-- A result waits on while more is fed and handled, and its reply stays finished. -/
theorem Awaits.later {reply : Ident} {result : EffectiveText} (h : Awaits s reply result)
    (hfed : ∀ e ∈ s.fed, e ∈ s'.fed) (hsequence : s.turns.sequence ≤ s'.turns.sequence)
    (hextends : Extends s.playback s'.playback)
    (htaken : ∃ more, delivered s'.taken = delivered s.taken ++ more ∧
      ∀ e ∈ more, InTime s.playback e) : Awaits s' reply result := by
  obtain ⟨e, he, hr, hrecorded, hle⟩ := h.handled
  refine ⟨h.matched, h.named, ⟨e, hfed e he, hr, hrecorded, hle.trans hsequence⟩, fun hc => ?_,
    fun hends => ?_⟩
  swap
  · obtain ⟨R, hR, hstopped⟩ := h.stops hends
    obtain ⟨R', hR', hlater⟩ := hextends reply R hR
    exact ⟨R', hR', hlater.stopped hstopped⟩
  obtain ⟨⟨e', he', hr', hkind, hle'⟩, hchats, htext, R, hR, hfinished⟩ := h.whole hc
  obtain ⟨more, htaken, hmore⟩ := htaken
  have hnone : ∀ e ∈ more, ¬ isChat reply e = true := by
    intro e he hchat
    rw [hmore e he reply R hchat hR] at hfinished
    cases hfinished
  obtain ⟨R', hR', hlater⟩ := hextends reply R hR
  refine ⟨⟨e', hfed e' he', hr', hkind, hle'.trans hsequence⟩, fun e he hchat => ?_, ?_,
    R', hR', hlater.finished hfinished⟩
  · rw [htaken] at he
    rcases List.mem_append.mp he with he | he
    · exact (hchats e he hchat).trans hsequence
    · exact absurd hchat (hnone e he)
  · rw [htext, htaken]
    unfold textOf
    rw [List.filter_append, List.filter_eq_nil_iff.mpr hnone, List.append_nil]

theorem filter_sound {i : FilterInput} (h : LinkSound words session s)
    (hstep : s.filter words session i = some s') : LinkSound words session s' := by
  unfold LinkState.filter at hstep
  split_ifs at hstep with hidle
  obtain ⟨run, hrun, rfl⟩ := Option.map_eq_some_iff.mp hstep
  obtain ⟨out, hout⟩ := filter_outputs hrun
  simp only [Bool.or_eq_true, Bool.not_eq_true', List.isEmpty_eq_false_iff, not_or,
    not_not] at hidle
  have hqueue : s.queue = [] := hidle.2
  refine ⟨step_runSound h.run hrun, ?_, h.log, h.playback, h.placed, h.inTime, h.turns,
    fun w hw => ?_⟩
  · change run.outputs = s.taken ++ run.outputs.drop s.run.outputs.length
    rw [hout, List.drop_left, h.outputs, hqueue, List.append_nil]
  · exact (h.waiting w hw).later (fun _ => id) le_rfl (.of_eq rfl) ⟨[], by simp, by simp⟩

/-- What is known of the outputs once another one is given. -/
theorem LinkSound.logSound (h : LinkSound words session s) {o : Output} {rest : List Output}
    (hqueue : s.queue = o :: rest) (hfeeding : s.feeding = none)
    (hplaced : ∀ e, o = .deliver e → Placed s.playback e) :
    LogSound s.playback (s.taken ++ [o]) := by
  have hsplit : s.run.outputs = (s.taken ++ [o]) ++ rest := by
    rw [h.outputs, hqueue, List.append_assoc]
    rfl
  have hleading : (s.taken ++ [o]).Sublist s.run.outputs := hsplit ▸ List.sublist_append_left _ _
  have hcases : ∀ e ∈ delivered (s.taken ++ [o]), e ∈ s.fed ∨ o = .deliver e := by
    intro e he
    rcases List.mem_append.mp (mem_delivered.mp he) with he | he
    · have hlog := h.log
      rw [hfeeding, Option.toList_none, List.append_nil] at hlog
      exact .inl (hlog ▸ mem_delivered.mpr he)
    · exact .inr (List.mem_singleton.mp he).symm
  have hfed : ∀ e ∈ s.fed, Placed s.playback e := fun e he r hr hne =>
    .inl (h.playback.placed e he r hr hne)
  have hall : ∀ e ∈ delivered (s.taken ++ [o]), Placed s.playback e := fun e he =>
    (hcases e he).elim (hfed e) (hplaced e)
  have hcross : ∀ e ∈ s.fed, ∀ e', o = .deliver e' → ∀ r, e.replyId = some r → r ≠ [] →
      e'.replyId = some r → e.questionId = e'.questionId := by
    intro e he e' ho r hr hne hr'
    obtain ⟨R, hR, hq⟩ := h.playback.placed e he r hr hne
    rcases hplaced e' ho r hr' hne with ⟨R', hR', hq'⟩ | ⟨hnone, -⟩
    · obtain rfl := Option.some.inj (hR.symm.trans hR')
      exact hq.trans hq'.symm
    · rw [hR] at hnone
      cases hnone
  refine ⟨(outputs_once h.run).1.sublist (hleading.map _), fun question output => ?_, hall,
    fun e he e' he' r hr hne hr' => ?_⟩
  · exact (h.run.sound.ordered question output).sublist ((hleading.filterMap _).filter _)
  · rcases hcases e he with hf | ho <;> rcases hcases e' he' with hf' | ho'
    · obtain ⟨R, hR, hq⟩ := h.playback.placed e hf r hr hne
      obtain ⟨R', hR', hq'⟩ := h.playback.placed e' hf' r hr' hne
      obtain rfl := Option.some.inj (hR.symm.trans hR')
      exact hq.trans hq'.symm
    · exact hcross e hf e' ho' r hr hne hr'
    · exact (hcross e' hf' e ho r hr' hne hr).symm
    · exact congrArg _ (Output.deliver.inj (ho.symm.trans ho'))

theorem record_sound (h : LinkSound words session s) (hmet : met s .record = true)
    (hstep : s.record (turnReorderer callId session answers cancelled) = some s') :
    LinkSound words session s' := by
  unfold LinkState.record at hstep
  split_ifs at hstep with hidle
  simp only [Bool.or_eq_true, not_or, Bool.not_eq_true, Option.isSome_eq_false_iff,
    Option.isNone_iff_eq_none] at hidle
  obtain ⟨hended, hfeeding⟩ := hidle
  split at hstep
  · cases hstep
  next o rest hqueue =>
  obtain rfl := Option.some.inj hstep
  have hlog : delivered s.taken = s.fed := by
    rw [h.log, hfeeding, Option.toList_none, List.append_nil]
  have hsplit : s.run.outputs = (s.taken ++ [o]) ++ rest := by
    rw [h.outputs, hqueue, List.append_assoc]
    rfl
  have hguard : ∀ e, o = .deliver e → Placed s.playback e ∧ InTime s.playback e := by
    rintro e rfl
    simp only [met, hqueue, Bool.and_eq_true] at hmet
    exact ⟨begins_placed hmet.1, inTime_of hmet.2⟩
  obtain ⟨honce, hpos⟩ := outputs_once h.run
  rw [hsplit, numbers, List.map_append, List.map_append] at honce hpos
  have hnew : o.event.sequence ∉ numbers s.taken := by
    intro hmem
    have hdisjoint := (List.nodup_append.mp (List.nodup_append.mp honce).1).2.2
    exact hdisjoint _ hmem _ (List.mem_singleton_self _) rfl
  have hfeeds : ∀ {e}, e ∈ toFeed o → o = .deliver e := fun he => mem_toFeed.mp he
  have hturns := h.turns
  rw [hended, hfeeding, Option.toList_none, List.append_nil, if_neg Bool.false_ne_true] at hturns
  obtain ⟨hle, hraised, hquiet⟩ := consume_sound callId session answers cancelled hturns hnew
    (hpos _ (by simp)) (fun e he => hlog ▸ he)
    (h.logSound hqueue hfeeding fun e ho => (hguard e ho).1) h.playback.distinct
  refine ⟨h.run, hsplit, ?_, h.playback, fun _ e he => (hguard e (hfeeds he)).1,
    fun e he => (hguard e (hfeeds he)).2, ?_, fun w hw => ?_⟩
  · rw [delivered_append, hlog, delivered_singleton]
  · dsimp only
    split_ifs with hr
    · exact hraised
    · rw [← delivered_singleton]
      exact hquiet (Option.not_isSome_iff_eq_none.mp hr)
  · refine (h.waiting w hw).later (fun _ => id) hle (.of_eq rfl)
      ⟨delivered [o], delivered_append _ _, fun e he => (hguard e ?_).2⟩
    exact (List.mem_singleton.mp (mem_delivered.mp he)).symm

/-- The turn service's side, when the playback evidence goes on. -/
theorem TurnsSound.extend {p p' : PlaybackEvidence} {taken : List Output}
    {arrived arrived' : List ProviderEvent} {b : Buffer TurnState ProviderEvent}
    (h : TurnsSound p taken arrived b) (hextends : Extends p p')
    (harrived : ∀ e ∈ arrived', e ∈ arrived) : TurnsSound p' taken arrived' b :=
  ⟨h.pending, h.passed, fun e he => h.arrived e (harrived e he), extend_view h.view hextends⟩

theorem feed_sound {sid : Ident} (h : LinkSound words session s) (hstep : s.feed sid = some s') :
    LinkSound words session s' := by
  unfold LinkState.feed at hstep
  split_ifs at hstep with hended
  have hended : s.ended = false := by simpa using hended
  obtain ⟨e, hfeeding, rfl⟩ := Option.map_eq_some_iff.mp hstep
  have hlog := h.log
  have hturns := h.turns
  rw [hfeeding, Option.toList_some] at hlog hturns
  rw [hended, if_neg Bool.false_ne_true] at hturns
  obtain ⟨hextends, herror, hok⟩ := feed_view h.playback (h.placed hended e hfeeding) sid
  cases hr : (s.playback.feed e true sid).2 with
  | ok boundary =>
    simp only [hr]
    refine ⟨h.run, h.outputs, ?_, hok boundary hr, by simp, by simp, ?_, fun w hw => ?_⟩
    · rw [hlog]
      simp
    · refine hturns.extend hextends fun e' he' => ?_
      simpa [hended] using he'
    · exact (h.waiting w hw).later (fun e' he' => List.mem_append_left _ he') le_rfl hextends
        ⟨[], by simp, by simp⟩
  | error err =>
    obtain ⟨hview, hunfinished⟩ := herror err hr
    simp only [hr]
    refine ⟨h.run, h.outputs, ?_, hview, by simp, fun e' he' r R hchat hR => ?_, ?_, fun w hw => ?_⟩
    · simpa [hfeeding] using hlog
    · rcases hunfinished r R hR with hold | hnot
      · exact h.inTime e' he' r R hchat hold
      · exact hnot
    · exact hturns.extend hextends fun e' he' => List.mem_append_left _ he'
    · exact (h.waiting w hw).later (fun _ => id) le_rfl hextends ⟨[], by simp, by simp⟩

/-- The turn service has caught up with the reply of a frame. -/
theorem caughtUp_spec {f : CheckedFrame} (h : caughtUp s f = true) :
    (∃ e ∈ s.fed, e.replyId = some f.reply ∧ recorded e.kind = true ∧
      e.sequence ≤ s.turns.sequence) ∧
      (f.kind = .replyPlaybackCompleted → ∀ i e, s.turns.pending.lookup i = some e →
        e.replyId = some f.reply → e.kind ≠ .ttsFinished ∧ e.kind ≠ .chatText) := by
  simp only [caughtUp, ofReply, Bool.and_eq_true, Bool.or_eq_true, List.any_eq_true,
    List.all_eq_true, decide_eq_true_eq] at h
  obtain ⟨⟨e, he, ⟨hreply, hrecorded⟩, hle⟩, hpending⟩ := h
  refine ⟨⟨e, he, hreply, hrecorded, hle⟩, fun hkind i e' he' hreply' => ?_⟩
  have hnot := hpending.resolve_left (not_not_intro hkind) ⟨i, e'⟩ (AList.mem_lookup_iff.mp he')
  simpa [hreply'] using hnot

/-- A result that says the reply was played to its end is made of what has been handled. -/
theorem LinkSound.whole (h : LinkSound words session s) {f : CheckedFrame} {R R' : Reply}
    {c : PlaybackCapabilities} (hcaught : caughtUp s f = true)
    (hR : s.playback.replies.lookup f.reply = some R) (hopen : R.stopped = false)
    (hreported : Reported f R R') (hcompleted : R'.completed = true) :
    (∃ e ∈ s.fed, e.replyId = some f.reply ∧ e.kind = .ttsFinished ∧
      e.sequence ≤ s.turns.sequence) ∧
      (∀ e ∈ delivered s.taken, isChat f.reply e = true → e.sequence ≤ s.turns.sequence) ∧
      (R'.snapshot c).text = textOf (delivered s.taken) f.reply ∧ R.textFinished = true := by
  obtain ⟨-, hpending⟩ := caughtUp_spec hcaught
  simp only [Reply.stopped, Bool.or_eq_false_iff] at hopen
  obtain hold | ⟨hkind, haudio, hfinished⟩ := hreported.completed hcompleted
  · rw [hopen.2] at hold
    cases hold
  have hhandled : ∀ e ∈ s.fed, e.replyId = some f.reply →
      (e.kind = .ttsFinished ∨ e.kind = .chatText) → e.sequence ≤ s.turns.sequence := by
    intro e he hreply hk
    have harrived : e ∈ if s.ended then s.fed else s.fed ++ s.feeding.toList := by
      split_ifs
      · exact he
      · exact List.mem_append_left _ he
    rcases h.turns.arrived e harrived with hle | hkept
    · exact hle
    · obtain ⟨hnot, hnot'⟩ := hpending hkind _ e hkept hreply
      exact (hk.elim hnot hnot').elim
  have hflight : ∀ e ∈ s.feeding.toList, ¬ isChat f.reply e = true := by
    intro e he hchat
    rw [h.inTime e (Option.mem_toList.mp he) f.reply R hchat hR] at hfinished
    cases hfinished
  refine ⟨?_, fun e he hchat => ?_, ?_, hfinished⟩
  · obtain ⟨e, he, hreply, hk⟩ := h.playback.audio f.reply R hR haudio
    exact ⟨e, he, hreply, hk, hhandled e he hreply (.inl hk)⟩
  · obtain ⟨hk, hreply, -⟩ := isChat_iff.mp hchat
    rw [h.log] at he
    rcases List.mem_append.mp he with he | he
    · exact hhandled e he hreply (.inr hk)
    · exact absurd hchat (hflight e he)
  · rw [(snapshot_matches R' c).2.2.1 hcompleted, hreported.text,
      h.playback.texts f.reply R hR (by simp [Reply.stopped, hopen]), h.log]
    unfold textOf
    rw [List.filter_append, List.filter_eq_nil_iff.mpr hflight, List.append_nil]

theorem client_sound {f : ClientFrame} {c : PlaybackCapabilities} (h : LinkSound words session s)
    (hmet : met s (.client f c) = true) (hstep : s.client f c = some s') :
    LinkSound words session s' := by
  unfold LinkState.client at hstep
  split_ifs at hstep
  obtain rfl := Option.some.inj hstep
  rcases client_cases s.playback f c with ⟨hsame, hnone⟩ |
    ⟨frame, R, R', hchecked, hR, hopen, hreported, hput, hresult⟩
  · have hextends : Extends s.playback (s.playback.client f c).1 := .of_eq hsame
    refine ⟨h.run, h.outputs, h.log, h.playback.of_eq hsame, fun hended e he r hr hne => ?_,
      fun e he r R hchat hR => ?_, h.turns.extend hextends fun _ => id, fun w hw => ?_⟩
    · dsimp only
      rw [hsame]
      exact h.placed hended e he r hr hne
    · dsimp only at hR
      rw [hsame] at hR
      exact h.inTime e he r R hchat hR
    · dsimp only at hw
      rw [hnone] at hw
      cases hw
  · have hextends : Extends s.playback (s.playback.client f c).1 := extends_put hR hput
      ⟨hreported.question, fun hf => hreported.finished.trans hf, hreported.stays⟩
    have hcaught : caughtUp s frame = true := by simpa [met, hchecked] using hmet
    have hview := h.playback.put [] hR hput hreported.question (by simp) (fun hopen' => by
        rw [hreported.text, List.append_nil]
        exact h.playback.texts _ R hR hopen)
      fun hfinished => .inl (hreported.audio.symm.trans hfinished)
    rw [List.append_nil] at hview
    refine ⟨h.run, h.outputs, h.log, hview, fun hended e he =>
      (h.placed hended e he).put hR hput hreported.question, fun e he r R₁ hchat hR₁ => ?_,
      h.turns.extend hextends fun _ => id, fun w hw => ?_⟩
    · dsimp only at hR₁
      rw [hput] at hR₁
      by_cases hr : r = frame.reply
      · subst hr
        obtain rfl := Option.some.inj ((AList.lookup_insert _).symm.trans hR₁)
        exact hreported.finished.trans (h.inTime e he _ R hchat hR)
      · exact h.inTime e he r R₁ hchat ((AList.lookup_insert_ne hr).symm.trans hR₁)
    · dsimp only at hw
      rw [hresult] at hw
      obtain rfl := Option.some.inj hw
      obtain ⟨hmatched, hends, -, hstops⟩ := snapshot_matches R' c
      have hafter : (s.playback.client f c).1.replies.lookup frame.reply = some R' := by
        rw [hput]
        exact AList.lookup_insert _
      refine ⟨hmatched, h.playback.named _ R hR, (caughtUp_spec hcaught).1, fun hc => ?_,
        fun hs => ⟨R', hafter, hstops hs⟩⟩
      obtain ⟨haudio, hchats, htext, hfinished⟩ :=
        h.whole (c := c) hcaught hR hopen hreported (hends.symm.trans hc)
      exact ⟨haudio, hchats, htext, R', hafter, hreported.finished.trans hfinished⟩

/-- The draft of a reply of which an event has been handled. -/
theorem LinkSound.draft (h : LinkSound words session s) {reply : Ident} (hne : reply ≠ [])
    (he : e ∈ s.fed) (hreply : e.replyId = some reply) (hrecorded : recorded e.kind = true)
    (hle : e.sequence ≤ s.turns.sequence) :
    ∃ q d, e.questionId = some q ∧ s.turns.inner.service.draft q = some d ∧
      d.replyId = some reply ∧ (d.closed = true ∨ (e.kind = .ttsFinished → d.ttsFinished = true)) := by
  have hlog : e ∈ delivered s.taken := by
    rw [h.log]
    exact List.mem_append_left _ he
  exact h.turns.view.known e ⟨hlog, hle⟩ hrecorded reply hreply hne

theorem apply_sound {a : ApplyAnswers} {gone : Bool} (h : LinkSound words session s)
    (hstep : s.apply a gone = some s') : LinkSound words session s' := by
  obtain ⟨⟨reply, result⟩, hw, rfl⟩ := Option.map_eq_some_iff.mp hstep
  have hawaits := h.waiting (reply, result) hw
  obtain ⟨e, he, hreply, hrecorded, hle⟩ := hawaits.handled
  obtain ⟨q, d, heq, hd, hdr, -⟩ := h.draft hawaits.named he hreply hrecorded hle
  have hshown : ∀ q', s.turns.inner.service.question reply = some q' →
      ∃ R, s.playback.replies.lookup reply = some R ∧ R.questionId = q' := by
    intro q' hq'
    obtain ⟨R, hR, hq⟩ := h.playback.placed e he reply hreply hawaits.named
    have hsame := (h.turns.view.table reply q).mpr ⟨d, hd, hdr⟩
    obtain rfl := Option.some.inj (hsame.symm.trans hq')
    exact ⟨R, hR, (Option.some.inj (heq.symm.trans hq)).symm⟩
  have hview := applyEffective_view h.turns.view hshown result a gone
  have hturns : TurnsSound s.playback s.taken
      (if s.ended then s.fed else s.fed ++ s.feeding.toList)
      { s.turns with inner := (applyEffective s.turns.inner reply result a gone).1 } :=
    ⟨h.turns.pending, h.turns.passed, h.turns.arrived, hview⟩
  dsimp only
  split_ifs with hends
  · rw [Bool.and_eq_true] at hends
    obtain ⟨R, hR, hstopped⟩ := hawaits.stops hends.2
    obtain ⟨hplayback, hextends⟩ := release_view h.playback hR hstopped
    have hput : (s.playback.releaseText reply).replies = s.playback.replies.insert reply { R with
        text := [], sentences := R.sentences.map fun s => (s.1, { s.2 with text := [] }) } := by
      simp [PlaybackEvidence.releaseText, hR, PlaybackEvidence.putReply]
    refine ⟨h.run, h.outputs, h.log, hplayback, fun hended e he =>
      (h.placed hended e he).put hR hput rfl, fun e he r R₁ hchat hR₁ => ?_,
      hturns.extend hextends fun _ => id, by simp⟩
    dsimp only at hR₁
    rw [hput] at hR₁
    by_cases hr : r = reply
    · subst hr
      obtain rfl := Option.some.inj ((AList.lookup_insert _).symm.trans hR₁)
      exact h.inTime e he _ R hchat hR
    · exact h.inTime e he r R₁ hchat ((AList.lookup_insert_ne hr).symm.trans hR₁)
  · exact ⟨h.run, h.outputs, h.log, h.playback, h.placed, h.inTime, hturns, by simp⟩

end Steps

/-! ### Runs -/

theorem start_sound {words : List Text} {callId session : Ident} {answers : ℕ → EventAnswers}
    {cancelled : ℕ → Bool} {s : LinkState}
    (h : (links words callId session answers cancelled).start s) : LinkSound words session s := by
  obtain ⟨hasJobs, db, rfl⟩ := h
  have hempty : PlaybackView (.new callId) [] := by
    constructor <;> simp [PlaybackEvidence.new, Distinct]
  refine ⟨⟨filterSound_new words, rfl, rfl, rfl, rfl⟩, rfl, rfl, hempty, by simp, by simp, ?_,
    by simp⟩
  refine ⟨by simp [Buffer.init], fun i hi hle => ?_, by simp, ?_⟩
  · change i ≤ 0 at hle
    omega
  · constructor <;> simp [Buffer.init, delivered, VoiceTurnService.new, VoiceTurnService.draft,
      VoiceTurnService.question]

/-- What has been handled of the reply of a result that waits is enough for it. -/
theorem LinkSound.accepts {words : List Text} {session : Ident} {s : LinkState}
    (h : LinkSound words session s) {reply : Ident} {result : EffectiveText}
    (hw : s.waiting = some (reply, result)) (a : ApplyAnswers) (gone : Bool) {err : TurnError}
    (herr : (applyEffective s.turns.inner reply result a gone).2 = .error err) :
    gone = true ∧ err = .cancelled := by
  have hawaits := h.waiting _ hw
  obtain ⟨e, he, hreply, hrecorded, hle⟩ := hawaits.handled
  obtain ⟨q, d, -, hd, hdr, -⟩ := h.draft hawaits.named he hreply hrecorded hle
  refine applyEffective_accepts h.turns.view hd hdr hawaits.matched (fun hc => ?_) (fun hfull => ?_)
    a gone herr
  · obtain ⟨⟨e', he', hreply', hkind, hle'⟩, -⟩ := hawaits.whole hc
    obtain ⟨q', d', -, hd', hdr', hdone⟩ :=
      h.draft hawaits.named he' hreply' (by rw [hkind]; rfl) hle'
    have hq := ((h.turns.view.table reply q).mpr ⟨d, hd, hdr⟩).symm.trans
      ((h.turns.view.table reply q').mpr ⟨d', hd', hdr'⟩)
    obtain rfl := Option.some.inj hq
    obtain rfl := Option.some.inj (hd.symm.trans hd')
    exact hdone.imp_right fun hfinished => hfinished hkind
  · have hc : result.completed = true := by
      have hmatched : mismatched result = false := hawaits.matched
      have hfull : result.evidence = .full := hfull
      simpa [mismatched, hfull] using hmatched
    obtain ⟨-, hchats, htext, -⟩ := hawaits.whole hc
    have hall : upTo s.turns.sequence ((delivered s.taken).filter (isChat reply)) =
        (delivered s.taken).filter (isChat reply) := by
      refine List.filter_eq_self.mpr fun e' he' => ?_
      obtain ⟨hlog, hchat⟩ := List.mem_filter.mp he'
      exact decide_eq_true (hchats e' hlog hchat)
    rw [htext, textOf_upTo, hall]
    rfl

/-- Whenever the playback evidence returns a result in a run that meets the condition, the turn
service accepts it, whatever has happened until it is applied. -/
theorem results_accepted (words : List Text) (callId session : Ident) (answers : ℕ → EventAnswers)
    (cancelled : ℕ → Bool) {s : LinkState}
    (hs : (links words callId session answers cancelled).ReachableUnder
      (fun s i => met s i = true) s) :
    ∀ reply result, s.waiting = some (reply, result) → ∀ a gone err,
      (applyEffective s.turns.inner reply result a gone).2 = .error err →
        gone = true ∧ err = .cancelled := by
  have h : LinkSound words session s := by
    refine Machine.reachableUnder_invariant (fun _ => start_sound) (fun s i s' h hok hstep => ?_) hs
    cases i with
    | filter i => exact filter_sound h hstep
    | record => exact record_sound h hok hstep
    | feed sid => exact feed_sound h hstep
    | client f c => exact client_sound h hok hstep
    | apply a gone => exact apply_sound h hstep
  exact fun reply result hw a gone err => h.accepts hw a gone

def linkEvent (kind : EventKind) (sequence : ℕ) (question : Ident) (reply : Option Ident)
    (payload : Payload) (playing : Option Ident) : LinkInput :=
  .filter (.consume ⟨kind, ['c'], ['s'], sequence, some question, reply, payload, none⟩ playing)

def linkFrame (kind : ClientKind) (sequence : ℕ) (played : Option FrameValue) : LinkInput :=
  .client ⟨some kind, some (.str ['c']), some (.str ['a']), some (.int sequence), played, none, false⟩
    ⟨true, true⟩

def passedGate : GateAnswers := ⟨some ⟨.passed, .passed⟩, true, true, true⟩

def applied : LinkInput := .apply ⟨passedGate, .free, ⟨true, false⟩⟩ false

/-- A reply is heard from its beginning; the user starts to speak, and the text of the next reply is
held; then the first reply ends. -/
def heldReply : List LinkInput :=
  [linkEvent .chatText 1 ['p'] (some ['a']) (.text ['h', 'i']) none, .record, .feed [],
    linkEvent .ttsAudio 2 ['p'] (some ['a']) (.audio 96) none, .record, .feed [],
    linkFrame .playbackProgress 1 (some (.int 1)), applied,
    linkEvent .userSpeechStarted 3 ['q'] none .absent (some ['p']), .record, .feed [],
    linkEvent .chatText 4 ['q'] (some ['b']) (.text ['y']) (some ['p']),
    linkEvent .textFinished 5 ['p'] (some ['a']) .absent (some ['p']), .record, .feed [],
    linkEvent .ttsFinished 6 ['p'] (some ['a']) .absent (some ['p']), .record, .feed []]

def connectedLink : LinkState :=
  ⟨⟨.new [['嗯']], [], []⟩, [], [], none, false,
    .init ⟨.new ['c'] ['s'] false, ⟨some ⟨.connected, false⟩, [], []⟩⟩, .new ['c'], [], none⟩

def connectedLinks : Machine LinkState LinkInput :=
  links [['嗯']] ['c'] ['s'] (fun _ => ⟨passedGate, ⟨true, false⟩⟩) fun _ => false

/-- The held text is released by its timer before the client reports the end of the first reply. -/
theorem results_accepted_released :
    let s := connectedLinks.after connectedLink (heldReply ++
      [.filter (.timeout ['q']), .record, .feed [], linkFrame .replyPlaybackCompleted 2 none])
    (s.waiting.map fun w => (w.1, w.2.text, w.2.completed)) = some (['a'], ['h', 'i'], true) ∧
      ∀ reply result, s.waiting = some (reply, result) → ∀ a gone err,
        (applyEffective s.turns.inner reply result a gone).2 = .error err →
          gone = true ∧ err = .cancelled :=
  ⟨by decide, results_accepted [['嗯']] ['c'] ['s'] _ _
    (Machine.reachableUnder_after ⟨false, _, rfl⟩ (by decide) (by decide))⟩

/-- The client reports the end of the first reply while the text of the next one is held: the end of
the audio waits in the turn service for the number of that text. -/
theorem finished_reply_refused :
    let s := connectedLinks.after connectedLink
      (heldReply ++ [linkFrame .replyPlaybackCompleted 2 none])
    connectedLinks.Reachable s ∧ s.turns.sequence = 3 ∧ s.turns.pending.keys = [6, 5] ∧
      ∃ result, s.waiting = some (['a'], result) ∧ ∀ a gone,
        (applyEffective s.turns.inner ['a'] result a gone).2 = .error .replyAudioUnfinished := by
  refine ⟨Machine.reachable_after ⟨false, _, rfl⟩ (by decide), by decide,
    by decide, ⟨['h', 'i'], .full, some 2, true, false⟩, by decide, fun a gone => ?_⟩
  rfl

end CompanionBackend.EvidenceAgreement
