import CompanionBackend.ReconnectService

/-!
# One client for a reconnect

A ticket id lives from its issue until it is attached, cancelled or superseded. While
it lives a socket is needed, and none is there; so an attach hands the call to one
client, and the next one has to wait until that client is lost.
-/
namespace CompanionBackend.ReconnectSafety

open ProviderEvents ReconnectService Runs

variable {o : Owner} {digest : Text → Text}

/-! ### What the operations require -/

theorem available_iff {s : ReconnectCoordinator} {stopped : Bool} {mono : ℚ} :
    s.available stopped mono = true ↔ stopped = false ∧ s.active = true ∧ s.needSocket = true ∧
      ∃ d, s.deadline = some d ∧ mono < d := by
  simp [ReconnectCoordinator.available, Option.any_eq_true, and_assoc]

theorem issue_ok {s s' : ReconnectCoordinator} {stopped : Bool} {mono wall : ℚ} {userId : ℕ}
    {device : Option Text} {jti : Ident} {ticket : Ticket}
    (h : s.issue o digest stopped mono wall userId device jti = .ok (s', ticket)) :
    s.available stopped mono = true ∧ s' = { s with jti := some jti } ∧ ticket.jti = jti := by
  obtain ⟨u, havailable, h⟩ := bind_eq_ok.mp h
  obtain ⟨device', -, h⟩ := bind_eq_ok.mp h
  obtain ⟨same, -, h⟩ := bind_eq_ok.mp h
  obtain ⟨u', -, h⟩ := bind_eq_ok.mp h
  obtain ⟨rfl, rfl⟩ := Prod.mk.injEq .. ▸ pure_eq_ok.mp h
  exact ⟨(require_eq_ok.mp havailable).1, rfl, rfl⟩

theorem verify_ok {signed : List Ticket} {ticket : Option Ticket} {callId : Ident}
    {device : Option Text} {wall : ℚ} {t : Ticket} {d : Text}
    (h : verify digest signed ticket callId device wall = .ok (t, d)) :
    ticket = some t ∧ t ∈ signed ∧ t.purpose = .voiceReconnect ∧ t.callId = callId := by
  obtain ⟨t', hticket, h⟩ := bind_eq_ok.mp h
  obtain ⟨d', -, h⟩ := bind_eq_ok.mp h
  obtain ⟨u, hverified, h⟩ := bind_eq_ok.mp h
  obtain ⟨rfl, rfl⟩ := Prod.mk.injEq .. ▸ pure_eq_ok.mp h
  obtain ⟨hsigned, hpurpose, hcall, -⟩ := require_eq_ok.mp hverified
  exact ⟨orRaise_eq_ok.mp hticket, hsigned, hpurpose, hcall⟩

theorem attach_ok {s s' : ReconnectCoordinator} {signed : List Ticket} {stopped : Bool}
    {mono wall : ℚ} {socket : Socket} {ticket : Option Ticket} {device : Option Text} {t : Ticket}
    (h : s.attach o digest signed stopped mono wall socket ticket device = .ok (s', t)) :
    ticket = some t ∧ t ∈ signed ∧ s.available stopped mono = true ∧ s.jti = some t.jti ∧
      s' = { s with jti := none, socket := some socket, needSocket := false, ready := true } := by
  obtain ⟨⟨t', d⟩, hverified, h⟩ := bind_eq_ok.mp h
  obtain ⟨u, hconsumable, h⟩ := bind_eq_ok.mp h
  obtain ⟨same, -, h⟩ := bind_eq_ok.mp h
  obtain ⟨u', -, h⟩ := bind_eq_ok.mp h
  obtain ⟨rfl, rfl⟩ := Prod.mk.injEq .. ▸ pure_eq_ok.mp h
  obtain ⟨hticket, hsigned, -⟩ := verify_ok hverified
  obtain ⟨havailable, hjti, -⟩ := require_eq_ok.mp hconsumable
  exact ⟨hticket, hsigned, havailable, hjti, rfl⟩

/-! ### The coordinator of a run -/

/-- A socket is needed only while there is none, and the id that can be attached is the last one
issued, in this reconnect, and has not been attached. -/
structure CoordinatorSound (w : ReconnectRun) : Prop where
  socket : w.coordinator.needSocket = true → w.coordinator.socket = none
  beginning : w.coordinator.lock = some .beginning →
    w.coordinator.socket = none ∧ w.coordinator.jti = none
  needed : w.coordinator.jti.isSome = true → w.coordinator.needSocket = true
  latest : ∀ j, w.coordinator.jti = some j →
    w.issued.getLast? = some (j, w.coordinator.deadline) ∧ j ∉ w.attached.map (·.1)
  issued : ∀ p ∈ w.attached, p.1 ∈ w.issued.map (·.1)
  once : (w.attached.map (·.1)).Nodup
  awake : w.coordinator.ready = true → ∀ p ∈ w.tasks, p ≠ .waiting false

/-- What a step of a task, or of the clocks, leaves alone. -/
structure SameTickets (w w' : ReconnectRun) : Prop where
  ready : w'.coordinator.ready = w.coordinator.ready
  needSocket : w'.coordinator.needSocket = w.coordinator.needSocket
  socket : w'.coordinator.socket = w.coordinator.socket
  deadline : w'.coordinator.deadline = w.coordinator.deadline
  jti : w'.coordinator.jti = w.coordinator.jti
  issued : w'.issued = w.issued
  attached : w'.attached = w.attached

theorem CoordinatorSound.same {w w' : ReconnectRun} (h : CoordinatorSound w) (hsame : SameTickets w w')
    (hlock : w'.coordinator.lock = some .beginning → w.coordinator.lock = some .beginning)
    (hawake : w.coordinator.ready = true → ∀ p ∈ w'.tasks, p ≠ .waiting false) :
    CoordinatorSound w' := by
  refine ⟨?_, fun hb => ?_, ?_, ?_, ?_, ?_, ?_⟩
  · rw [hsame.needSocket, hsame.socket]
    exact h.socket
  · rw [hsame.socket, hsame.jti]
    exact h.beginning (hlock hb)
  · rw [hsame.needSocket, hsame.jti]
    exact h.needed
  · rw [hsame.jti, hsame.deadline, hsame.issued, hsame.attached]
    exact h.latest
  · rw [hsame.issued, hsame.attached]
    exact h.issued
  · rw [hsame.attached]
    exact h.once
  · rw [hsame.ready]
    exact hawake

theorem awake_set {tasks : List Phase} {k : ℕ} {p : Phase} (h : ∀ q ∈ tasks, q ≠ .waiting false)
    (hp : p ≠ .waiting false) : ∀ q ∈ tasks.set k p, q ≠ .waiting false := by
  intro q hq
  rcases List.mem_or_eq_of_mem_set hq with hq | rfl
  · exact h q hq
  · exact hp

theorem awake_wake (tasks : List Phase) : ∀ p ∈ tasks.map Phase.wake, p ≠ .waiting false := by
  intro p hp
  obtain ⟨q, -, rfl⟩ := List.mem_map.mp hp
  cases q <;> simp [Phase.wake]

theorem sameTickets_leave {w : ReconnectRun} {k : ℕ} {b : Bool} {p : Phase} :
    SameTickets w (w.leave k { w.coordinator with active := b } p) :=
  ⟨rfl, rfl, rfl, rfl, rfl, rfl, rfl⟩

theorem leave_sound {w : ReconnectRun} {k : ℕ} {b : Bool} {p : Phase} (h : CoordinatorSound w)
    (hp : p ≠ .waiting false) :
    CoordinatorSound (w.leave k { w.coordinator with active := b } p) := by
  refine h.same sameTickets_leave (fun hlock => ?_) fun hready => awake_set (h.awake hready) hp
  simp only [ReconnectRun.leave, ReconnectCoordinator.release] at hlock
  split_ifs at hlock
  exact hlock

theorem setTask_sound {w : ReconnectRun} {k : ℕ} {p : Phase} (h : CoordinatorSound w)
    (hp : p ≠ .waiting false) : CoordinatorSound (w.setTask k p) :=
  h.same ⟨rfl, rfl, rfl, rfl, rfl, rfl, rfl⟩ id fun hready => awake_set (h.awake hready) hp

theorem check_sound {w : ReconnectRun} {k : ℕ} (h : CoordinatorSound w) :
    CoordinatorSound (w.check k) := by
  unfold ReconnectRun.check
  split_ifs with hstopped hneed hready
  · exact setTask_sound h (by simp)
  · exact h.same ⟨rfl, rfl, rfl, rfl, rfl, rfl, rfl⟩ (by simp)
      fun hready => awake_set (h.awake hready) (by simp)
  · exact h
  · exact h.same ⟨rfl, rfl, rfl, rfl, rfl, rfl, rfl⟩ id fun hset => absurd hset hready

theorem begin_sound {w : ReconnectRun} {clientLost : Bool} (h : CoordinatorSound w)
    (hlock : w.coordinator.lock = none) :
    CoordinatorSound
      { w with coordinator := w.coordinator.begin w.stopped clientLost o.timeoutMs w.mono } := by
  unfold ReconnectCoordinator.begin
  split_ifs with hstopped hactive hlost
  · exact h
  · exact ⟨fun _ => rfl, fun hb => by simp [hlock] at hb, fun _ => rfl, h.latest, h.issued, h.once,
      fun hready => by simp at hready⟩
  · exact h
  · exact ⟨fun _ => rfl, fun _ => ⟨rfl, rfl⟩, fun hjti => by simp at hjti, fun j hj => by simp at hj,
      h.issued, h.once, fun hready => by simp at hready⟩

theorem recovering_sound {w : ReconnectRun} {needSocket : Bool} (h : CoordinatorSound w)
    (hlock : w.coordinator.lock = some .beginning) : CoordinatorSound (w.recovering needSocket) := by
  obtain ⟨hsocket, hjti⟩ := h.beginning hlock
  refine ⟨fun _ => hsocket, fun hb => by simp [ReconnectRun.recovering] at hb,
    fun hsome => ?_, h.latest, h.issued, h.once, fun hready p hp => ?_⟩
  · exact absurd hsome (by simp [ReconnectRun.recovering, hjti])
  · rcases List.mem_append.mp hp with hp | hp
    · exact h.awake hready p hp
    · simp [List.mem_singleton.mp hp]

theorem issue_sound {w : ReconnectRun} {s : ReconnectCoordinator} {ticket : Ticket} {userId : ℕ}
    {device : Option Text} {jti : Ident} (h : CoordinatorSound w)
    (hlock : w.coordinator.lock = none) (hfresh : jti ∉ w.issued.map (·.1))
    (hok : w.coordinator.issue o digest w.stopped w.mono w.wall userId device jti =
      .ok (s, ticket)) : CoordinatorSound (w.recordIssue s ticket) := by
  obtain ⟨havailable, rfl, rfl⟩ := issue_ok hok
  have hneed := (available_iff.mp havailable).2.2.1
  refine ⟨fun _ => h.socket hneed, fun hb => by simp [ReconnectRun.recordIssue, hlock] at hb,
    fun _ => hneed, fun j hj => ?_, fun p hp => ?_, h.once, h.awake⟩
  · obtain rfl := Option.some.inj hj
    refine ⟨by simp [ReconnectRun.recordIssue], fun hattached => ?_⟩
    obtain ⟨p, hp, heq⟩ := List.mem_map.mp hattached
    exact hfresh (heq ▸ h.issued p hp)
  · simp only [ReconnectRun.recordIssue, List.map_append]
    exact List.mem_append_left _ (h.issued p hp)

theorem attach_sound {w : ReconnectRun} {s : ReconnectCoordinator} {t : Ticket} {socket : Socket}
    {ticket : Option Ticket} {device : Option Text} (h : CoordinatorSound w)
    (hlock : w.coordinator.lock = none)
    (hok : w.coordinator.attach o digest w.signed w.stopped w.mono w.wall socket ticket device =
      .ok (s, t)) : CoordinatorSound (w.recordAttach s t socket) := by
  obtain ⟨-, -, havailable, hjti, rfl⟩ := attach_ok hok
  obtain ⟨hlast, hunused⟩ := h.latest t.jti hjti
  refine ⟨fun hneed => by simp [ReconnectRun.recordAttach] at hneed,
    fun hb => by simp [ReconnectRun.recordAttach, hlock] at hb,
    fun hsome => by simp [ReconnectRun.recordAttach] at hsome,
    fun j hj => by simp [ReconnectRun.recordAttach] at hj, fun p hp => ?_, ?_,
    fun _ => awake_wake w.tasks⟩
  · rcases List.mem_append.mp hp with hp | hp
    · exact h.issued p hp
    · rw [List.mem_singleton.mp hp]
      exact List.mem_map_of_mem (List.mem_of_getLast? hlast)
  · simp only [ReconnectRun.recordAttach, List.map_append, List.map_cons, List.map_nil]
    exact List.nodup_append.mpr ⟨h.once, by simp, fun a ha b hb heq =>
      hunused (List.mem_singleton.mp hb ▸ heq ▸ ha)⟩

theorem cancel_sound {w : ReconnectRun} (h : CoordinatorSound w) :
    CoordinatorSound
      { w with coordinator := w.coordinator.cancel, tasks := w.tasks.map Phase.wake } :=
  ⟨h.socket, fun hb => ⟨(h.beginning hb).1, rfl⟩,
    fun hsome => by simp [ReconnectCoordinator.cancel] at hsome,
    fun j hj => by simp [ReconnectCoordinator.cancel] at hj, h.issued, h.once,
    fun _ => awake_wake w.tasks⟩

/-! ### Steps -/

theorem step_sound {w w' : ReconnectRun} {i : ReconnectInput} (h : CoordinatorSound w)
    (hstep : (reconnects o digest).step w i = some w') : CoordinatorSound w' := by
  cases i <;> simp only [reconnects] at hstep
  case tick mono wall =>
    split_ifs at hstep
    obtain rfl := Option.some.inj hstep
    exact h.same ⟨rfl, rfl, rfl, rfl, rfl, rfl, rfl⟩ id h.awake
  case stop =>
    obtain rfl := Option.some.inj hstep
    exact h.same ⟨rfl, rfl, rfl, rfl, rfl, rfl, rfl⟩ id h.awake
  case elsewhere ticket =>
    split_ifs at hstep
    obtain rfl := Option.some.inj hstep
    exact h.same ⟨rfl, rfl, rfl, rfl, rfl, rfl, rfl⟩ id h.awake
  case begin clientLost =>
    split_ifs at hstep with hlock
    obtain rfl := Option.some.inj hstep
    exact begin_sound h hlock
  case disconnected needSocket =>
    split_ifs at hstep with hlock
    obtain rfl := Option.some.inj hstep
    exact recovering_sound h hlock
  case disconnectFailed =>
    split_ifs at hstep
    obtain rfl := Option.some.inj hstep
    exact h.same ⟨rfl, rfl, rfl, rfl, rfl, rfl, rfl⟩ (by simp) h.awake
  case check k =>
    split_ifs at hstep
    obtain rfl := Option.some.inj hstep
    exact check_sound h
  case issue userId device jti =>
    split_ifs at hstep with hguard
    split at hstep
    · next s ticket hok =>
      obtain rfl := Option.some.inj hstep
      exact issue_sound h hguard.1 hguard.2 hok
    · obtain rfl := Option.some.inj hstep
      exact h
  case attach socket ticket device =>
    split_ifs at hstep with hlock
    split at hstep
    · next s t hok =>
      obtain rfl := Option.some.inj hstep
      exact attach_sound h hlock hok
    · obtain rfl := Option.some.inj hstep
      exact h
  case cancel =>
    obtain rfl := Option.some.inj hstep
    exact cancel_sound h
  case restored k | raised k =>
    split_ifs at hstep
    obtain rfl := Option.some.inj hstep
    exact leave_sound h (by simp)
  case cancelled k =>
    split_ifs at hstep
    obtain rfl := Option.some.inj hstep
    exact leave_sound h (b := w.coordinator.active) (by simp)
  case rebuilt k | resume k | failed k =>
    split_ifs at hstep
    obtain rfl := Option.some.inj hstep
    exact setTask_sound h (by simp)

theorem reachable_sound {w : ReconnectRun} (hw : (reconnects o digest).Reachable w) :
    CoordinatorSound w := by
  refine Machine.reachable_invariant ?_ (fun w i w' => step_sound) hw
  rintro w ⟨mono, wall, rfl⟩
  constructor <;> simp [ReconnectCoordinator.new]

/-- The inputs that tell the coordinator that the client is gone. -/
def losesClient : ReconnectInput → Bool
  | .begin clientLost => clientLost
  | .disconnected needSocket => needSocket
  | _ => false

/-- A step attaches a client, or nobody is attached. -/
theorem step_attached {w w' : ReconnectRun} {i : ReconnectInput}
    (hstep : (reconnects o digest).step w i = some w') :
    (∃ socket ticket device s t, i = .attach socket ticket device ∧ w.coordinator.lock = none ∧
        w.coordinator.attach o digest w.signed w.stopped w.mono w.wall socket ticket device =
          .ok (s, t) ∧ w' = w.recordAttach s t socket) ∨
      w'.attached = w.attached ∧ (losesClient i = false → w.coordinator.needSocket = false →
        w'.coordinator.needSocket = false) := by
  cases i <;> simp only [reconnects] at hstep
  case begin clientLost =>
    split_ifs at hstep
    obtain rfl := Option.some.inj hstep
    refine .inr ⟨rfl, fun hloses hneed => ?_⟩
    simp only [losesClient] at hloses
    simp only [ReconnectCoordinator.begin]
    split_ifs <;> simp_all
  case disconnected needSocket =>
    split_ifs at hstep
    obtain rfl := Option.some.inj hstep
    refine .inr ⟨rfl, fun hloses hneed => ?_⟩
    simp only [losesClient] at hloses
    simp [ReconnectRun.recovering, hloses, hneed]
  case check k =>
    split_ifs at hstep
    obtain rfl := Option.some.inj hstep
    right
    unfold ReconnectRun.check
    split_ifs <;> exact ⟨rfl, fun _ hneed => hneed⟩
  case issue userId device jti =>
    split_ifs at hstep
    split at hstep
    · next s ticket hok =>
      obtain rfl := Option.some.inj hstep
      obtain ⟨-, rfl, -⟩ := issue_ok hok
      exact .inr ⟨rfl, fun _ hneed => hneed⟩
    · obtain rfl := Option.some.inj hstep
      exact .inr ⟨rfl, fun _ hneed => hneed⟩
  case attach socket ticket device =>
    split_ifs at hstep with hlock
    split at hstep
    · next s t hok =>
      obtain rfl := Option.some.inj hstep
      exact .inl ⟨socket, ticket, device, s, t, rfl, hlock, hok, rfl⟩
    · obtain rfl := Option.some.inj hstep
      exact .inr ⟨rfl, fun _ hneed => hneed⟩
  case stop | cancel =>
    obtain rfl := Option.some.inj hstep
    exact .inr ⟨rfl, fun _ hneed => hneed⟩
  all_goals
    split_ifs at hstep
    obtain rfl := Option.some.inj hstep
    exact .inr ⟨rfl, fun _ hneed => hneed⟩

/-- Without a needed socket nobody attaches until the client is lost. -/
theorem run_excludes {w w' : ReconnectRun} {is : List ReconnectInput}
    (hneed : w.coordinator.needSocket = false) (hkeeps : ∀ i ∈ is, losesClient i = false)
    (hrun : (reconnects o digest).run w is = some w') : w'.attached = w.attached := by
  induction is generalizing w with
  | nil =>
    obtain rfl : w = w' := by simpa using hrun
    rfl
  | cons i is ih =>
    obtain ⟨u, hstep, hrest⟩ := Machine.run_cons_eq_some.mp hrun
    rcases step_attached hstep with ⟨socket, ticket, device, s, t, -, -, hok, -⟩ | ⟨hsame, hkept⟩
    · have havailable := (attach_ok hok).2.2.1
      rw [available_iff] at havailable
      simp [hneed] at havailable
    · rw [← hsame]
      exact ih (hkept (hkeeps i List.mem_cons_self) hneed)
        (fun j hj => hkeeps j (List.mem_cons_of_mem i hj)) hrest

theorem getElem?_set_woken {tasks : List Phase} {k m : ℕ} {p q : Phase}
    (hk : tasks[k]? = some (.waiting true)) (hm : tasks[m]? = some q) (hq : q ≠ .waiting true) :
    (tasks.set m p)[k]? = some (.waiting true) := by
  have hne : m ≠ k := by
    rintro rfl
    exact hq (Option.some.inj (hm.symm.trans hk))
  rw [List.getElem?_set_ne hne, hk]

/-- A task that has been woken stays so until it goes on. -/
theorem step_woken {w w' : ReconnectRun} {i : ReconnectInput} {k : ℕ}
    (hstep : (reconnects o digest).step w i = some w')
    (hk : w.tasks[k]? = some (.waiting true)) :
    w'.tasks[k]? = some (.waiting true) ∨ i = .resume k ∨ i = .raised k ∨ i = .cancelled k := by
  have hwake : (w.tasks.map Phase.wake)[k]? = some (.waiting true) := by
    simp [List.getElem?_map, hk, Phase.wake]
  have hset : ∀ m p, m ≠ k → (w.tasks.set m p)[k]? = some (.waiting true) := by
    intro m p hm
    rw [List.getElem?_set_ne hm, hk]
  cases i <;> simp only [reconnects] at hstep
  case disconnected needSocket =>
    split_ifs at hstep
    obtain rfl := Option.some.inj hstep
    left
    exact List.getElem?_append_left (List.getElem?_eq_some_iff.mp hk).1 ▸ hk
  case check m =>
    split_ifs at hstep with hguard
    obtain rfl := Option.some.inj hstep
    left
    unfold ReconnectRun.check
    split_ifs
    · exact getElem?_set_woken hk hguard.1 (by simp)
    · exact getElem?_set_woken hk hguard.1 (by simp)
    · exact hk
    · exact getElem?_set_woken hk hguard.1 (by simp)
  case issue userId device jti =>
    split_ifs at hstep
    split at hstep <;> obtain rfl := Option.some.inj hstep <;> exact .inl hk
  case attach socket ticket device =>
    split_ifs at hstep
    split at hstep
    · obtain rfl := Option.some.inj hstep
      exact .inl hwake
    · obtain rfl := Option.some.inj hstep
      exact .inl hk
  case cancel =>
    obtain rfl := Option.some.inj hstep
    exact .inl hwake
  case stop =>
    obtain rfl := Option.some.inj hstep
    exact .inl hk
  case rebuilt m | restored m | failed m =>
    split_ifs at hstep with hguard
    obtain rfl := Option.some.inj hstep
    exact .inl (getElem?_set_woken hk hguard (by simp))
  case resume m | raised m | cancelled m =>
    split_ifs at hstep with hguard
    obtain rfl := Option.some.inj hstep
    by_cases hm : m = k
    · simp [hm]
    · exact .inl (hset m _ hm)
  all_goals
    split_ifs at hstep
    obtain rfl := Option.some.inj hstep
    exact .inl hk

/-! ### Runs -/

/-- What holds when a client is attached. -/
structure Admitted (w w' : ReconnectRun) (t : Ticket) (socket : Socket) : Prop where
  running : w.stopped = false
  active : w.coordinator.active = true
  needed : w.coordinator.needSocket = true ∧ w.coordinator.socket = none
  latest : ∃ deadline, w.issued.getLast? = some (t.jti, some deadline) ∧
    w.coordinator.deadline = some deadline ∧ w.mono < deadline
  unused : t.jti ∉ w.attached.map (·.1)
  attached : w'.attached = w.attached ++ [(t.jti, socket)] ∧
    w'.coordinator.socket = some socket

/-- Every ticket is attached at most once, and nothing but an admitted `attach` attaches. After it
nobody else attaches until the client is lost. An attach and a cancellation leave no task asleep,
and a task that has been woken can go on. -/
structure TicketsSafe (o : Owner) (digest : Text → Text) (w : ReconnectRun) : Prop where
  once : (w.attached.map (·.1)).Nodup
  admitted : ∀ i w', (reconnects o digest).step w i = some w' → w'.attached ≠ w.attached →
    ∃ socket t device, i = .attach socket (some t) device ∧ t ∈ w.signed ∧ Admitted w w' t socket
  excludes : ∀ i w' is w'', (reconnects o digest).step w i = some w' → w'.attached ≠ w.attached →
    (∀ j ∈ is, losesClient j = false) → (reconnects o digest).run w' is = some w'' →
    w''.attached = w'.attached
  woken : ∀ i w', (reconnects o digest).step w i = some w' →
    i = .cancel ∨ w'.attached ≠ w.attached → ∀ p ∈ w'.tasks, p ≠ .waiting false
  staysWoken : ∀ i w' k, (reconnects o digest).step w i = some w' →
    w.tasks[k]? = some (.waiting true) →
    w'.tasks[k]? = some (.waiting true) ∨ i = .resume k ∨ i = .raised k ∨ i = .cancelled k
  resumes : ∀ k, w.tasks[k]? = some (.waiting true) →
    (reconnects o digest).step w (.resume k) = some (w.setTask k .checking)

theorem tickets_safe (o : Owner) (digest : Text → Text) {w : ReconnectRun}
    (hw : (reconnects o digest).Reachable w) : TicketsSafe o digest w := by
  have h := reachable_sound hw
  refine ⟨h.once, fun i w' hstep hnew => ?_, fun i w' is w'' hstep hnew hkeeps hrun => ?_,
    fun i w' hstep hwakes => ?_, fun i w' k => step_woken, fun k hk => ?_⟩
  · rcases step_attached hstep with ⟨socket, ticket, device, s, t, rfl, -, hok, rfl⟩ | ⟨hsame, -⟩
    · obtain ⟨rfl, hsigned, havailable, hjti, rfl⟩ := attach_ok hok
      obtain ⟨hstopped, hactive, hneed, deadline, hdeadline, hbefore⟩ :=
        available_iff.mp havailable
      obtain ⟨hlast, hunused⟩ := h.latest t.jti hjti
      exact ⟨socket, t, device, rfl, hsigned, hstopped, hactive, ⟨hneed, h.socket hneed⟩,
        ⟨deadline, hdeadline ▸ hlast, hdeadline, hbefore⟩, hunused, rfl, rfl⟩
    · exact absurd hsame hnew
  · rcases step_attached hstep with ⟨socket, ticket, device, s, t, rfl, -, hok, rfl⟩ | ⟨hsame, -⟩
    · obtain ⟨-, -, -, -, rfl⟩ := attach_ok hok
      exact run_excludes rfl hkeeps hrun
    · exact absurd hsame hnew
  · have hsound := step_sound h hstep
    refine hsound.awake ?_
    rcases hwakes with rfl | hnew
    · obtain rfl := Option.some.inj hstep
      rfl
    · rcases step_attached hstep with ⟨socket, ticket, device, s, t, rfl, -, hok, rfl⟩ | ⟨hsame, -⟩
      · obtain ⟨-, -, -, -, rfl⟩ := attach_ok hok
        rfl
      · exact absurd hsame hnew
  · simp [reconnects, hk]

def owner : Owner := ⟨1, ['d'], ['c'], 30000⟩

def reconnectTicket (jti : Ident) : Ticket := ⟨.voiceReconnect, 1, ['c'], jti, ['d'], 30000⟩

/-- A ticket is replaced by a later one, which a client attaches while a task waits for it. -/
def replaced : List ReconnectInput :=
  [.begin true, .disconnected false, .rebuilt 0, .check 0, .issue 1 (some ['d']) ['i'],
    .issue 1 (some ['d']) ['j'], .attach 7 (some (reconnectTicket ['i'])) (some ['d']),
    .attach 8 (some (reconnectTicket ['j'])) (some ['d']),
    .attach 9 (some (reconnectTicket ['j'])) (some ['d'])]

theorem tickets_safe_replaced :
    let w := (reconnects owner id).after ⟨.new, false, 0, 0, [], [], [], []⟩ replaced
    w.attached = [(['j'], 8)] ∧ w.tasks = [.waiting true] ∧ TicketsSafe owner id w :=
  ⟨by decide +kernel, by decide +kernel,
    tickets_safe owner id (Machine.reachable_after ⟨0, 0, rfl⟩ (by decide +kernel))⟩

end CompanionBackend.ReconnectSafety
