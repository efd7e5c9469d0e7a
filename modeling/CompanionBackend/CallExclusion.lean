import CompanionBackend.CallCreation
import CompanionBackend.LeaseAgreement

/-!
# A key creates one call, a user has one

Requests of one user meet under its row lock, so between the look at the records and
the commit nothing of the user changes but what time ends. A request that fails gives
its lease back, except when the failure comes where it does not know of the lease or
cannot reach it.
-/
namespace CompanionBackend.CallExclusion

open ProviderEvents LeaseScripts LeaseAgreement CallCreation TaskSystems VoiceModels Runs

variable {F : Formats} {owner : Ident → ℕ}

/-! ### Leases that have time left -/

/-- The key of the user names the call and has time left. -/
def leaseLeft (s : LeaseTable) (user : ℕ) (call : Ident) : Bool :=
  (s.userKeys.lookup user).any fun v => v.1 = call && s.now < v.2

theorem leaseLeft_iff {s : LeaseTable} {u : ℕ} {c : Ident} :
    leaseLeft s u c = true ↔ ∃ e, s.userKeys.lookup u = some (c, e) ∧ s.now < e := by
  unfold leaseLeft
  cases s.userKeys.lookup u with
  | none => simp
  | some v =>
    obtain ⟨c', e⟩ := v
    simp only [Option.any_some, Bool.and_eq_true, decide_eq_true_eq, Option.some.injEq,
      Prod.mk.injEq]
    constructor
    · rintro ⟨rfl, hlt⟩
      exact ⟨e, ⟨rfl, rfl⟩, hlt⟩
    · rintro ⟨e', ⟨rfl, rfl⟩, hlt⟩
      exact ⟨rfl, hlt⟩

/-- An acquisition gives time to no other call. -/
theorem leaseLeft_acquire {s s' : LeaseTable} {u v : ℕ} {c d : Ident} {ttlMs limit : ℕ}
    {canonical : Ident → Bool} {r : AcquireResult}
    (hok : s.acquire canonical u c ttlMs limit = .ok (s', r)) (hd : d ≠ c)
    (h : leaseLeft s' v d = true) : leaseLeft s v d = true := by
  obtain ⟨-, hscript⟩ := acquire_ok hok
  rw [leaseLeft_iff] at h ⊢
  obtain ⟨e, hkey, hlt⟩ := h
  rcases acquireScript_cases s u c ttlMs limit with ⟨heq, -⟩ | ⟨heq, -⟩ | ⟨heq, -⟩ <;>
    obtain ⟨rfl, -⟩ := Prod.mk.inj (heq.symm.trans hscript)
  · exact ⟨e, hkey, hlt⟩
  · exact ⟨e, hkey, hlt⟩
  · by_cases hv : v = u
    · subst hv
      have hput := (AList.lookup_insert _).symm.trans hkey
      exact absurd (Prod.mk.inj (Option.some.inj hput)).1 (Ne.symm hd)
    · exact ⟨e, (AList.lookup_insert_ne hv).symm.trans hkey, hlt⟩

/-- A refused acquisition gives time to no call. -/
theorem leaseLeft_refused {s s' : LeaseTable} {u v : ℕ} {c d : Ident} {ttlMs limit : ℕ}
    {canonical : Ident → Bool} {r : AcquireResult}
    (hok : s.acquire canonical u c ttlMs limit = .ok (s', r)) (hr : r ≠ .acquired)
    (h : leaseLeft s' v d = true) : leaseLeft s v d = true := by
  obtain ⟨-, hscript⟩ := acquire_ok hok
  rcases acquireScript_cases s u c ttlMs limit with ⟨heq, -⟩ | ⟨heq, -⟩ | ⟨heq, -⟩ <;>
    obtain ⟨rfl, rfl⟩ := Prod.mk.inj (heq.symm.trans hscript)
  · exact h
  · exact h
  · exact absurd rfl hr

theorem leaseLeft_release {s s' : LeaseTable} {u v : ℕ} {c d : Ident} {b : Bool}
    (hok : s.release u c = .ok (s', b)) (h : leaseLeft s' v d = true) :
    leaseLeft s v d = true := by
  have hscript := release_ok hok
  unfold LeaseTable.releaseScript at hscript
  by_cases howner : s.owners.lookup c ≠ some u
  · rw [if_pos howner] at hscript
    obtain ⟨rfl, -⟩ := Prod.mk.inj hscript
    exact h
  · rw [if_neg howner] at hscript
    obtain ⟨rfl, -⟩ := Prod.mk.inj hscript
    rw [leaseLeft_iff] at h ⊢
    obtain ⟨e, hkey, hlt⟩ := h
    refine ⟨e, ?_, hlt⟩
    dsimp only at hkey
    split_ifs at hkey with hget
    · by_cases hv : v = u
      · subst hv
        exact absurd ((AList.lookup_erase _ _).symm.trans hkey) (by simp)
      · exact (AList.lookup_erase_ne hv).symm.trans hkey
    · exact hkey

theorem leaseLeft_renew {canonical : Ident → Bool} {s s' : LeaseTable} {u v : ℕ} {c d : Ident}
    {ttlMs : ℕ} {b : Bool} (hs : TableSound owner s)
    (hok : s.renew canonical u c ttlMs = .ok (s', b)) (h : leaseLeft s' v d = true) :
    leaseLeft s v d = true := by
  rcases renew_ok hok with heq | heq
  · obtain ⟨rfl, -⟩ := Prod.mk.inj heq
    exact h
  · rcases renewScript_cases s u c ttlMs with hsame | ⟨hget, ⟨e, hactive, hlive⟩, hwritten⟩
    · obtain ⟨rfl, -⟩ := Prod.mk.inj (hsame.symm.trans heq)
      exact h
    · obtain ⟨rfl, -⟩ := Prod.mk.inj (hwritten.symm.trans heq)
      rw [leaseLeft_iff] at h ⊢
      obtain ⟨e', hkey, hlt⟩ := h
      by_cases hv : v = u
      · subst hv
        have hput := (AList.lookup_insert _).symm.trans hkey
        obtain ⟨rfl, -⟩ := Prod.mk.inj (Option.some.inj hput)
        obtain ⟨e₀, hkey₀, hle⟩ := get_eq_some.mp hget
        obtain rfl := hs.mine v c e₀ hkey₀ hle
        exact ⟨e, (hs.live c e hactive hlive).1, hlive⟩
      · exact ⟨e', (AList.lookup_insert_ne hv).symm.trans hkey, hlt⟩

theorem afterCall_release {s : LeaseTable} {u v : ℕ} {c d : Ident}
    (h : leaseLeft (afterCall s (s.release u c)) v d = true) : leaseLeft s v d = true := by
  unfold afterCall at h
  split at h
  · next hok => exact leaseLeft_release hok h
  · exact h

/-- The user's own release leaves no time. -/
theorem leaseLeft_released {s : LeaseTable} {c : Ident} (hs : TableSound owner s)
    (hu : 1 ≤ owner c) :
    leaseLeft (afterCall s (s.release (owner c) c)) (owner c) c = false := by
  have hok : s.release (owner c) c = .ok (s.releaseScript (owner c) c) := by
    simp [LeaseTable.release, LeaseTable.userKey, require_of_pos hu, pure, Except.pure]
  rw [Bool.eq_false_iff]
  intro h
  have hbefore := afterCall_release h
  obtain ⟨e, hkey, hlt⟩ := leaseLeft_iff.mp hbefore
  have howner := (hs.held _ c e hkey hlt).2
  have hget : s.get (owner c) = some c := get_eq_some.mpr ⟨e, hkey, hlt.le⟩
  rw [hok] at h
  unfold LeaseTable.releaseScript at h
  rw [if_neg (not_not_intro howner)] at h
  obtain ⟨e', hkey', -⟩ := leaseLeft_iff.mp h
  simp only [afterCall, if_pos hget] at hkey'
  exact absurd ((AList.lookup_erase _ _).symm.trans hkey') (by simp)

/-- What the others do to leases. -/
theorem leaseLeft_others {canonical : Ident → Bool} {s s' : LeaseTable} {i : LeaseInput}
    (hs : TableSound owner s) (hi : ∀ u c t l, i ≠ .acquire u c t l)
    (hstep : (leases canonical).step s i = some s') {v : ℕ} {d : Ident}
    (h : leaseLeft s' v d = true) : leaseLeft s v d = true := by
  cases i with
  | tick now =>
    simp only [leases] at hstep
    split_ifs at hstep with hnow
    obtain rfl := Option.some.inj hstep
    rw [leaseLeft_iff] at h ⊢
    obtain ⟨e, hkey, hlt⟩ := h
    exact ⟨e, hkey, lt_of_le_of_lt hnow hlt⟩
  | acquire u c t l => exact absurd rfl (hi u c t l)
  | renew u c t =>
    obtain rfl := Option.some.inj hstep
    unfold afterCall at h
    split at h
    · next hok => exact leaseLeft_renew hs hok h
    · exact h
  | release u c =>
    obtain rfl := Option.some.inj hstep
    exact afterCall_release h
  | prune =>
    obtain rfl := Option.some.inj hstep
    exact h

/-! ### What holds of the data -/

/-- What of a record is kept while it lives. -/
def core (record : ReplayRecord) : Text × Ident × ℕ :=
  (record.digest, record.callId, record.replayExpiresAt)

/-- The record of a key. -/
def remembers (d : CreateData) (userId : ℕ) (key : Text) : Option (Text × Ident × ℕ) :=
  (d.records.lookup (userId, key)).map core

def callIds (d : CreateData) : List Ident := d.calls.map (·.callId)

/-- While the key of a creation lives, later commits of it replay that creation. -/
def Once (a b : Outcome) : Prop :=
  a.created = true → a.userId = b.userId → a.key = b.key → b.time < a.replayExpiresAt →
    b.created = false ∧ b.callId = a.callId ∧ b.digest = a.digest

/-- Two calls of one user are not both active. -/
def Exclusive (a b : CallRow) : Prop :=
  a.userId = b.userId → a.status.active = true → b.status.active = false

structure DataOk (owner : Ident → ℕ) (d : CreateData) : Prop where
  table : TableSound owner d.leases
  leased : ∀ u c, leaseLeft d.leases u c = true → c ∈ d.drawn
  rows : ∀ c ∈ callIds d, c ∈ d.drawn
  created : callIds d = (d.log.filter (·.created)).map (·.callId)
  exclusive : d.calls.Pairwise Exclusive
  remembered : ∀ a ∈ d.log, a.created = true → a.replayExpiresAt ≤ d.clock ∨
    remembers d a.userId a.key = some (a.digest, a.callId, a.replayExpiresAt)
  once : d.log.Pairwise Once

/-! ### What holds of a request -/

section Phases

variable (p : Phase)

/-- The transaction is open, under the row lock of the user. -/
def inside : Bool :=
  match p with
  | .locked | .replaying _ | .fresh | .checked | .acquiring _ | .granted _ | .acquired _ => true
  | .failing _ _ locked => locked
  | _ => false

/-- No record of the key has been found that lives. -/
def building : Bool :=
  match p with
  | .fresh | .checked | .acquiring _ | .granted _ | .acquired _ => true
  | _ => false

/-- No active call of the user has been found. -/
def cleared : Bool :=
  match p with
  | .acquiring _ | .granted _ | .acquired _ => true
  | _ => false

/-- The call that is created or cleaned up. -/
def callOf : Option Ident :=
  match p with
  | .acquiring c | .granted c | .acquired c | .releasing _ c => some c
  | .failing _ lease _ => lease
  | _ => none

/-- The request may own a lease. -/
def holding : Bool :=
  match p with
  | .granted _ | .acquired _ | .releasing _ _ | .committed _ | .answered _ => true
  | .failing _ lease _ => lease.isSome
  | _ => false

/-- What a committed request answers. -/
def answerOf : Option Answer :=
  match p with
  | .committed a | .answered a => some a
  | _ => none

end Phases

structure RequestOk (F : Formats) (owner : Ident → ℕ) (d : CreateData) (r : Request) : Prop where
  clock : r.now ≤ d.clock
  locked : inside r.phase = true → r.userId ∈ d.locked
  drawn : ∀ c, r.call = some c → c ∈ d.drawn ∧ owner c = r.userId
  building : building r.phase = true → ∀ x, remembers d r.userId r.key = some x → x.2.2 ≤ r.now
  replaying : ∀ a, r.phase = .replaying a → ∃ e,
    remembers d r.userId r.key = some (F.digest r.payload, a.callId, e)
  cleared : cleared r.phase = true → d.busy r.userId = false
  call : ∀ c, callOf r.phase = some c → r.call = some c
  user : holding r.phase = true → callOf r.phase ≠ none → 1 ≤ r.userId
  unleased : holding r.phase = false → ∀ c, r.call = some c → leaseLeft d.leases r.userId c = false
  rowless : answerOf r.phase = none → ∀ c, r.call = some c → c ∉ callIds d
  answered : ∀ a, answerOf r.phase = some a → ∃ b ∈ d.log, b.userId = r.userId ∧ b.key = r.key ∧
    b.digest = F.digest r.payload ∧ b.callId = a.callId

def TaskOk (F : Formats) (owner : Ident → ℕ) (d : CreateData) : CreateTask → Prop
  | .request r => RequestOk F owner d r
  | .others => True

/-- Two requests of one user are not both inside, and no two have drawn the same id. -/
def Apart : CreateTask → CreateTask → Prop
  | .request r, .request s =>
    (inside r.phase = true → inside s.phase = true → r.userId ≠ s.userId) ∧
      ∀ c, r.call = some c → s.call ≠ some c
  | _, _ => True

theorem apart_symm (t u : CreateTask) (h : Apart t u) : Apart u t := by
  cases t with
  | others => cases u <;> exact trivial
  | request r =>
    cases u with
    | others => exact trivial
    | request s =>
      exact ⟨fun hs hr heq => h.1 hr hs heq.symm, fun c hs hr => h.2 c hr hs⟩

/-- What a step leaves to the other requests. The step is taken inside a transaction of `user`, or
outside of all, by a request that has drawn `call`. -/
structure Spares (user : Option ℕ) (call : Option Ident) (d d' : CreateData) : Prop where
  clock : d.clock ≤ d'.clock
  locked : ∀ v ∈ d.locked, user ≠ some v → v ∈ d'.locked
  drawn : ∀ c ∈ d.drawn, c ∈ d'.drawn
  records : ∀ v key, v ∈ d.locked → user ≠ some v → remembers d' v key = remembers d v key
  busy : ∀ v, user ≠ some v → v ∈ d.locked → d.busy v = false → d'.busy v = false
  rows : ∀ c ∈ callIds d', c ∈ callIds d ∨ call = some c
  leases : ∀ v c, call ≠ some c → leaseLeft d'.leases v c = true → leaseLeft d.leases v c = true
  log : ∀ b ∈ d.log, b ∈ d'.log

theorem Spares.refl (user : Option ℕ) (call : Option Ident) (d : CreateData) : Spares user call d d :=
  ⟨le_rfl, fun _ hv _ => hv, fun _ hc => hc, fun _ _ _ _ => rfl, fun _ _ _ h => h,
    fun _ hc => .inl hc, fun _ _ _ h => h, fun _ hb => hb⟩

theorem building_inside {p : Phase} (h : building p = true) : inside p = true := by
  cases p <;> simp_all [building, inside]

theorem cleared_inside {p : Phase} (h : cleared p = true) : inside p = true := by
  cases p <;> simp_all [cleared, inside]

/-- A request relies on what the others spare. -/
theorem RequestOk.spared {d d' : CreateData} {s : Request} {user : Option ℕ} {call : Option Ident}
    (h : RequestOk F owner d s) (hs : Spares user call d d')
    (huser : inside s.phase = true → user ≠ some s.userId)
    (hcall : ∀ c, s.call = some c → call ≠ some c) : RequestOk F owner d' s where
  clock := h.clock.trans hs.clock
  locked hin := hs.locked _ (h.locked hin) (huser hin)
  drawn c hc := ⟨hs.drawn c (h.drawn c hc).1, (h.drawn c hc).2⟩
  building hb x hx := by
    have hin := building_inside hb
    rw [hs.records _ _ (h.locked hin) (huser hin)] at hx
    exact h.building hb x hx
  replaying a ha := by
    have hin : inside s.phase = true := by simp [ha, inside]
    rw [hs.records _ _ (h.locked hin) (huser hin)]
    exact h.replaying a ha
  cleared hc := by
    have hin := cleared_inside hc
    exact hs.busy _ (huser hin) (h.locked hin) (h.cleared hc)
  call := h.call
  user := h.user
  unleased hn c hc := by
    rw [Bool.eq_false_iff]
    intro hleft
    have hbefore := hs.leases _ _ (hcall c hc) hleft
    rw [h.unleased hn c hc] at hbefore
    exact absurd hbefore (by simp)
  rowless ha c hc hrow := by
    rcases hs.rows c hrow with hrow | heq
    · exact h.rowless ha c hc hrow
    · exact hcall c hc heq
  answered a ha := by
    obtain ⟨b, hb, hrest⟩ := h.answered a ha
    exact ⟨b, hs.log b hb, hrest⟩

/-- A step of a request. -/
theorem establishes_request {d d' : CreateData} {r r' : Request} (hd : DataOk owner d')
    (hr' : RequestOk F owner d' r')
    (hs : Spares (if inside r.phase then some r.userId else none) r.call d d')
    (huser : r'.userId = r.userId) (hcall : r'.call = r.call ∨ ∃ c, r'.call = some c ∧ c ∉ d.drawn)
    (hin : inside r'.phase = true → inside r.phase = true ∨ r.userId ∉ d.locked) :
    TaskSystem.Establishes (DataOk owner) (TaskOk F owner) Apart d d' (.request r)
      [.request r'] := by
  refine ⟨hd, by simpa [TaskOk] using hr', List.pairwise_singleton _ _, fun u hu hru => ?_⟩
  cases u with
  | others => exact ⟨trivial, fun t' ht' => by simp [Apart]⟩
  | request s =>
    constructor
    · refine RequestOk.spared hu hs (fun hsin => ?_) fun c hc hc' => hru.2 c hc' hc
      split_ifs with hrin
      · exact fun heq => hru.1 hrin hsin (Option.some.inj heq)
      · simp
    · intro t' ht'
      obtain rfl := List.mem_singleton.mp ht'
      constructor
      · intro hsin hrin heq
        rcases hin hrin with hold | hfree
        · exact hru.1 hold hsin (huser ▸ heq.symm)
        · exact hfree (huser ▸ heq ▸ hu.locked hsin)
      · intro c hc hc'
        rcases hcall with hsame | ⟨c', hc'', hfresh⟩
        · exact hru.2 c (hsame ▸ hc') hc
        · obtain rfl : c' = c := Option.some.inj (hc''.symm.trans hc')
          exact hfresh (hu.drawn c' hc).1

/-! ### Failures that leave something behind -/

/-- The failures a request cannot clean up after: it is interrupted between the grant of its lease
and the return of `acquire`, its commit fails although it was carried out, it is interrupted after
the commit, or the clean-up itself fails while the lease has time left. -/
def lateFailure (d : CreateData) (r : Request) : CreateInput → Bool
  | .raise _ =>
    match r.phase with
    | .granted c => leaseLeft d.leases r.userId c
    | .committed _ => r.call.isSome
    | _ => false
  | .commitFails _ applied _ _ =>
    match r.phase with
    | .acquired _ => applied
    | _ => false
  | .rollbackFails =>
    match r.phase with
    | .failing _ (some c) _ => leaseLeft d.leases r.userId c
    | _ => false
  | .releaseFails =>
    match r.phase with
    | .releasing _ c => leaseLeft d.leases r.userId c
    | _ => false
  | _ => false

def Clean (d : CreateData) : CreateTask → CreateInput → Prop
  | .request r, i => lateFailure d r i = false
  | .others, _ => True

instance (d : CreateData) (t : CreateTask) (i : CreateInput) : Decidable (Clean d t i) := by
  cases t
  · exact inferInstanceAs (Decidable (lateFailure d _ i = false))
  · exact isTrue trivial

/-! ### Steps that only move a request -/

section Moves

variable {d : CreateData} {r : Request}

theorem failing_ok {e : PreflightError} {lease : Option Ident} {locked : Bool}
    (h : RequestOk F owner d r) (hlocked : locked = true → inside r.phase = true)
    (hlease : ∀ c, lease = some c → r.call = some c ∧ 1 ≤ r.userId)
    (hleft : lease = none → ∀ c, r.call = some c → leaseLeft d.leases r.userId c = false)
    (hanswer : answerOf r.phase = none) :
    RequestOk F owner d (r.withPhase (.failing e lease locked)) where
  clock := h.clock
  locked hin := h.locked (hlocked hin)
  drawn := h.drawn
  building hb := by simp [Request.withPhase, building] at hb
  replaying a ha := by simp [Request.withPhase] at ha
  cleared hc := by simp [Request.withPhase, cleared] at hc
  call c hc := (hlease c hc).1
  user _ hc := by
    obtain ⟨c, hc⟩ := Option.ne_none_iff_exists'.mp hc
    exact (hlease c hc).2
  unleased hn := hleft (by simpa [Request.withPhase, holding] using hn)
  rowless _ := h.rowless hanswer
  answered a ha := by simp [Request.withPhase, answerOf] at ha

theorem failed_ok {e : PreflightError} (h : RequestOk F owner d r)
    (hleft : ∀ c, r.call = some c → leaseLeft d.leases r.userId c = false)
    (hrow : ∀ c, r.call = some c → c ∉ callIds d) :
    RequestOk F owner d (r.withPhase (.failed e)) where
  clock := h.clock
  locked hin := by simp [Request.withPhase, inside] at hin
  drawn := h.drawn
  building hb := by simp [Request.withPhase, building] at hb
  replaying a ha := by simp [Request.withPhase] at ha
  cleared hc := by simp [Request.withPhase, cleared] at hc
  call c hc := by simp [Request.withPhase, callOf] at hc
  user hh := by simp [Request.withPhase, holding] at hh
  unleased _ := hleft
  rowless _ := hrow
  answered a ha := by simp [Request.withPhase, answerOf] at ha

/-- A request that holds no lease goes on inside its transaction. -/
theorem inside_ok {p : Phase} (h : RequestOk F owner d r) (hin : inside r.phase = true)
    (hhold : holding r.phase = false) (hp : holding p = false ∧ callOf p = none ∧ cleared p = false)
    (hbuild : building p = true →
      ∀ x, remembers d r.userId r.key = some x → x.2.2 ≤ r.now)
    (hreplay : ∀ a, p = .replaying a → ∃ e,
      remembers d r.userId r.key = some (F.digest r.payload, a.callId, e))
    (hanswer : answerOf r.phase = none ∧ answerOf p = none) :
    RequestOk F owner d (r.withPhase p) where
  clock := h.clock
  locked _ := h.locked hin
  drawn := h.drawn
  building := hbuild
  replaying := hreplay
  cleared hc := absurd hc (by simp [Request.withPhase, hp.2.2])
  call c hc := absurd hc (by simp [Request.withPhase, hp.2.1])
  user _ hc := absurd hp.2.1 hc
  unleased _ := h.unleased hhold
  rowless _ := h.rowless hanswer.1
  answered a ha := absurd ha (by simp [Request.withPhase, hanswer.2])

theorem read_ok (h : RequestOk F owner d r) (hphase : r.phase = .locked) :
    RequestOk F owner d (r.withPhase (d.read F r)) := by
  have hin : inside r.phase = true := by simp [hphase, inside]
  have hhold : holding r.phase = false := by simp [hphase, holding]
  have hanswer : answerOf r.phase = none := by simp [hphase, answerOf]
  have hfailing : ∀ e, RequestOk F owner d (r.withPhase (.failing e none true)) := fun e =>
    failing_ok h (fun _ => hin) (by simp) (fun _ => h.unleased hhold) hanswer
  unfold CreateData.read
  split
  · next hnone =>
    refine inside_ok h hin hhold (by simp [holding, callOf, cleared]) (fun _ x hx => ?_) (by simp)
      ⟨hanswer, rfl⟩
    simp [remembers, hnone] at hx
  · next record hrecord =>
    split_ifs with halive hdigest
    · exact hfailing _
    · split
      · exact hfailing _
      · next call hcall =>
        refine inside_ok h hin hhold (by simp [holding, callOf, cleared])
          (fun hb => by simp [building] at hb) (fun a ha => ?_) ⟨hanswer, rfl⟩
        obtain rfl := Phase.replaying.inj ha
        refine ⟨record.replayExpiresAt, ?_⟩
        have hid : call.callId = record.callId := by
          simpa using List.find?_some hcall
        rw [not_not] at hdigest
        simp [remembers, hrecord, core, response, hid, hdigest]
    · refine inside_ok h hin hhold (by simp [holding, callOf, cleared]) (fun _ x hx => ?_) (by simp)
        ⟨hanswer, rfl⟩
      simp only [remembers, hrecord, Option.map_some, Option.some.injEq] at hx
      rw [← hx]
      exact not_lt.mp halive

end Moves

/-! ### Steps that change the data -/

section Data

variable {d : CreateData} {r : Request}

theorem spares_unlock (userId : ℕ) (call : Option Ident) :
    Spares (some userId) call d (d.unlock userId) := by
  refine ⟨le_rfl, fun v hv hne => ?_, fun _ hc => hc, fun _ _ _ _ => rfl, fun _ _ _ h => h,
    fun _ hc => .inl hc, fun _ _ _ h => h, fun _ hb => hb⟩
  exact (List.mem_erase_of_ne fun heq => hne (congrArg some heq.symm)).mpr hv

theorem DataOk.unlock (h : DataOk owner d) (userId : ℕ) : DataOk owner (d.unlock userId) :=
  ⟨h.table, h.leased, h.rows, h.created, h.exclusive, h.remembered, h.once⟩

theorem DataOk.leases {s : LeaseTable} (h : DataOk owner d) (htable : TableSound owner s)
    (hleased : ∀ u c, leaseLeft s u c = true → c ∈ d.drawn) :
    DataOk owner { d with leases := s } :=
  ⟨htable, hleased, h.rows, h.created, h.exclusive, h.remembered, h.once⟩

theorem RequestOk.leases {s : LeaseTable} (h : RequestOk F owner d r)
    (hleft : ∀ c, r.call = some c → leaseLeft s r.userId c = true →
      leaseLeft d.leases r.userId c = true) : RequestOk F owner { d with leases := s } r where
  clock := h.clock
  locked := h.locked
  drawn := h.drawn
  building := h.building
  replaying := h.replaying
  cleared := h.cleared
  call := h.call
  user := h.user
  unleased hn c hc := by
    rw [Bool.eq_false_iff]
    intro hafter
    have hbefore := hleft c hc hafter
    rw [h.unleased hn c hc] at hbefore
    exact absurd hbefore (by simp)
  rowless := h.rowless
  answered := h.answered

theorem spares_leases {s : LeaseTable} {user : Option ℕ} {call : Option Ident}
    (hleft : ∀ v c, call ≠ some c → leaseLeft s v c = true → leaseLeft d.leases v c = true) :
    Spares user call d { d with leases := s } :=
  ⟨le_rfl, fun _ hv _ => hv, fun _ hc => hc, fun _ _ _ _ => rfl, fun _ _ _ h => h,
    fun _ hc => .inl hc, hleft, fun _ hb => hb⟩

/-- A living record of the key is the record of its creation. -/
theorem DataOk.remembers_of_alive (h : DataOk owner d) {a : Outcome} (ha : a ∈ d.log)
    (hcreated : a.created = true) (halive : d.clock < a.replayExpiresAt) :
    remembers d a.userId a.key = some (a.digest, a.callId, a.replayExpiresAt) := by
  rcases h.remembered a ha hcreated with hover | hremembers
  · omega
  · exact hremembers

theorem busy_eq_false {userId : ℕ} :
    d.busy userId = false ↔ ∀ row ∈ d.calls, row.userId = userId → row.status.active = false := by
  simp [CreateData.busy]

theorem create_dataOk {c jti : Ident} {ttlMs : ℕ} (hd : DataOk owner d)
    (hr : RequestOk F owner d r) (hphase : r.phase = .acquired c) :
    DataOk owner (d.create F r c jti ttlMs) := by
  have hbuild := hr.building (by simp [hphase, building])
  have hbusy := busy_eq_false.mp (hr.cleared (by simp [hphase, cleared]))
  have hdrawn := (hr.drawn c (hr.call c (by simp [hphase, callOf]))).1
  have hclock := hr.clock
  constructor
  · exact hd.table
  · exact hd.leased
  · intro x hx
    simp only [callIds, CreateData.create, List.map_append, List.map_cons, List.map_nil,
      List.mem_append, List.mem_singleton] at hx
    rcases hx with hx | rfl
    · exact hd.rows x hx
    · exact hdrawn
  · simp only [callIds, CreateData.create, List.map_append, List.filter_append]
    rw [show d.calls.map (·.callId) = _ from hd.created]
    rfl
  · refine List.pairwise_append.mpr ⟨hd.exclusive, List.pairwise_singleton _ _, ?_⟩
    intro a ha b hb hsame hactive
    obtain rfl := List.mem_singleton.mp hb
    rw [hbusy a ha hsame] at hactive
    exact absurd hactive (by simp)
  · intro a ha hcreated
    rcases List.mem_append.mp ha with ha | ha
    · by_cases hkey : (a.userId, a.key) = (r.userId, r.key)
      · left
        obtain ⟨huser, hkey⟩ := Prod.mk.inj hkey
        rcases hd.remembered a ha hcreated with hover | hremembers
        · exact hover
        · rw [huser, hkey] at hremembers
          exact (hbuild _ hremembers).trans hclock
      · rcases hd.remembered a ha hcreated with hover | hremembers
        · exact .inl hover
        · right
          rw [← hremembers]
          exact congrArg (Option.map core) (AList.lookup_insert_ne hkey)
    · obtain rfl := List.mem_singleton.mp ha
      right
      have hput := AList.lookup_insert (a := (r.userId, r.key))
        (b := CreateData.newRecord F r c jti ttlMs) d.records
      exact congrArg (Option.map core) hput
  · refine List.pairwise_append.mpr ⟨hd.once, List.pairwise_singleton _ _, ?_⟩
    intro a ha b hb hcreated huser hkey halive
    obtain rfl := List.mem_singleton.mp hb
    have hremembers := hd.remembers_of_alive ha hcreated halive
    rw [huser, hkey] at hremembers
    have hover := (hbuild _ hremembers).trans hclock
    exact absurd halive (not_lt.mpr hover)

theorem replay_dataOk {a : Answer} (hd : DataOk owner d) (hr : RequestOk F owner d r)
    (hphase : r.phase = .replaying a) : DataOk owner (d.replay F r a) := by
  obtain ⟨e, hremembers⟩ := hr.replaying a hphase
  refine ⟨hd.table, hd.leased, hd.rows, ?_, hd.exclusive, ?_, ?_⟩
  · rw [show callIds (d.replay F r a) = callIds d from rfl, hd.created]
    simp [CreateData.replay]
  · intro b hb hcreated
    rcases List.mem_append.mp hb with hb | hb
    · exact hd.remembered b hb hcreated
    · simp [List.mem_singleton.mp hb] at hcreated
  · refine List.pairwise_append.mpr ⟨hd.once, List.pairwise_singleton _ _, ?_⟩
    intro b hb x hx hcreated huser hkey halive
    obtain rfl := List.mem_singleton.mp hx
    have hcreation := hd.remembers_of_alive hb hcreated halive
    rw [huser, hkey, hremembers, Option.some.injEq, Prod.mk.injEq, Prod.mk.injEq] at hcreation
    exact ⟨rfl, hcreation.2.1, hcreation.1⟩

theorem spares_create {c jti : Ident} {ttlMs : ℕ} :
    Spares (some r.userId) (some c) d (d.create F r c jti ttlMs) := by
  refine ⟨le_rfl, fun _ hv _ => hv, fun _ hc => hc, fun v key _ hne => ?_, fun v hne _ hfree => ?_,
    fun x hx => ?_, fun _ _ _ h => h, fun b hb => List.mem_append_left _ hb⟩
  · refine congrArg (Option.map core) (AList.lookup_insert_ne fun heq => hne ?_)
    exact congrArg some (Prod.mk.inj heq).1.symm
  · rw [busy_eq_false] at hfree ⊢
    intro row hrow huser
    rcases List.mem_append.mp hrow with hrow | hrow
    · exact hfree row hrow huser
    · rw [List.mem_singleton.mp hrow] at huser
      exact absurd (congrArg some huser) hne
  · simp only [callIds, CreateData.create, List.map_append, List.map_cons, List.map_nil,
      List.mem_append, List.mem_singleton] at hx
    rcases hx with hx | rfl
    · exact .inl hx
    · exact .inr rfl

theorem Spares.trans {user : Option ℕ} {call : Option Ident} {d d' d'' : CreateData}
    (h : Spares user call d d') (h' : Spares user call d' d'') : Spares user call d d'' where
  clock := h.clock.trans h'.clock
  locked v hv hne := h'.locked v (h.locked v hv hne) hne
  drawn c hc := h'.drawn c (h.drawn c hc)
  records v key hv hne := (h'.records v key (h.locked v hv hne) hne).trans (h.records v key hv hne)
  busy v hne hv hfree := h'.busy v hne (h.locked v hv hne) (h.busy v hne hv hfree)
  rows c hc := by
    rcases h'.rows c hc with hc | hc
    · exact h.rows c hc
    · exact .inr hc
  leases v c hne hleft := h.leases v c hne (h'.leases v c hne hleft)
  log b hb := h'.log b (h.log b hb)

theorem spares_replay {a : Answer} {user : Option ℕ} {call : Option Ident} :
    Spares user call d (d.replay F r a) :=
  ⟨le_rfl, fun _ hv _ => hv, fun _ hc => hc, fun _ _ _ _ => rfl, fun _ _ _ h => h,
    fun _ hc => .inl hc, fun _ _ _ h => h, fun _ hb => List.mem_append_left _ hb⟩

/-- A request that has committed. -/
theorem committed_ok (d' : CreateData) {a : Answer} (h : RequestOk F owner d r)
    (hclock : d.clock ≤ d'.clock) (hdrawn : ∀ c ∈ d.drawn, c ∈ d'.drawn)
    (hlog : ∃ b ∈ d'.log, b.userId = r.userId ∧ b.key = r.key ∧
      b.digest = F.digest r.payload ∧ b.callId = a.callId) {p : Phase}
    (hp : p = .committed a ∨ p = .answered a) : RequestOk F owner d' (r.withPhase p) := by
  rcases hp with rfl | rfl <;>
    exact
      { clock := h.clock.trans hclock
        locked := fun hin => by simp [Request.withPhase, inside] at hin
        drawn := fun c hc => ⟨hdrawn c (h.drawn c hc).1, (h.drawn c hc).2⟩
        building := fun hb => by simp [Request.withPhase, building] at hb
        replaying := fun a ha => by simp [Request.withPhase] at ha
        cleared := fun hc => by simp [Request.withPhase, cleared] at hc
        call := fun c hc => by simp [Request.withPhase, callOf] at hc
        user := fun _ hc => absurd rfl hc
        unleased := fun hn => by simp [Request.withPhase, holding] at hn
        rowless := fun ha => by simp [Request.withPhase, answerOf] at ha
        answered := fun a' ha' => by
          obtain rfl := Option.some.inj ha'
          exact hlog }

end Data

/-! ### Steps of a request -/

section Steps

variable {d d' : CreateData} {r r' : Request}

/-- A step that leaves the data as it is. -/
theorem establishes_same {p : Phase} (hd : DataOk owner d) (hr' : RequestOk F owner d (r.withPhase p))
    (hin : inside p = true → inside r.phase = true) :
    TaskSystem.Establishes (DataOk owner) (TaskOk F owner) Apart d d (.request r)
      [.request (r.withPhase p)] :=
  establishes_request hd hr' (Spares.refl _ _ _) rfl (.inl rfl) fun h => .inl (hin h)

theorem lock_establishes (hd : DataOk owner d) (hr : RequestOk F owner d r)
    (hphase : r.phase = .waiting) (hfree : r.userId ∉ d.locked) :
    TaskSystem.Establishes (DataOk owner) (TaskOk F owner) Apart d
      { d with locked := r.userId :: d.locked } (.request r) [.request (r.withPhase .locked)] := by
  refine establishes_request
    ⟨hd.table, hd.leased, hd.rows, hd.created, hd.exclusive, hd.remembered, hd.once⟩ ?_ ?_ rfl
    (.inl rfl) fun _ => .inr hfree
  · exact
      { clock := hr.clock
        locked := fun _ => List.mem_cons_self
        drawn := hr.drawn
        building := fun hb => by simp [Request.withPhase, building] at hb
        replaying := fun a ha => by simp [Request.withPhase] at ha
        cleared := fun hc => by simp [Request.withPhase, cleared] at hc
        call := fun c hc => by simp [Request.withPhase, callOf] at hc
        user := fun _ hc => absurd rfl hc
        unleased := fun _ => hr.unleased (by simp [hphase, holding])
        rowless := fun _ => hr.rowless (by simp [hphase, answerOf])
        answered := fun a ha => by simp [Request.withPhase, answerOf] at ha }
  · exact ⟨le_rfl, fun _ hv _ => List.mem_cons_of_mem _ hv, fun _ hc => hc, fun _ _ _ _ => rfl,
      fun _ _ _ h => h, fun _ hc => .inl hc, fun _ _ _ h => h, fun _ hb => hb⟩

theorem vacant_establishes {c : Ident} (hd : DataOk owner d) (hr : RequestOk F owner d r)
    (hphase : r.phase = .checked) (hfree : d.busy r.userId = false) (hfresh : c ∉ d.drawn)
    (howner : owner c = r.userId) :
    TaskSystem.Establishes (DataOk owner) (TaskOk F owner) Apart d
      { d with drawn := c :: d.drawn } (.request r)
      [.request { r with call := some c, phase := .acquiring c }] := by
  have hmore : ∀ x ∈ d.drawn, x ∈ c :: d.drawn := fun x hx => List.mem_cons_of_mem c hx
  refine establishes_request
    ⟨hd.table, fun u x hx => hmore x (hd.leased u x hx), fun x hx => hmore x (hd.rows x hx),
      hd.created, hd.exclusive, hd.remembered, hd.once⟩ ?_ ?_ rfl (.inr ⟨c, rfl, hfresh⟩)
    fun _ => .inl (by simp [hphase, inside])
  · exact
      { clock := hr.clock
        locked := fun _ => hr.locked (by simp [hphase, inside])
        drawn := fun x hx => by
          obtain rfl := Option.some.inj hx
          exact ⟨List.mem_cons_self, howner⟩
        building := fun _ => hr.building (by simp [hphase, building])
        replaying := fun a ha => by simp at ha
        cleared := fun _ => hfree
        call := fun x hx => hx
        user := fun hh => by simp [holding] at hh
        unleased := fun _ x hx => by
          obtain rfl := Option.some.inj hx
          rw [Bool.eq_false_iff]
          exact fun hleft => hfresh (hd.leased _ _ hleft)
        rowless := fun _ x hx hrow => by
          obtain rfl := Option.some.inj hx
          exact hfresh (hd.rows _ hrow)
        answered := fun a ha => by simp [answerOf] at ha }
  · exact ⟨le_rfl, fun _ hv _ => hv, hmore, fun _ _ _ _ => rfl, fun _ _ _ h => h,
      fun _ hc => .inl hc, fun _ _ _ h => h, fun _ hb => hb⟩

theorem acquire_user {canonical : Ident → Bool} {s s' : LeaseTable} {u ttlMs limit : ℕ} {c : Ident}
    {a : AcquireResult} (hok : s.acquire canonical u c ttlMs limit = .ok (s', a)) : 1 ≤ u := by
  obtain ⟨_, -, hok⟩ := bind_eq_ok.mp hok
  obtain ⟨_, -, hok⟩ := bind_eq_ok.mp hok
  obtain ⟨_, huser, -⟩ := bind_eq_ok.mp hok
  exact require_eq_ok.mp huser

theorem acquire_establishes {c : Ident} {ttlMs limit : ℕ} {s : LeaseTable} {a : AcquireResult}
    (hd : DataOk owner d) (hr : RequestOk F owner d r) (hphase : r.phase = .acquiring c)
    (hok : d.leases.acquire F.canonical r.userId c ttlMs limit = .ok (s, a)) :
    TaskSystem.Establishes (DataOk owner) (TaskOk F owner) Apart d { d with leases := s } (.request r)
      [.request (r.withPhase (if a = .acquired then .granted c
        else .failing (refusal a) none true))] := by
  have hcall := hr.call c (by simp [hphase, callOf])
  obtain ⟨hdrawn, howner⟩ := hr.drawn c hcall
  have hin : inside r.phase = true := by simp [hphase, inside]
  have htable : TableSound owner s := by
    have hstep : (leases F.canonical).step d.leases (.acquire r.userId c ttlMs limit) = some s := by
      simp [leases, hok, afterCall]
    have hown : OwnCalls owner d.leases (.acquire r.userId c ttlMs limit) := howner.symm
    exact LeaseAgreement.step_sound hd.table hown hstep
  refine establishes_request (hd.leases htable fun u x hx => ?_) ?_
    (spares_leases fun v x hne hx => ?_) rfl (.inl rfl) fun _ => .inl hin
  · by_cases hx' : x = c
    · rw [hx']
      exact hdrawn
    · exact hd.leased u x (leaseLeft_acquire hok hx' hx)
  · split_ifs with ha
    · exact
        { clock := hr.clock
          locked := fun _ => hr.locked hin
          drawn := hr.drawn
          building := fun _ => hr.building (by simp [hphase, building])
          replaying := fun a ha => by simp [Request.withPhase] at ha
          cleared := fun _ => hr.cleared (by simp [hphase, cleared])
          call := fun x hx => hr.call x (by simpa [hphase, callOf, Request.withPhase] using hx)
          user := fun _ _ => acquire_user hok
          unleased := fun hn => by simp [Request.withPhase, holding] at hn
          rowless := fun _ => hr.rowless (by simp [hphase, answerOf])
          answered := fun a ha => by simp [Request.withPhase, answerOf] at ha }
    · have hr' : RequestOk F owner { d with leases := s } r :=
        hr.leases fun x _ hx => leaseLeft_refused hok ha hx
      exact failing_ok hr' (fun _ => hin) (by simp)
        (fun _ => hr'.unleased (by simp [hphase, holding])) (by simp [hphase, answerOf])
  · refine leaseLeft_acquire hok (fun heq => ?_) hx
    exact hne (heq ▸ hcall)

theorem commit_establishes {c jti : Ident} {ttlMs : ℕ} (hd : DataOk owner d)
    (hr : RequestOk F owner d r) (hphase : r.phase = .acquired c) :
    TaskSystem.Establishes (DataOk owner) (TaskOk F owner) Apart d
      ((d.create F r c jti ttlMs).unlock r.userId) (.request r)
      [.request (r.withPhase (.committed (response F (CreateData.newRecord F r c jti ttlMs)
        ⟨c, r.userId, .deciding⟩ r.payload r.now)))] := by
  have hcall := hr.call c (by simp [hphase, callOf])
  refine establishes_request ((create_dataOk hd hr hphase).unlock r.userId) ?_ ?_ rfl (.inl rfl)
    (by simp [Request.withPhase, inside])
  · refine committed_ok ((d.create F r c jti ttlMs).unlock r.userId) hr (le_refl d.clock)
      (fun _ hx => hx) ?_ (.inl rfl)
    exact ⟨_, List.mem_append_right _ (List.mem_singleton_self _), rfl, rfl, rfl, rfl⟩
  · rw [hphase, hcall]
    exact spares_create.trans (spares_unlock _ _)

theorem replay_establishes {a : Answer} (hd : DataOk owner d) (hr : RequestOk F owner d r)
    (hphase : r.phase = .replaying a) :
    TaskSystem.Establishes (DataOk owner) (TaskOk F owner) Apart d
      ((d.replay F r a).unlock r.userId) (.request r) [.request (r.withPhase (.committed a))] := by
  refine establishes_request ((replay_dataOk hd hr hphase).unlock r.userId) ?_ ?_ rfl (.inl rfl)
    (by simp [Request.withPhase, inside])
  · refine committed_ok ((d.replay F r a).unlock r.userId) hr (le_refl d.clock) (fun _ hx => hx) ?_
      (.inl rfl)
    exact ⟨_, List.mem_append_right _ (List.mem_singleton_self _), rfl, rfl, rfl, rfl⟩
  · rw [hphase]
    exact spares_replay.trans (spares_unlock _ _)

theorem RequestOk.unlock {p : Phase} (h : RequestOk F owner d (r.withPhase p))
    (hin : inside p = false) : RequestOk F owner (d.unlock r.userId) (r.withPhase p) :=
  h.spared (spares_unlock r.userId none)
    (fun h' => by simp [Request.withPhase, hin] at h') fun _ _ => by simp

/-- An open transaction ends with a rollback; the request goes on with its clean-up. -/
theorem rollback_establishes {e : PreflightError} {lease : Option Ident} {locked : Bool} {p : Phase}
    (hd : DataOk owner d) (hphase : r.phase = .failing e lease locked)
    (hp : RequestOk F owner d (r.withPhase p)) (hin : inside p = false) :
    TaskSystem.Establishes (DataOk owner) (TaskOk F owner) Apart d
      (if locked then d.unlock r.userId else d) (.request r) [.request (r.withPhase p)] := by
  have hout : inside (r.withPhase p).phase = true → inside r.phase = true ∨ r.userId ∉ d.locked :=
    fun h => by simp [Request.withPhase, hin] at h
  cases locked with
  | true =>
    refine establishes_request (hd.unlock r.userId) (hp.unlock hin) ?_ rfl (.inl rfl) hout
    rw [hphase]
    exact spares_unlock _ _
  | false => exact establishes_request hd hp (Spares.refl _ _ _) rfl (.inl rfl) hout

theorem release_establishes {e : PreflightError} {c : Ident} (hd : DataOk owner d)
    (hr : RequestOk F owner d r) (hphase : r.phase = .releasing e c) :
    TaskSystem.Establishes (DataOk owner) (TaskOk F owner) Apart d
      { d with leases := afterCall d.leases (d.leases.release r.userId c) } (.request r)
      [.request (r.withPhase (.failed e))] := by
  have hcall := hr.call c (by simp [hphase, callOf])
  have howner := (hr.drawn c hcall).2
  have huser := hr.user (by simp [hphase, holding]) (by simp [hphase, callOf])
  have hstep : (leases F.canonical).step d.leases (.release r.userId c) =
      some (afterCall d.leases (d.leases.release r.userId c)) := rfl
  have hown : OwnCalls owner d.leases (.release r.userId c) := trivial
  have htable := LeaseAgreement.step_sound hd.table hown hstep
  have hr' : RequestOk F owner
      { d with leases := afterCall d.leases (d.leases.release r.userId c) } r :=
    hr.leases fun x _ hx => afterCall_release hx
  refine establishes_request (hd.leases htable fun u x hx => hd.leased u x (afterCall_release hx))
    (failed_ok hr' (fun x hx => ?_) (hr'.rowless (by simp [hphase, answerOf])))
    (spares_leases fun v x _ hx => afterCall_release hx) rfl (.inl rfl)
    (by simp [Request.withPhase, inside])
  obtain rfl := Option.some.inj (hcall.symm.trans hx)
  rw [← howner] at huser ⊢
  exact leaseLeft_released hd.table huser

theorem raise_establishes {e : PreflightError} (hd : DataOk owner d) (hr : RequestOk F owner d r)
    (hclean : lateFailure d r (.raise e) = false)
    (hadv : advanceRequest F owner d r (.raise e) = some (d', r')) :
    TaskSystem.Establishes (DataOk owner) (TaskOk F owner) Apart d d' (.request r)
      [.request r'] := by
  have hquiet : holding r.phase = false → answerOf r.phase = none → ∀ locked,
      (locked = true → inside r.phase = true) →
      TaskSystem.Establishes (DataOk owner) (TaskOk F owner) Apart d d (.request r)
        [.request (r.withPhase (.failing e none locked))] := by
    intro hhold hanswer locked hlocked
    exact establishes_same hd
      (failing_ok hr hlocked (by simp) (fun _ => hr.unleased hhold) hanswer) hlocked
  simp only [advanceRequest] at hadv
  cases hphase : r.phase <;> simp only [hphase, reduceCtorEq] at hadv
  case waiting =>
    obtain ⟨rfl, rfl⟩ := Prod.mk.inj (Option.some.inj hadv)
    exact hquiet (by simp [hphase, holding]) (by simp [hphase, answerOf]) false (by simp)
  case locked | replaying a | fresh | checked | acquiring c =>
    obtain ⟨rfl, rfl⟩ := Prod.mk.inj (Option.some.inj hadv)
    exact hquiet (by simp [hphase, holding]) (by simp [hphase, answerOf]) true
      (by simp [hphase, inside])
  case granted c =>
    obtain ⟨rfl, rfl⟩ := Prod.mk.inj (Option.some.inj hadv)
    simp only [lateFailure, hphase] at hclean
    refine establishes_same hd (failing_ok hr (by simp [hphase, inside]) (by simp)
      (fun _ x hx => ?_) (by simp [hphase, answerOf])) (by simp [hphase, inside])
    obtain rfl := Option.some.inj ((hr.call c (by simp [hphase, callOf])).symm.trans hx)
    exact hclean
  case acquired c =>
    obtain ⟨rfl, rfl⟩ := Prod.mk.inj (Option.some.inj hadv)
    refine establishes_same hd (failing_ok hr (by simp [hphase, inside]) (fun x hx => ?_)
      (by simp) (by simp [hphase, answerOf])) (by simp [hphase, inside])
    obtain rfl := Option.some.inj hx
    exact ⟨hr.call c (by simp [hphase, callOf]),
      hr.user (by simp [hphase, holding]) (by simp [hphase, callOf])⟩
  case committed a =>
    obtain ⟨rfl, rfl⟩ := Prod.mk.inj (Option.some.inj hadv)
    simp only [lateFailure, hphase, Option.isSome_eq_false_iff, Option.isNone_iff_eq_none] at hclean
    exact establishes_same hd (failed_ok hr (by simp [hclean]) (by simp [hclean]))
      (by simp [inside])

theorem request_establishes {i : CreateInput} (hd : DataOk owner d) (hr : RequestOk F owner d r)
    (hclean : lateFailure d r i = false) (hadv : advanceRequest F owner d r i = some (d', r')) :
    TaskSystem.Establishes (DataOk owner) (TaskOk F owner) Apart d d' (.request r)
      [.request r'] := by
  cases i
  case lock =>
    simp only [advanceRequest] at hadv
    split_ifs at hadv with h
    obtain ⟨rfl, rfl⟩ := Prod.mk.inj (Option.some.inj hadv)
    exact lock_establishes hd hr h.1 h.2
  case read =>
    simp only [advanceRequest] at hadv
    split_ifs at hadv with hphase
    obtain ⟨rfl, rfl⟩ := Prod.mk.inj (Option.some.inj hadv)
    exact establishes_same hd (read_ok hr hphase) fun _ => by simp [hphase, inside]
  case check =>
    simp only [advanceRequest] at hadv
    by_cases hphase : r.phase = .fresh
    · rw [if_pos hphase] at hadv
      obtain ⟨rfl, rfl⟩ := Prod.mk.inj (Option.some.inj hadv)
      have hin : inside r.phase = true := by simp [hphase, inside]
      have hhold : holding r.phase = false := by simp [hphase, holding]
      have hanswer : answerOf r.phase = none := by simp [hphase, answerOf]
      refine establishes_same hd ?_ fun _ => hin
      split_ifs
      · exact failing_ok hr (fun _ => hin) (by simp) (fun _ => hr.unleased hhold) hanswer
      · exact failing_ok hr (fun _ => hin) (by simp) (fun _ => hr.unleased hhold) hanswer
      · exact inside_ok hr hin hhold (by simp [holding, callOf, cleared])
          (fun _ => hr.building (by simp [hphase, building])) (by simp) ⟨hanswer, rfl⟩
    · rw [if_neg hphase] at hadv
      cases hadv
  case vacant c =>
    simp only [advanceRequest] at hadv
    split_ifs at hadv with hphase hbusy h
    · obtain ⟨rfl, rfl⟩ := Prod.mk.inj (Option.some.inj hadv)
      exact establishes_same hd (failing_ok hr (by simp [hphase, inside]) (by simp)
        (fun _ => hr.unleased (by simp [hphase, holding])) (by simp [hphase, answerOf]))
        (by simp [hphase, inside])
    · obtain ⟨rfl, rfl⟩ := Prod.mk.inj (Option.some.inj hadv)
      exact vacant_establishes hd hr hphase (by simpa using hbusy) h.1 h.2
  case acquire ttlMs limit =>
    simp only [advanceRequest] at hadv
    split at hadv
    · next c hphase =>
      split at hadv
      · obtain ⟨rfl, rfl⟩ := Prod.mk.inj (Option.some.inj hadv)
        exact establishes_same hd (failing_ok hr (by simp [hphase, inside]) (by simp)
          (fun _ => hr.unleased (by simp [hphase, holding])) (by simp [hphase, answerOf]))
          (by simp [hphase, inside])
      · next s hok =>
        obtain ⟨rfl, rfl⟩ := Prod.mk.inj (Option.some.inj hadv)
        exact acquire_establishes hd hr hphase hok
      · next s a hne hok =>
        obtain ⟨rfl, rfl⟩ := Prod.mk.inj (Option.some.inj hadv)
        have hestablishes := acquire_establishes hd hr hphase hok
        rwa [if_neg hne] at hestablishes
    · cases hadv
  case acquired =>
    simp only [advanceRequest] at hadv
    split at hadv
    · next c hphase =>
      obtain ⟨rfl, rfl⟩ := Prod.mk.inj (Option.some.inj hadv)
      refine establishes_same hd ?_ (by simp [hphase, inside])
      exact
        { clock := hr.clock
          locked := fun _ => hr.locked (by simp [hphase, inside])
          drawn := hr.drawn
          building := fun _ => hr.building (by simp [hphase, building])
          replaying := fun a ha => by simp [Request.withPhase] at ha
          cleared := fun _ => hr.cleared (by simp [hphase, cleared])
          call := fun x hx => hr.call x (by simpa [hphase, callOf, Request.withPhase] using hx)
          user := fun _ _ => hr.user (by simp [hphase, holding]) (by simp [hphase, callOf])
          unleased := fun hn => by simp [Request.withPhase, holding] at hn
          rowless := fun _ => hr.rowless (by simp [hphase, answerOf])
          answered := fun a ha => by simp [Request.withPhase, answerOf] at ha }
    · cases hadv
  case commit jti ttlMs =>
    simp only [advanceRequest] at hadv
    split at hadv
    · next c hphase =>
      obtain ⟨rfl, rfl⟩ := Prod.mk.inj (Option.some.inj hadv)
      exact commit_establishes hd hr hphase
    · next a hphase =>
      obtain ⟨rfl, rfl⟩ := Prod.mk.inj (Option.some.inj hadv)
      exact replay_establishes hd hr hphase
    · cases hadv
  case commitFails e applied jti ttlMs =>
    simp only [advanceRequest] at hadv
    split at hadv
    · next c hphase =>
      obtain ⟨rfl, rfl⟩ := Prod.mk.inj (Option.some.inj hadv)
      simp only [lateFailure, hphase] at hclean
      rw [hclean, if_neg (by simp)]
      refine establishes_same hd (failing_ok hr (by simp [hphase, inside]) (fun x hx => ?_)
        (by simp) (by simp [hphase, answerOf])) (by simp [hphase, inside])
      obtain rfl := Option.some.inj hx
      exact ⟨hr.call c (by simp [hphase, callOf]),
        hr.user (by simp [hphase, holding]) (by simp [hphase, callOf])⟩
    · next a hphase =>
      obtain ⟨rfl, rfl⟩ := Prod.mk.inj (Option.some.inj hadv)
      exact establishes_same hd (failing_ok hr (by simp [hphase, inside]) (by simp)
        (fun _ => hr.unleased (by simp [hphase, holding])) (by simp [hphase, answerOf]))
        (by simp [hphase, inside])
    · cases hadv
  case answer =>
    simp only [advanceRequest] at hadv
    split at hadv
    · next a hphase =>
      obtain ⟨rfl, rfl⟩ := Prod.mk.inj (Option.some.inj hadv)
      exact establishes_same hd (committed_ok d hr le_rfl (fun _ hx => hx)
        (hr.answered a (by simp [hphase, answerOf])) (.inr rfl)) (by simp [inside])
    · cases hadv
  case raise e => exact raise_establishes hd hr hclean hadv
  case rollback =>
    simp only [advanceRequest] at hadv
    split at hadv
    · next e lease locked hphase =>
      obtain ⟨rfl, rfl⟩ := Prod.mk.inj (Option.some.inj hadv)
      have hrow := hr.rowless (by simp [hphase, answerOf])
      cases lease with
      | none =>
        exact rollback_establishes hd hphase
          (failed_ok hr (hr.unleased (by simp [hphase, holding])) hrow) rfl
      | some c =>
        refine rollback_establishes hd hphase ?_ rfl
        exact
          { clock := hr.clock
            locked := fun hin => by simp [Request.withPhase, inside] at hin
            drawn := hr.drawn
            building := fun hb => by simp [Request.withPhase, building] at hb
            replaying := fun a ha => by simp [Request.withPhase] at ha
            cleared := fun hc => by simp [Request.withPhase, cleared] at hc
            call := fun x hx => hr.call x (by simpa [hphase, callOf, Request.withPhase] using hx)
            user := fun _ _ => hr.user (by simp [hphase, holding]) (by simp [hphase, callOf])
            unleased := fun hn => by simp [Request.withPhase, holding] at hn
            rowless := fun _ => hrow
            answered := fun a ha => by simp [Request.withPhase, answerOf] at ha }
    · cases hadv
  case rollbackFails =>
    simp only [advanceRequest] at hadv
    split at hadv
    · next e lease locked hphase =>
      obtain ⟨rfl, rfl⟩ := Prod.mk.inj (Option.some.inj hadv)
      have hrow := hr.rowless (by simp [hphase, answerOf])
      refine rollback_establishes hd hphase (failed_ok hr (fun x hx => ?_) hrow) rfl
      cases lease with
      | none => exact hr.unleased (by simp [hphase, holding]) x hx
      | some c =>
        simp only [lateFailure, hphase] at hclean
        obtain rfl := Option.some.inj ((hr.call c (by simp [hphase, callOf])).symm.trans hx)
        exact hclean
    · cases hadv
  case release =>
    simp only [advanceRequest] at hadv
    split at hadv
    · next e c hphase =>
      obtain ⟨rfl, rfl⟩ := Prod.mk.inj (Option.some.inj hadv)
      exact release_establishes hd hr hphase
    · cases hadv
  case releaseFails =>
    simp only [advanceRequest] at hadv
    split at hadv
    · next e c hphase =>
      obtain ⟨rfl, rfl⟩ := Prod.mk.inj (Option.some.inj hadv)
      simp only [lateFailure, hphase] at hclean
      refine establishes_same hd (failed_ok hr (fun x hx => ?_)
        (hr.rowless (by simp [hphase, answerOf]))) (by simp [inside])
      obtain rfl := Option.some.inj ((hr.call c (by simp [hphase, callOf])).symm.trans hx)
      exact hclean
    · cases hadv
  all_goals simp [advanceRequest] at hadv

end Steps

/-! ### Steps of the others -/

section Others

variable {d d' : CreateData}

theorem establishes_others (hd : DataOk owner d') (hs : Spares none none d d') :
    TaskSystem.Establishes (DataOk owner) (TaskOk F owner) Apart d d' .others [.others] := by
  refine ⟨hd, by simp [TaskOk], List.pairwise_singleton _ _, fun u hu _ => ?_⟩
  cases u with
  | others => exact ⟨trivial, fun t' ht' => by simp [Apart]⟩
  | request r =>
    refine ⟨RequestOk.spared hu hs (fun _ => by simp) fun _ _ => by simp, fun t' ht' => ?_⟩
    rw [List.mem_singleton.mp ht']
    exact trivial

theorem active_of_mayBecome {status status' : CallStatus} (h : mayBecome status status' = true) :
    status.active = true := by
  cases status <;> simp_all [mayBecome, VoiceLifecycle.transitions, CallStatus.active]

/-- A row after a transition of some call. -/
def transitioned (call : Ident) (status : CallStatus) (row : CallRow) : CallRow :=
  if row.callId = call ∧ mayBecome row.status status = true then { row with status := status }
  else row

theorem transitioned_spec (call : Ident) (status : CallStatus) (row : CallRow) :
    (transitioned call status row).callId = row.callId ∧
      (transitioned call status row).userId = row.userId ∧
      ((transitioned call status row).status.active = true → row.status.active = true) := by
  unfold transitioned
  split_ifs with h
  · exact ⟨rfl, rfl, fun _ => active_of_mayBecome h.2⟩
  · exact ⟨rfl, rfl, id⟩

theorem transition_establishes (call : Ident) (status : CallStatus) (hd : DataOk owner d) :
    TaskSystem.Establishes (DataOk owner) (TaskOk F owner) Apart d
      { d with calls := d.calls.map (transitioned call status) } .others [.others] := by
  have hids : callIds { d with calls := d.calls.map (transitioned call status) } = callIds d := by
    simp only [callIds, List.map_map]
    exact List.map_congr_left fun row _ => (transitioned_spec call status row).1
  have hinactive : ∀ row : CallRow, row.status.active = false →
      (transitioned call status row).status.active = false := by
    intro row hrow
    rw [Bool.eq_false_iff]
    intro hactive
    rw [(transitioned_spec call status row).2.2 hactive] at hrow
    exact absurd hrow (by simp)
  refine establishes_others ⟨hd.table, hd.leased, ?_, ?_, ?_, hd.remembered, hd.once⟩
    ⟨le_rfl, fun _ hv _ => hv, fun _ hc => hc, fun _ _ _ _ => rfl, fun v _ _ hfree => ?_,
      fun c hc => .inl (hids ▸ hc), fun _ _ _ h => h, fun _ hb => hb⟩
  · rw [hids]
    exact hd.rows
  · rw [hids]
    exact hd.created
  · refine List.pairwise_map.mpr (hd.exclusive.imp fun {a b} hab hsame hactive => ?_)
    rw [(transitioned_spec call status a).2.1, (transitioned_spec call status b).2.1] at hsame
    exact hinactive b (hab hsame ((transitioned_spec call status a).2.2 hactive))
  · rw [busy_eq_false] at hfree ⊢
    intro row hrow huser
    obtain ⟨row₀, hrow₀, rfl⟩ := List.mem_map.mp hrow
    rw [(transitioned_spec call status row₀).2.1] at huser
    exact hinactive row₀ (hfree row₀ hrow₀ huser)

theorem consume_establishes {userId : ℕ} {key : Text} {record : ReplayRecord} (hd : DataOk owner d)
    (hrecord : d.records.lookup (userId, key) = some record) :
    TaskSystem.Establishes (DataOk owner) (TaskOk F owner) Apart d
      { d with
        records := d.records.insert (userId, key)
          { record with ticketConsumedAt := some d.clock } } .others [.others] := by
  have hsame : ∀ v k, remembers { d with
      records := d.records.insert (userId, key)
        { record with ticketConsumedAt := some d.clock } } v k = remembers d v k := by
    intro v k
    unfold remembers
    by_cases hkey : (v, k) = (userId, key)
    · rw [hkey, AList.lookup_insert, hrecord]
      rfl
    · rw [AList.lookup_insert_ne hkey]
  refine establishes_others ⟨hd.table, hd.leased, hd.rows, hd.created, hd.exclusive,
    fun a ha hcreated => ?_, hd.once⟩ ⟨le_rfl, fun _ hv _ => hv, fun _ hc => hc,
      fun v k _ _ => hsame v k, fun _ _ _ h => h, fun _ hc => .inl hc, fun _ _ _ h => h,
      fun _ hb => hb⟩
  rw [hsame]
  exact hd.remembered a ha hcreated

theorem purge_establishes {userId : ℕ} {key : Text} (hd : DataOk owner d)
    (hfree : userId ∉ d.locked)
    (hover : (d.records.lookup (userId, key)).any (fun record => record.replayExpiresAt ≤ d.clock) =
      true) :
    TaskSystem.Establishes (DataOk owner) (TaskOk F owner) Apart d
      { d with records := d.records.erase (userId, key) } .others [.others] := by
  have hother : ∀ v k, (v, k) ≠ (userId, key) →
      remembers { d with records := d.records.erase (userId, key) } v k = remembers d v k :=
    fun v k hkey => congrArg (Option.map core) (AList.lookup_erase_ne hkey)
  refine establishes_others ⟨hd.table, hd.leased, hd.rows, hd.created, hd.exclusive,
    fun a ha hcreated => ?_, hd.once⟩ ⟨le_rfl, fun _ hv _ => hv, fun _ hc => hc,
      fun v k hv _ => hother v k fun heq => hfree ((Prod.mk.inj heq).1 ▸ hv), fun _ _ _ h => h,
      fun _ hc => .inl hc, fun _ _ _ h => h, fun _ hb => hb⟩
  by_cases hkey : (a.userId, a.key) = (userId, key)
  · left
    rcases hd.remembered a ha hcreated with hold | hremembers
    · exact hold
    · obtain ⟨huser, hkey⟩ := Prod.mk.inj hkey
      rw [huser, hkey] at hremembers
      obtain ⟨record, hrecord, hcore⟩ := Option.map_eq_some_iff.mp hremembers
      rw [hrecord, Option.any_some, decide_eq_true_eq] at hover
      rw [← (Prod.mk.inj (Prod.mk.inj hcore).2).2]
      exact hover
  · rw [hother _ _ hkey]
    exact hd.remembered a ha hcreated

theorem others_establishes {i : CreateInput} (hd : DataOk owner d)
    (hadv : advanceOthers F d i = some d') :
    TaskSystem.Establishes (DataOk owner) (TaskOk F owner) Apart d d' .others [.others] := by
  cases i
  case tick clock =>
    simp only [advanceOthers] at hadv
    split_ifs at hadv with hclock
    obtain rfl := Option.some.inj hadv
    refine establishes_others ⟨hd.table, hd.leased, hd.rows, hd.created, hd.exclusive,
      fun a ha hcreated => ?_, hd.once⟩ ⟨hclock, fun _ hv _ => hv, fun _ hc => hc,
        fun _ _ _ _ => rfl, fun _ _ _ h => h, fun _ hc => .inl hc, fun _ _ _ h => h,
        fun _ hb => hb⟩
    rcases hd.remembered a ha hcreated with hover | hremembers
    · exact .inl (hover.trans hclock)
    · exact .inr hremembers
  case lease i =>
    have hi : ∀ u c t l, i ≠ .acquire u c t l := by
      rintro u c t l rfl
      simp [advanceOthers] at hadv
    have hstep : ∃ s, (leases F.canonical).step d.leases i = some s ∧
        d' = { d with leases := s } := by
      cases i with
      | acquire u c t l => exact absurd rfl (hi u c t l)
      | _ =>
        simp only [advanceOthers, Option.map_eq_some_iff] at hadv
        obtain ⟨s, hs, rfl⟩ := hadv
        exact ⟨s, hs, rfl⟩
    obtain ⟨s, hs, rfl⟩ := hstep
    have hown : OwnCalls owner d.leases i := by
      cases i with
      | acquire u c t l => exact absurd rfl (hi u c t l)
      | _ => exact trivial
    refine establishes_others (hd.leases (LeaseAgreement.step_sound hd.table hown hs)
      fun u c hc => hd.leased u c (leaseLeft_others hd.table hi hs hc))
      (spares_leases fun v c _ hc => leaseLeft_others hd.table hi hs hc)
  case transition call status =>
    obtain rfl := Option.some.inj hadv
    exact transition_establishes call status hd
  case consume userId key =>
    obtain ⟨record, hrecord, rfl⟩ := Option.map_eq_some_iff.mp hadv
    exact consume_establishes hd hrecord
  case purge userId key =>
    simp only [advanceOthers] at hadv
    split_ifs at hadv with h
    obtain rfl := Option.some.inj hadv
    exact purge_establishes hd h.1 h.2
  all_goals simp [advanceOthers] at hadv

end Others

/-! ### Runs -/

theorem begin_ok {d : CreateData} (userId : ℕ) (key : Text) (payload : CreateRequest) :
    RequestOk F owner d (begin F d userId key payload) := by
  have hphase : (begin F d userId key payload).phase = .waiting ∨
      ∃ e, (begin F d userId key payload).phase = .failing e none false := by
    simp only [begin]
    split
    · exact .inl rfl
    · exact .inr ⟨_, rfl⟩
  have hcall : (begin F d userId key payload).call = none := rfl
  have hnow : (begin F d userId key payload).now = d.clock := rfl
  rcases hphase with hphase | ⟨e, hphase⟩ <;>
    constructor <;>
    simp [hphase, hcall, hnow, inside, building, cleared, callOf, holding, answerOf]

theorem reachable_holds {w : World CreateData CreateTask}
    (hw : (creations F owner).machine.ReachableUnder (TaskSystem.guard Clean) w) :
    TaskSystem.Holds (DataOk owner) (TaskOk F owner) Apart w := by
  refine TaskSystem.reachableUnder_holds apart_symm ?_ ?_ ?_ hw
  · rintro d ⟨clock, now, rfl⟩
    constructor
    · constructor <;> simp [LeaseTable.new]
    · simp [leaseLeft, LeaseTable.new]
    · simp [callIds]
    · simp [callIds]
    · exact List.Pairwise.nil
    · simp
    · exact List.Pairwise.nil
  · intro d i ts hd haccept
    cases i <;> simp only [creations, reduceCtorEq, Option.some.injEq] at haccept
    case start userId key payload =>
      subst haccept
      refine ⟨by simpa [TaskOk] using begin_ok userId key payload, List.pairwise_singleton _ _,
        fun u t ht => ?_⟩
      rw [List.mem_singleton.mp ht]
      have hout : inside (begin F d userId key payload).phase = false := by
        simp only [begin]
        split <;> rfl
      cases u with
      | others => exact trivial
      | request s => exact ⟨fun _ h => by simp [hout] at h, fun c _ h => by simp [begin] at h⟩
    case others =>
      subst haccept
      refine ⟨by simp [TaskOk], List.pairwise_singleton _ _, fun u t ht => ?_⟩
      rw [List.mem_singleton.mp ht]
      cases u <;> exact trivial
  · intro d t i d' ts hd ht hclean hadv
    cases t with
    | request r =>
      simp only [creations, Option.map_eq_some_iff] at hadv
      obtain ⟨⟨d₁, r'⟩, hadv, heq⟩ := hadv
      obtain ⟨rfl, rfl⟩ := Prod.mk.inj heq
      exact request_establishes hd ht hclean hadv
    | others =>
      simp only [creations, Option.map_eq_some_iff] at hadv
      obtain ⟨d₁, hadv, heq⟩ := hadv
      obtain ⟨rfl, rfl⟩ := Prod.mk.inj heq
      exact others_establishes hd hadv

/-- While a key lives it has one call, which every commit of the key answers, for a payload of the
same digest; the calls are the creations. A request that finds a living record with another digest
is refused. A request that has failed has no call and no lease with time left, and a user never has
two active calls. -/
structure CallsExclusive (F : Formats) (owner : Ident → ℕ) (w : World CreateData CreateTask) : Prop where
  once : w.data.log.Pairwise Once
  calls : callIds w.data = (w.data.log.filter (·.created)).map (·.callId)
  answered : ∀ r a, .request r ∈ w.tasks → r.phase = .committed a ∨ r.phase = .answered a →
    ∃ b ∈ w.data.log, b.userId = r.userId ∧ b.key = r.key ∧ b.digest = F.digest r.payload ∧
      b.callId = a.callId
  reused : ∀ k r record, w.tasks[k]? = some (.request r) → r.phase = .locked →
    w.data.records.lookup (r.userId, r.key) = some record → r.now < record.replayExpiresAt →
    record.digest ≠ F.digest r.payload →
    (creations F owner).machine.step w (.task k .read) =
      some ⟨w.data, w.tasks.eraseIdx k ++
        [.request (r.withPhase (.failing .idempotencyKeyReused none true))]⟩
  failed : ∀ r e c, .request r ∈ w.tasks → r.phase = .failed e → r.call = some c →
    c ∉ callIds w.data ∧ leaseLeft w.data.leases r.userId c = false ∧ ¬ Live w.data.leases c
  exclusive : w.data.calls.Pairwise Exclusive

theorem calls_exclusive (F : Formats) (owner : Ident → ℕ) {w : World CreateData CreateTask}
    (hw : (creations F owner).machine.ReachableUnder (TaskSystem.guard Clean) w) :
    CallsExclusive F owner w := by
  have h := reachable_holds hw
  refine ⟨h.data.once, h.data.created, fun r a hr hphase => ?_, ?_, fun r e c hr hphase hc => ?_,
    h.data.exclusive⟩
  · have hok : RequestOk F owner w.data r := h.tasks _ hr
    refine hok.answered a ?_
    rcases hphase with hphase | hphase <;> simp [hphase, answerOf]
  · intro k r record hk hphase hrecord halive hdigest
    have hread : w.data.read F r = .failing .idempotencyKeyReused none true := by
      simp [CreateData.read, hrecord, halive, hdigest]
    simp [TaskSystem.machine, hk, creations, advanceRequest, hphase, hread]
  · have hok : RequestOk F owner w.data r := h.tasks _ hr
    have hleft := hok.unleased (by simp [hphase, holding]) c hc
    refine ⟨hok.rowless (by simp [hphase, answerOf]) c hc, hleft, ?_⟩
    rintro ⟨e', hactive, hlt⟩
    have hkey := (h.data.table.live c e' hactive hlt).1
    rw [(hok.drawn c hc).2] at hkey
    rw [leaseLeft_iff.mpr ⟨e', hkey, hlt⟩] at hleft
    exact absurd hleft (by simp)

def formats : Formats := ⟨id, fun _ => [], fun _ => true⟩

def homePayload : CreateRequest := ⟨['h', 'o', 'm', 'e'], ['d'], true, true⟩

def emptyData : CreateData := ⟨0, .new 0, [], ∅, [], [], []⟩

/-- The steps of one request, the last in the list of tasks, up to its lease. -/
def towardsLease (key call : Text) : List (TaskSystems.Input CreateInput) :=
  .request (.start 1 key homePayload) ::
    [.lock, .read, .check, .vacant call, .acquire 10000 5].map (.task 0)

/-- A request creates a call, and its repetition replays it. -/
def repeated : List (TaskSystems.Input CreateInput) :=
  towardsLease ['k'] ['c'] ++ [.task 0 .acquired, .task 0 (.commit ['j'] 1000), .task 0 .answer,
    .request (.start 1 ['k'] homePayload), .task 1 .lock, .task 1 .read, .task 1 (.commit [] 0)]

theorem calls_exclusive_repeated :
    let w := (creations formats fun _ => 1).machine.after ⟨emptyData, []⟩ repeated
    w.data.log.map (fun b => (b.callId, b.created)) = [(['c'], true), (['c'], false)] ∧
      CallsExclusive formats (fun _ => 1) w :=
  ⟨by decide, calls_exclusive _ _ (Machine.reachableUnder_after ⟨⟨0, 0, rfl⟩, rfl⟩
    (by decide) (by decide))⟩

/-- A request is cancelled after the script has granted its lease and before `acquire` returns. It
fails, its lease stays, and the next request of the user is refused. -/
theorem lease_left_behind :
    let M := (creations formats fun _ => 1).machine
    let w := M.after ⟨emptyData, []⟩
      (towardsLease ['k'] ['c'] ++ [.task 0 (.raise .cancelled), .task 0 .rollback])
    let w' := M.after w ([.request (.start 1 ['l'] homePayload)] ++
      [.lock, .read, .check, .vacant ['x'], .acquire 10000 5].map (.task 1))
    M.Reachable w ∧ w.tasks.map (fun t => match t with
        | .request r => (r.call, decide (r.phase = .failed .cancelled))
        | .others => (none, false)) = [(some ['c'], true)] ∧
      leaseLeft w.data.leases 1 ['c'] = true ∧
      w'.tasks.map (fun t => match t with
        | .request r => decide (r.phase = .failing .userBusy none true)
        | .others => false) = [false, true] :=
  ⟨Machine.reachable_after ⟨⟨0, 0, rfl⟩, rfl⟩ (by decide), by decide,
    by decide, by decide⟩

end CompanionBackend.CallExclusion

/-!
## What the steps of a create request do

A request locks its user, draws an id, writes its call with the record of its key, and otherwise
moves on. Who relies on the tables needs to know no more of it.
-/
namespace CompanionBackend.CreateEffects

open LeaseScripts CallCreation
open ProviderEvents (Ident)
open CallExclusion (inside)

variable {owner : Ident → ℕ}

/-- The id of a call that has no row yet. -/
def identOf : Phase → Option Ident
  | .acquiring c | .granted c | .acquired c => some c
  | _ => none

/-- What is or will be answered. -/
def pledge : Phase → Option Answer
  | .replaying a | .committed a | .answered a => some a
  | _ => none

/-- The effects of the steps of a request: the data and the phase after them. -/
inductive Effect (F : Formats) (d : CreateData) (r : Request) : CreateInput → CreateData → Phase → Prop
  | lock : r.phase = .waiting → r.userId ∉ d.locked →
    Effect F d r .lock { d with locked := r.userId :: d.locked } .locked
  | read : r.phase = .locked → Effect F d r .read d (d.read F r)
  | vacant (c : Ident) : r.phase = .checked → c ∉ d.drawn →
    Effect F d r (.vacant c) { d with drawn := c :: d.drawn } (.acquiring c)
  | move (i : CreateInput) (leases : LeaseTable) (log : List Outcome) (p : Phase) :
    (inside p = true → inside r.phase = true) →
    (identOf p = none ∨ identOf p = identOf r.phase) → (pledge p = none ∨ pledge p = pledge r.phase) →
    Effect F d r i { d with leases := leases, log := log } p
  | leave (i : CreateInput) (log : List Outcome) (p : Phase) :
    inside r.phase = true → inside p = false → identOf p = none →
    (pledge p = none ∨ pledge p = pledge r.phase) →
    Effect F d r i { d with locked := d.locked.erase r.userId, log := log } p
  | commit (c jti : Ident) (ttl : ℕ) : r.phase = .acquired c →
    Effect F d r (.commit jti ttl) ((d.create F r c jti ttl).unlock r.userId)
      (.committed (response F (CreateData.newRecord F r c jti ttl) ⟨c, r.userId, .deciding⟩
        r.payload r.now))
  | commitFails (e : PreflightError) (c jti : Ident) (ttl : ℕ) : r.phase = .acquired c →
    Effect F d r (.commitFails e true jti ttl) (d.create F r c jti ttl) (.failing e (some c) true)

/-- A step that only moves the request on. -/
theorem Effect.quiet {F : Formats} {d : CreateData} {r : Request} {i : CreateInput} {p : Phase}
    (hin : inside p = true → inside r.phase = true)
    (hid : identOf p = none ∨ identOf p = identOf r.phase)
    (hpledge : pledge p = none ∨ pledge p = pledge r.phase) : Effect F d r i d p :=
  .move i d.leases d.log p hin hid hpledge

theorem effect_of_advance {F : Formats} {d d' : CreateData} {r r' : Request} {i : CreateInput}
    (h : advanceRequest F owner d r i = some (d', r')) :
    Effect F d r i d' r'.phase ∧ r'.userId = r.userId ∧ r'.payload = r.payload := by
  unfold advanceRequest at h
  split at h
  · split_ifs at h with hlock
    obtain ⟨rfl, rfl⟩ := Prod.mk.inj (Option.some.inj h)
    exact ⟨.lock hlock.1 hlock.2, rfl, rfl⟩
  · split_ifs at h with hphase
    obtain ⟨rfl, rfl⟩ := Prod.mk.inj (Option.some.inj h)
    exact ⟨.read hphase, rfl, rfl⟩
  · split_ifs at h with hphase hbrowser hmicrophone
    all_goals
      obtain ⟨rfl, rfl⟩ := Prod.mk.inj (Option.some.inj h)
      refine ⟨.quiet ?_ ?_ ?_, rfl, rfl⟩ <;> simp [Request.withPhase, hphase, inside, identOf, pledge]
  · split_ifs at h with hphase hbusy hfresh
    · obtain ⟨rfl, rfl⟩ := Prod.mk.inj (Option.some.inj h)
      refine ⟨.quiet ?_ ?_ ?_, rfl, rfl⟩ <;> simp [Request.withPhase, hphase, inside, identOf, pledge]
    · obtain ⟨rfl, rfl⟩ := Prod.mk.inj (Option.some.inj h)
      exact ⟨.vacant _ hphase hfresh.1, rfl, rfl⟩
  · split at h
    · rename_i call hphase
      split at h <;> obtain ⟨rfl, rfl⟩ := Prod.mk.inj (Option.some.inj h)
      · refine ⟨.quiet ?_ ?_ ?_, rfl, rfl⟩ <;>
          simp [Request.withPhase, hphase, inside, identOf, pledge]
      · refine ⟨.move _ _ d.log _ ?_ ?_ ?_, rfl, rfl⟩ <;>
          simp [Request.withPhase, hphase, inside, identOf, pledge]
      · refine ⟨.move _ _ d.log _ ?_ ?_ ?_, rfl, rfl⟩ <;>
          simp [Request.withPhase, hphase, inside, identOf, pledge]
    · cases h
  · split at h
    · rename_i call hphase
      obtain ⟨rfl, rfl⟩ := Prod.mk.inj (Option.some.inj h)
      refine ⟨.quiet ?_ ?_ ?_, rfl, rfl⟩ <;> simp [Request.withPhase, hphase, inside, identOf, pledge]
    · cases h
  · split at h
    · rename_i call hphase
      obtain ⟨rfl, rfl⟩ := Prod.mk.inj (Option.some.inj h)
      exact ⟨.commit _ _ _ hphase, rfl, rfl⟩
    · rename_i a hphase
      obtain ⟨rfl, rfl⟩ := Prod.mk.inj (Option.some.inj h)
      refine ⟨.leave _ _ _ ?_ ?_ ?_ ?_, rfl, rfl⟩ <;>
        simp [Request.withPhase, hphase, inside, identOf, pledge]
    · cases h
  · rename_i e applied jti ttl
    split at h
    · rename_i call hphase
      obtain ⟨rfl, rfl⟩ := Prod.mk.inj (Option.some.inj h)
      cases applied
      · refine ⟨.quiet ?_ ?_ ?_, rfl, rfl⟩ <;>
          simp [Request.withPhase, hphase, inside, identOf, pledge]
      · exact ⟨.commitFails _ _ _ _ hphase, rfl, rfl⟩
    · rename_i a hphase
      obtain ⟨rfl, rfl⟩ := Prod.mk.inj (Option.some.inj h)
      refine ⟨.quiet ?_ ?_ ?_, rfl, rfl⟩ <;> simp [Request.withPhase, hphase, inside, identOf, pledge]
    · cases h
  · split at h
    · rename_i a hphase
      obtain ⟨rfl, rfl⟩ := Prod.mk.inj (Option.some.inj h)
      refine ⟨.quiet ?_ ?_ ?_, rfl, rfl⟩ <;> simp [Request.withPhase, hphase, inside, identOf, pledge]
    · cases h
  · split at h
    case h_10 => cases h
    all_goals
      rename_i hphase
      obtain ⟨rfl, rfl⟩ := Prod.mk.inj (Option.some.inj h)
      refine ⟨.quiet ?_ ?_ ?_, rfl, rfl⟩ <;> simp [Request.withPhase, hphase, inside, identOf, pledge]
  · split at h
    · rename_i e lease locked hphase
      obtain ⟨rfl, rfl⟩ := Prod.mk.inj (Option.some.inj h)
      cases locked
      · refine ⟨.quiet ?_ ?_ ?_, rfl, rfl⟩ <;> cases lease <;>
          simp [Request.withPhase, inside, identOf, pledge]
      · refine ⟨.leave _ _ _ ?_ ?_ ?_ ?_, rfl, rfl⟩ <;> cases lease <;>
          simp [Request.withPhase, hphase, inside, identOf, pledge]
    · cases h
  · split at h
    · rename_i e lease locked hphase
      obtain ⟨rfl, rfl⟩ := Prod.mk.inj (Option.some.inj h)
      cases locked
      · refine ⟨.quiet ?_ ?_ ?_, rfl, rfl⟩ <;> simp [Request.withPhase, inside, identOf, pledge]
      · refine ⟨.leave _ _ _ ?_ ?_ ?_ ?_, rfl, rfl⟩ <;>
          simp [Request.withPhase, hphase, inside, identOf, pledge]
    · cases h
  · split at h
    · rename_i e call hphase
      obtain ⟨rfl, rfl⟩ := Prod.mk.inj (Option.some.inj h)
      refine ⟨.move _ _ d.log _ ?_ ?_ ?_, rfl, rfl⟩ <;>
        simp [Request.withPhase, inside, identOf, pledge]
    · cases h
  · split at h
    · rename_i e call hphase
      obtain ⟨rfl, rfl⟩ := Prod.mk.inj (Option.some.inj h)
      refine ⟨.quiet ?_ ?_ ?_, rfl, rfl⟩ <;> simp [Request.withPhase, inside, identOf, pledge]
    · cases h
  · cases h

theorem read_replaying {F : Formats} {d : CreateData} {r : Request} {a : Answer}
    (h : d.read F r = .replaying a) : ∃ k record call, d.records.lookup k = some record ∧
      call ∈ d.calls ∧ call.callId = record.callId ∧ a = response F record call r.payload r.now := by
  unfold CreateData.read at h
  split at h
  · cases h
  · rename_i record hrecord
    split_ifs at h
    split at h
    · cases h
    · rename_i call hcall
      have hid : call.callId = record.callId := by simpa using List.find?_some hcall
      exact ⟨_, record, call, hrecord, List.mem_of_find?_eq_some hcall, hid,
        (Phase.replaying.inj h).symm⟩

theorem read_phase (F : Formats) (d : CreateData) (r : Request) :
    inside (d.read F r) = true ∧ identOf (d.read F r) = none ∧
      ∀ a, pledge (d.read F r) = some a → d.read F r = .replaying a := by
  unfold CreateData.read
  split
  · exact ⟨rfl, rfl, nofun⟩
  · split_ifs
    · exact ⟨rfl, rfl, nofun⟩
    · split
      · exact ⟨rfl, rfl, nofun⟩
      · exact ⟨rfl, rfl, fun a ha => congrArg Phase.replaying (Option.some.inj ha)⟩
    · exact ⟨rfl, rfl, nofun⟩

end CompanionBackend.CreateEffects
