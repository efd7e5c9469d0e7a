import CompanionBackend.LeaseScripts

/-!
# One lease table in three structures

While every call is leased for one user only, the three structures say the same about
every lease that is live: a user has at most one, and a new lease fits the limit it was
acquired under.
-/
namespace CompanionBackend.LeaseAgreement

open ProviderEvents LeaseScripts Runs

variable {canonical : Ident → Bool} {user : Ident → ℕ}

/-- The lease of the call has not ended yet. -/
def Live (s : LeaseTable) (c : Ident) : Prop := ∃ e, s.active.lookup c = some e ∧ s.now < e

/-- How many leases are live. -/
def liveCount (s : LeaseTable) : ℕ := (above s.active s.now).keys.length

/-- The key of a user that can be read names a call of that user; and the three structures agree on
every lease that is live. -/
structure TableSound (user : Ident → ℕ) (s : LeaseTable) : Prop where
  mine : ∀ u c e, s.userKeys.lookup u = some (c, e) → s.now ≤ e → user c = u
  held : ∀ u c e, s.userKeys.lookup u = some (c, e) → s.now < e →
    s.active.lookup c = some e ∧ s.owners.lookup c = some u
  live : ∀ c e, s.active.lookup c = some e → s.now < e →
    s.userKeys.lookup (user c) = some (c, e) ∧ s.owners.lookup c = some (user c)
  owners : ∀ c u, s.owners.lookup c = some u → user c = u

theorem get_eq_some {s : LeaseTable} {u : ℕ} {c : Ident} :
    s.get u = some c ↔ ∃ e, s.userKeys.lookup u = some (c, e) ∧ s.now ≤ e := by
  unfold LeaseTable.get
  rw [Option.bind_eq_some_iff]
  constructor
  · rintro ⟨⟨c', e⟩, hkey, hread⟩
    split_ifs at hread with hle
    obtain rfl := Option.some.inj hread
    exact ⟨e, hkey, hle⟩
  · rintro ⟨e, hkey, hle⟩
    exact ⟨(c, e), hkey, if_pos hle⟩

theorem tick_sound {s : LeaseTable} {now : ℕ} (h : TableSound user s) (hnow : s.now ≤ now) :
    TableSound user { s with now := now } :=
  ⟨fun u c e hkey hle => h.mine u c e hkey (hnow.trans hle),
    fun u c e hkey hlt => h.held u c e hkey (lt_of_le_of_lt hnow hlt),
    fun c e hactive hlt => h.live c e hactive (lt_of_le_of_lt hnow hlt), h.owners⟩

/-! ### Pruning -/

theorem prune_active {s : LeaseTable} {c : Ident} {e : ℕ} :
    s.pruneExpired.active.lookup c = some e ↔ s.active.lookup c = some e ∧ s.now < e := by
  simp [LeaseTable.pruneExpired, lookup_above]

theorem prune_owners {s : LeaseTable} {c : Ident} {u : ℕ}
    (h : s.pruneExpired.owners.lookup c = some u) : s.owners.lookup c = some u := by
  simp only [LeaseTable.pruneExpired, lookup_hdel] at h
  split_ifs at h
  exact h

theorem prune_owners_live {s : LeaseTable} {c : Ident} {e : ℕ} (hactive : s.active.lookup c = some e)
    (hlt : s.now < e) : s.pruneExpired.owners.lookup c = s.owners.lookup c := by
  have hkept : c ∉ expired s.active s.now := by
    rw [mem_expired]
    rintro ⟨e', he', hle⟩
    obtain rfl := Option.some.inj (hactive.symm.trans he')
    omega
  simp only [LeaseTable.pruneExpired, lookup_hdel, if_neg hkept]

theorem prune_sound {s : LeaseTable} (h : TableSound user s) : TableSound user s.pruneExpired := by
  refine ⟨h.mine, fun u c e hkey hlt => ?_, fun c e hactive hlt => ?_,
    fun c u howner => h.owners c u (prune_owners howner)⟩
  · obtain ⟨hactive, howner⟩ := h.held u c e hkey hlt
    exact ⟨prune_active.mpr ⟨hactive, hlt⟩, (prune_owners_live hactive hlt).trans howner⟩
  · obtain ⟨hactive, -⟩ := prune_active.mp hactive
    obtain ⟨hkey, howner⟩ := h.live c e hactive hlt
    exact ⟨hkey, (prune_owners_live hactive hlt).trans howner⟩

theorem live_prune {s : LeaseTable} {c : Ident} : Live s.pruneExpired c ↔ Live s c := by
  constructor
  · rintro ⟨e, hactive, hlt⟩
    exact ⟨e, (prune_active.mp hactive).1, hlt⟩
  · rintro ⟨e, hactive, hlt⟩
    exact ⟨e, prune_active.mpr ⟨hactive, hlt⟩, hlt⟩

/-! ### Acquiring -/

/-- A lease of the call is written when its user's key names it or cannot be read. -/
theorem written_sound {s s' : LeaseTable} {c : Ident} {expires : ℕ} (h : TableSound user s)
    (hfree : ∀ c', s.get (user c) = some c' → c' = c) (hnow : s'.now = s.now)
    (hkeys : s'.userKeys = s.userKeys.insert (user c) (c, expires))
    (hscores : s'.active = s.active.insert c expires)
    (howner : s'.owners.lookup c = some (user c))
    (howners : ∀ c', c' ≠ c → s'.owners.lookup c' = s.owners.lookup c') : TableSound user s' := by
  have hother : ∀ c', c' ≠ c → ∀ e, s.active.lookup c' = some e → s.now < e → user c' ≠ user c := by
    intro c' hc' e hactive hlt heq
    obtain ⟨hkey, -⟩ := h.live c' e hactive hlt
    exact hc' (hfree c' (get_eq_some.mpr ⟨e, heq ▸ hkey, hlt.le⟩))
  constructor
  · intro u c' e hkey hle
    rw [hkeys] at hkey
    by_cases hu : u = user c
    · subst hu
      obtain ⟨rfl, -⟩ := Prod.mk.injEq .. ▸ Option.some.inj ((AList.lookup_insert _).symm.trans hkey)
      rfl
    · exact h.mine u c' e ((AList.lookup_insert_ne hu).symm.trans hkey) (hnow ▸ hle)
  · intro u c' e hkey hlt
    rw [hkeys] at hkey
    rw [hscores]
    by_cases hu : u = user c
    · subst hu
      obtain ⟨rfl, rfl⟩ :=
        Prod.mk.injEq .. ▸ Option.some.inj ((AList.lookup_insert _).symm.trans hkey)
      exact ⟨AList.lookup_insert _, howner⟩
    · have hkey' := (AList.lookup_insert_ne hu).symm.trans hkey
      rw [hnow] at hlt
      have hc' : c' ≠ c := by
        rintro rfl
        exact hu (h.mine u c' e hkey' hlt.le).symm
      obtain ⟨hactive, hold⟩ := h.held u c' e hkey' hlt
      exact ⟨(AList.lookup_insert_ne hc').trans hactive, (howners c' hc').trans hold⟩
  · intro c' e hactive hlt
    rw [hscores] at hactive
    rw [hkeys]
    by_cases hc' : c' = c
    · subst hc'
      obtain rfl := Option.some.inj ((AList.lookup_insert _).symm.trans hactive)
      exact ⟨AList.lookup_insert _, howner⟩
    · have hactive' := (AList.lookup_insert_ne hc').symm.trans hactive
      rw [hnow] at hlt
      obtain ⟨hkey, hold⟩ := h.live c' e hactive' hlt
      exact ⟨(AList.lookup_insert_ne (hother c' hc' e hactive' hlt)).trans hkey,
        (howners c' hc').trans hold⟩
  · intro c' u hold
    by_cases hc' : c' = c
    · subst hc'
      exact Option.some.inj (howner.symm.trans hold)
    · exact h.owners c' u ((howners c' hc').symm.trans hold)

/-- What `ACQUIRE` does: it prunes, and grants the lease when the user's key is free for the call and
the limit leaves room, or the key names the call. -/
theorem acquireScript_cases (s : LeaseTable) (u : ℕ) (c : Ident) (ttlMs limit : ℕ) :
    (s.acquireScript u c ttlMs limit = (s.pruneExpired, .userBusy) ∧
        ∃ c', s.get u = some c' ∧ c' ≠ c) ∨
      (s.acquireScript u c ttlMs limit = (s.pruneExpired, .capacityFull) ∧ s.get u = none ∧
        limit ≤ liveCount s) ∨
      (s.acquireScript u c ttlMs limit = (s.pruneExpired.grant u c ttlMs, .acquired) ∧
        (s.get u = some c ∨ s.get u = none ∧ liveCount s < limit)) := by
  have hget : s.pruneExpired.get u = s.get u := rfl
  have hcount : s.pruneExpired.active.keys.length = liveCount s := rfl
  unfold LeaseTable.acquireScript
  simp only [hget, hcount]
  cases hkey : s.get u with
  | none =>
    by_cases hfull : limit ≤ liveCount s
    · exact .inr (.inl ⟨if_pos hfull, rfl, hfull⟩)
    · exact .inr (.inr ⟨if_neg hfull, .inr ⟨rfl, not_le.mp hfull⟩⟩)
  | some c' =>
    by_cases hc : c' = c
    · exact .inr (.inr ⟨if_neg (not_not_intro hc), .inl (congrArg some hc)⟩)
    · exact .inl ⟨if_pos hc, c', rfl, hc⟩

theorem acquireScript_sound {s : LeaseTable} (c : Ident) (ttlMs limit : ℕ) (h : TableSound user s) :
    TableSound user (s.acquireScript (user c) c ttlMs limit).1 := by
  rcases acquireScript_cases s (user c) c ttlMs limit with ⟨heq, -⟩ | ⟨heq, -⟩ | ⟨heq, hkey⟩ <;>
    rw [heq]
  · exact prune_sound h
  · exact prune_sound h
  · refine written_sound (prune_sound h) (fun c' hc' => ?_) rfl rfl rfl (AList.lookup_insert _)
      fun c' hc' => AList.lookup_insert_ne hc'
    have hc' : s.get (user c) = some c' := hc'
    rcases hkey with hkey | ⟨hkey, -⟩
    · exact Option.some.inj (hc'.symm.trans hkey)
    · simp [hkey] at hc'

/-! ### Renewing and releasing -/

/-- `RENEW` moves the end of a live lease that its user's key names, or changes nothing. -/
theorem renewScript_cases (s : LeaseTable) (u : ℕ) (c : Ident) (ttlMs : ℕ) :
    s.renewScript u c ttlMs = (s, false) ∨ s.get u = some c ∧ Live s c ∧
      s.renewScript u c ttlMs =
        ({ s with
           userKeys := s.userKeys.insert u (c, s.now + ttlMs)
           active := s.active.insert c (s.now + ttlMs) }, true) := by
  unfold LeaseTable.renewScript
  by_cases hguard : s.get u ≠ some c ∨ (s.active.lookup c).all (fun e => e ≤ s.now) = true
  · exact .inl (if_pos hguard)
  · rw [if_neg hguard]
    rw [not_or, not_not] at hguard
    refine .inr ⟨hguard.1, ?_, rfl⟩
    cases hactive : s.active.lookup c with
    | none => simp [hactive] at hguard
    | some e =>
      refine ⟨e, hactive, ?_⟩
      simpa [hactive] using hguard.2

theorem renewScript_sound {s : LeaseTable} (u : ℕ) (c : Ident) (ttlMs : ℕ) (h : TableSound user s) :
    TableSound user (s.renewScript u c ttlMs).1 := by
  rcases renewScript_cases s u c ttlMs with heq | ⟨hget, ⟨e, hactive, hlt⟩, heq⟩ <;> rw [heq]
  · exact h
  · obtain ⟨e', hkey, hle⟩ := get_eq_some.mp hget
    obtain rfl := h.mine u c e' hkey hle
    refine written_sound h (fun c' hc' => Option.some.inj (hc'.symm.trans hget)) rfl rfl rfl
      (h.live c e hactive hlt).2 fun c' _ => rfl

theorem releaseScript_sound {s : LeaseTable} {u : ℕ} {c : Ident} (h : TableSound user s) :
    TableSound user (s.releaseScript u c).1 := by
  unfold LeaseTable.releaseScript
  by_cases howner : s.owners.lookup c ≠ some u
  · rw [if_pos howner]
    exact h
  rw [if_neg howner]
  rw [not_not] at howner
  obtain rfl := h.owners c u howner
  -- the key is deleted only when it names the call, so the other keys are as before
  have hkept : ∀ v c' e, c' ≠ c → s.now ≤ e → s.userKeys.lookup v = some (c', e) →
      (if s.get (user c) = some c then s.userKeys.erase (user c) else s.userKeys).lookup v =
        some (c', e) := by
    intro v c' e hc' hle hkey
    split_ifs with hget
    · have hv : v ≠ user c := by
        rintro rfl
        exact hc' (Option.some.inj ((get_eq_some.mpr ⟨e, hkey, hle⟩).symm.trans hget))
      rwa [AList.lookup_erase_ne hv]
    · exact hkey
  have hbefore : ∀ v c' e, (if s.get (user c) = some c then s.userKeys.erase (user c)
      else s.userKeys).lookup v = some (c', e) → s.now ≤ e →
      s.userKeys.lookup v = some (c', e) ∧ c' ≠ c := by
    intro v c' e hkey hle
    split_ifs at hkey with hget
    · by_cases hv : v = user c
      · subst hv
        exact absurd ((AList.lookup_erase _ _).symm.trans hkey) (by simp)
      · rw [AList.lookup_erase_ne hv] at hkey
        refine ⟨hkey, ?_⟩
        rintro rfl
        exact hv (h.mine v c' e hkey hle).symm
    · refine ⟨hkey, ?_⟩
      rintro rfl
      obtain rfl := h.mine v c' e hkey hle
      exact hget (get_eq_some.mpr ⟨e, hkey, hle⟩)
  constructor
  · intro v c' e hkey hle
    exact h.mine v c' e (hbefore v c' e hkey hle).1 hle
  · intro v c' e hkey hlt
    obtain ⟨hold, hc'⟩ := hbefore v c' e hkey (le_of_lt hlt)
    obtain ⟨hactive, hold⟩ := h.held v c' e hold hlt
    exact ⟨(AList.lookup_erase_ne hc').trans hactive, (AList.lookup_erase_ne hc').trans hold⟩
  · intro c' e hactive hlt
    by_cases hc' : c' = c
    · subst hc'
      exact absurd ((AList.lookup_erase _ _).symm.trans hactive) (by simp)
    · obtain ⟨hkey, hold⟩ := h.live c' e ((AList.lookup_erase_ne hc').symm.trans hactive) hlt
      exact ⟨hkept (user c') c' e hc' (le_of_lt hlt) hkey, (AList.lookup_erase_ne hc').trans hold⟩
  · intro c' v hold
    by_cases hc' : c' = c
    · subst hc'
      exact absurd ((AList.lookup_erase _ _).symm.trans hold) (by simp)
    · exact h.owners c' v ((AList.lookup_erase_ne hc').symm.trans hold)

/-! ### Runs -/

theorem acquire_ok {s s' : LeaseTable} {u : ℕ} {c : Ident} {ttlMs limit : ℕ} {r : AcquireResult}
    (h : s.acquire canonical u c ttlMs limit = .ok (s', r)) :
    10000 ≤ ttlMs ∧ s.acquireScript u c ttlMs limit = (s', r) := by
  obtain ⟨_, hvalid, h⟩ := bind_eq_ok.mp h
  obtain ⟨_, -, h⟩ := bind_eq_ok.mp h
  obtain ⟨_, -, h⟩ := bind_eq_ok.mp h
  obtain ⟨_, -, hvalid⟩ := bind_eq_ok.mp hvalid
  exact ⟨(require_eq_ok.mp hvalid).1, pure_eq_ok.mp h⟩

theorem renew_ok {s s' : LeaseTable} {u : ℕ} {c : Ident} {ttlMs : ℕ} {b : Bool}
    (h : s.renew canonical u c ttlMs = .ok (s', b)) :
    (s', b) = (s, false) ∨ s.renewScript u c ttlMs = (s', b) := by
  obtain ⟨_, -, h⟩ := bind_eq_ok.mp h
  split at h
  · exact .inr (pure_eq_ok.mp h)
  · exact .inl (pure_eq_ok.mp h).symm

theorem release_ok {s s' : LeaseTable} {u : ℕ} {c : Ident} {b : Bool}
    (h : s.release u c = .ok (s', b)) : s.releaseScript u c = (s', b) := by
  obtain ⟨_, -, h⟩ := bind_eq_ok.mp h
  exact pure_eq_ok.mp h

/-- A property of the table survives a call of the service when the script keeps it. -/
theorem afterCall_of {α : Type} {s : LeaseTable} {r : Except LeaseError (LeaseTable × α)}
    {P : LeaseTable → Prop} (hs : P s) (hok : ∀ s' a, r = .ok (s', a) → P s') :
    P (afterCall s r) := by
  unfold afterCall
  split
  · exact hok _ _ rfl
  · exact hs

/-- A call is acquired for its own user only. -/
def OwnCalls (user : Ident → ℕ) (_ : LeaseTable) : LeaseInput → Prop
  | .acquire u c _ _ => u = user c
  | _ => True

instance (s : LeaseTable) : DecidablePred (OwnCalls user s)
  | .acquire u c _ _ => inferInstanceAs (Decidable (u = user c))
  | .tick _ => isTrue trivial
  | .renew _ _ _ => isTrue trivial
  | .release _ _ => isTrue trivial
  | .prune => isTrue trivial

theorem step_sound {s s' : LeaseTable} {i : LeaseInput} (h : TableSound user s)
    (hown : OwnCalls user s i) (hstep : (leases canonical).step s i = some s') :
    TableSound user s' := by
  cases i with
  | tick now =>
    simp only [leases] at hstep
    split_ifs at hstep with hnow
    obtain rfl := Option.some.inj hstep
    exact tick_sound h hnow
  | acquire u c ttlMs limit =>
    obtain rfl := Option.some.inj hstep
    obtain rfl : u = user c := hown
    refine afterCall_of h fun s' r hok => ?_
    have hscript := acquireScript_sound c ttlMs limit h
    rwa [(acquire_ok hok).2] at hscript
  | renew u c ttlMs =>
    obtain rfl := Option.some.inj hstep
    refine afterCall_of h fun s' b hok => ?_
    rcases renew_ok hok with heq | heq
    · rw [(Prod.mk.inj heq).1]
      exact h
    · have hscript := renewScript_sound u c ttlMs h
      rwa [heq] at hscript
  | release u c =>
    obtain rfl := Option.some.inj hstep
    refine afterCall_of h fun s' b hok => ?_
    have hscript := releaseScript_sound (u := u) (c := c) h
    rwa [release_ok hok] at hscript
  | prune =>
    obtain rfl := Option.some.inj hstep
    exact prune_sound h

theorem reachable_sound {s : LeaseTable} (hs : (leases canonical).ReachableUnder (OwnCalls user) s) :
    TableSound user s := by
  refine Machine.reachableUnder_invariant ?_ (fun s i s' => step_sound) hs
  rintro s ⟨now, rfl⟩
  constructor <;> simp [LeaseTable.new]

theorem liveCount_grant_le (s : LeaseTable) (u : ℕ) (c : Ident) (ttlMs : ℕ) :
    liveCount (s.pruneExpired.grant u c ttlMs) ≤ liveCount s + 1 := by
  simp only [liveCount, LeaseTable.grant, above, AList.keys, List.keys, List.length_map,
    AList.entries_insert]
  refine (List.length_filter_le _ _).trans (Nat.succ_le_succ ?_)
  exact (List.kerase_sublist _ _).length_le

/-- The three structures agree on the live leases, of which every user has at most one; a new lease
fits its limit, unless it is taken again in the very millisecond it ends; and a call that names
another lease changes nothing. -/
structure LeasesAgree (canonical : Ident → Bool) (user : Ident → ℕ) (s : LeaseTable) : Prop where
  single : ∀ c c', Live s c → Live s c' → s.owners.lookup c = s.owners.lookup c' → c = c'
  scores : ∀ c e, s.active.lookup c = some e → s.now < e →
    s.userKeys.lookup (user c) = some (c, e) ∧ s.owners.lookup c = some (user c)
  keys : ∀ u c e, s.userKeys.lookup u = some (c, e) → s.now < e →
    s.active.lookup c = some e ∧ s.owners.lookup c = some u
  capacity : ∀ u c ttlMs limit s', s.acquire canonical u c ttlMs limit = .ok (s', .acquired) →
    ¬ Live s c → s.userKeys.lookup u ≠ some (c, s.now) → Live s' c ∧ liveCount s' ≤ limit
  refused : ∀ u c ttlMs limit s' r, s.acquire canonical u c ttlMs limit = .ok (s', r) →
    r ≠ .acquired → ∀ d, Live s' d ↔ Live s d
  foreignRenew : ∀ u c ttlMs s' b, s.renew canonical u c ttlMs = .ok (s', b) →
    s.get u ≠ some c → s' = s ∧ b = false
  foreignRelease : ∀ u c s' b, s.release u c = .ok (s', b) → s.owners.lookup c ≠ some u →
    s' = s ∧ b = false
  othersRenew : ∀ c e u' c' ttlMs s' b, s.active.lookup c = some e → s.now < e →
    (u', c') ≠ (user c, c) → s.renew canonical u' c' ttlMs = .ok (s', b) →
    s'.active.lookup c = some e
  othersRelease : ∀ c e u' c' s' b, s.active.lookup c = some e → s.now < e →
    (u', c') ≠ (user c, c) → s.release u' c' = .ok (s', b) → s'.active.lookup c = some e

theorem leases_agree (canonical : Ident → Bool) (user : Ident → ℕ) {s : LeaseTable}
    (hs : (leases canonical).ReachableUnder (OwnCalls user) s) : LeasesAgree canonical user s := by
  have h := reachable_sound hs
  constructor
  · rintro c c' ⟨e, hactive, hlt⟩ ⟨e', hactive', hlt'⟩ howners
    obtain ⟨hkey, howner⟩ := h.live c e hactive hlt
    obtain ⟨hkey', howner'⟩ := h.live c' e' hactive' hlt'
    rw [howner, howner', Option.some.injEq] at howners
    rw [howners] at hkey
    exact (Prod.mk.inj (Option.some.inj (hkey.symm.trans hkey'))).1
  · exact h.live
  · exact h.held
  · intro u c ttlMs limit s' hok hnew hlast
    obtain ⟨httl, hscript⟩ := acquire_ok hok
    rcases acquireScript_cases s u c ttlMs limit with ⟨heq, -⟩ | ⟨heq, -⟩ | ⟨heq, hkey⟩ <;>
      rw [hscript, Prod.mk.injEq] at heq
    · exact absurd heq.2 (by simp)
    · exact absurd heq.2 (by simp)
    · obtain ⟨rfl, -⟩ := heq
      refine ⟨⟨s.now + ttlMs, AList.lookup_insert _, show s.now < s.now + ttlMs by omega⟩, ?_⟩
      rcases hkey with hget | ⟨-, hroom⟩
      · obtain ⟨e, hkey, hle⟩ := get_eq_some.mp hget
        rcases hle.lt_or_eq with hlt | rfl
        · exact absurd ⟨e, (h.held u c e hkey hlt).1, hlt⟩ hnew
        · exact absurd hkey hlast
      · exact (liveCount_grant_le s u c ttlMs).trans hroom
  · intro u c ttlMs limit s' r hok hr d
    obtain ⟨-, hscript⟩ := acquire_ok hok
    rcases acquireScript_cases s u c ttlMs limit with ⟨heq, -⟩ | ⟨heq, -⟩ | ⟨heq, -⟩ <;>
      rw [hscript, Prod.mk.injEq] at heq
    · rw [heq.1]
      exact live_prune
    · rw [heq.1]
      exact live_prune
    · exact absurd heq.2 hr
  · intro u c ttlMs s' b hok hforeign
    rcases renew_ok hok with heq | heq
    · exact Prod.mk.inj heq
    · rcases renewScript_cases s u c ttlMs with hsame | ⟨hget, -⟩
      · exact Prod.mk.inj (heq.symm.trans hsame)
      · exact absurd hget hforeign
  · intro u c s' b hok hforeign
    have hsame : s.releaseScript u c = (s, false) := if_pos hforeign
    exact Prod.mk.inj ((release_ok hok).symm.trans hsame)
  · intro c e u' c' ttlMs s' b hactive hlt hne hok
    rcases renew_ok hok with heq | heq
    · rw [(Prod.mk.inj heq).1]
      exact hactive
    · rcases renewScript_cases s u' c' ttlMs with hsame | ⟨hget, -, hwritten⟩
      · rw [(Prod.mk.inj (heq.symm.trans hsame)).1]
        exact hactive
      · obtain ⟨e', hkey, hle⟩ := get_eq_some.mp hget
        obtain rfl := h.mine u' c' e' hkey hle
        have hc : c ≠ c' := by
          rintro rfl
          exact hne rfl
        rw [(Prod.mk.inj (heq.symm.trans hwritten)).1]
        exact (AList.lookup_insert_ne hc).trans hactive
  · intro c e u' c' s' b hactive hlt hne hok
    have hscript := release_ok hok
    unfold LeaseTable.releaseScript at hscript
    by_cases howner : s.owners.lookup c' ≠ some u'
    · rw [if_pos howner] at hscript
      rw [← (Prod.mk.inj hscript).1]
      exact hactive
    · rw [if_neg howner] at hscript
      rw [not_not] at howner
      obtain rfl := h.owners c' u' howner
      have hc : c ≠ c' := by
        rintro rfl
        exact hne rfl
      rw [← (Prod.mk.inj hscript).1]
      exact (AList.lookup_erase_ne hc).trans hactive

/-- Each call is named after its user. -/
def userOf (c : Ident) : ℕ := c.length

/-- Two users, of whom one lets the lease end while the other renews. -/
def twoUsers : List LeaseInput :=
  [.acquire 1 ['a'] 10000 2, .acquire 2 ['b', 'b'] 10000 2, .tick 9000, .renew 2 ['b', 'b'] 10000,
    .renew 1 ['b', 'b'] 10000, .release 1 ['b', 'b'], .tick 11000, .prune]

theorem leases_agree_twoUsers :
    let s := (leases fun _ => true).after (.new 0) twoUsers
    s.active.keys = [['b', 'b']] ∧ LeasesAgree (fun _ => true) userOf s :=
  ⟨by decide, leases_agree _ userOf
    (Machine.reachableUnder_after ⟨0, rfl⟩ (by decide) (by decide))⟩

/-- A call that two users acquire keeps two leases of one user alive; and a lease that is taken again
in the millisecond it ends takes no notice of the limit. -/
theorem shared_call_and_last_millisecond :
    let M := leases fun _ => true
    let s := M.after (.new 0) [.acquire 2 ['b'] 60000 9, .acquire 1 ['b'] 10000 9,
      .renew 2 ['b'] 60000, .tick 20000, .acquire 1 ['a'] 60000 9]
    let t := M.after (.new 0) [.acquire 1 ['a'] 10000 1, .tick 10000, .acquire 2 ['b'] 10000 1]
    M.Reachable s ∧ Live s ['a'] ∧ Live s ['b'] ∧ s.owners.lookup ['a'] = some 1 ∧
      s.owners.lookup ['b'] = some 1 ∧
      M.Reachable t ∧ ¬ Live t ['a'] ∧ (t.acquireScript 1 ['a'] 10000 1).2 = .acquired ∧
      liveCount (t.acquireScript 1 ['a'] 10000 1).1 = 2 :=
  ⟨Machine.reachable_after ⟨0, rfl⟩ (by decide),
    ⟨80000, by decide, by decide⟩, ⟨60000, by decide, by decide⟩,
    by decide, by decide, Machine.reachable_after ⟨0, rfl⟩ (by decide),
    fun ⟨e, he, _⟩ => by
      have hnone : ((leases fun _ => true).after (.new 0) [.acquire 1 ['a'] 10000 1, .tick 10000,
        .acquire 2 ['b'] 10000 1]).active.lookup ['a'] = none := by decide
      exact absurd (hnone.symm.trans he) (by simp),
    by decide, by decide⟩

end CompanionBackend.LeaseAgreement
