import CompanionBackend.AdminSessions

/-!
# Revoked tokens stay revoked

A token says the version that its account had, and every commit that ends sessions moves the version
of the row away from it. That is so while each of these commits writes one more than the version the
row has; a handler that read the row before another one committed writes a version again.
-/
namespace CompanionBackend.AdminRevocation

open Runs TaskSystems TaskSystem ProviderEvents AdminSessions
open AgentMessages (hour)
open GrowthCounters (Instant)

/-- The versions passed since the token was signed are the revocations since then. -/
structure TokenOk (d : AdminData) (token : AdminToken) : Prop where
  stamp : token.stamp ≤ d.revocations token.adminId
  version : ∀ r, d.accounts token.adminId = some r →
    r.tokenVersion + token.stamp = token.version + d.revocations token.adminId
  hash : ∀ r, d.accounts token.adminId = some r → token.stamp = d.revocations token.adminId →
    r.passwordHash = token.hash

def Tracked (d : AdminData) : Prop := ∀ token ∈ d.issued, TokenOk d token

/-- A login has the row it has locked, and a new password comes with a new version. -/
def Knows (d : AdminData) : AdminTask → Prop
  | .loginLocked id row _ => d.accounts id = some row ∧ d.locked id = true
  | .committing _ (.update c) => c.passwordHash.isSome → c.tokenVersion.isSome
  | _ => True

def holds (t : AdminTask) (id : ℕ) : Prop := t.holdsRow = some id

def Guarded (id : ℕ) (d d' : AdminData) : Prop :=
  d'.accounts id = d.accounts id ∧ d'.locked id = d.locked id

theorem discipline :
    KeyedDiscipline Knows holds (fun d id => d.locked id = true) (fun _ _ => True) Guarded where
  locked {d t id} h hk := by
    cases t with
    | loginLocked id' row password =>
      obtain rfl : id' = id := Option.some.inj hk
      exact h.2
    | _ => cases hk
  stable {d d' t} h _ hguarded := by
    cases t with
    | loginLocked id row password =>
      obtain ⟨haccount, hlocked⟩ := hguarded id rfl
      exact ⟨haccount.trans h.1, hlocked.trans h.2⟩
    | committing id w => cases w <;> exact h
    | _ => exact h

/-- The version that is written is one more than the version of the row. -/
def Fresh (d : AdminData) : AdminTask → AdminInput → Prop
  | .committing id (.update c), .proceed _ .done =>
    ∀ n ∈ c.tokenVersion, ∀ r ∈ d.accounts id, n = r.tokenVersion + 1
  | _, _ => True

instance (d : AdminData) (t : AdminTask) (i : AdminInput) : Decidable (Fresh d t i) := by
  unfold Fresh
  split <;> infer_instance

abbrev StepOk (d d' : AdminData) (t : AdminTask) (ts : List AdminTask) : Prop :=
  KeyedStep Tracked Knows holds (fun d id => d.locked id = true) (fun _ _ => True) Guarded d d' t ts

/-! ### What a write does to the tokens -/

/-- Rows keep their version and their hash. -/
theorem tracked_kept {d d' : AdminData} (h : Tracked d) (hissued : d'.issued = d.issued)
    (hrevocations : d'.revocations = d.revocations)
    (hrow : ∀ id r', d'.accounts id = some r' → ∃ r, d.accounts id = some r ∧
      r'.tokenVersion = r.tokenVersion ∧ r'.passwordHash = r.passwordHash) : Tracked d' := by
  intro token htoken
  have hok := h token (hissued ▸ htoken)
  refine ⟨by rw [hrevocations]; exact hok.stamp, fun r' hr' => ?_, fun r' hr' hstamp => ?_⟩
  · obtain ⟨r, hr, hversion, -⟩ := hrow _ r' hr'
    rw [hversion, hrevocations]
    exact hok.version r hr
  · obtain ⟨r, hr, -, hhash⟩ := hrow _ r' hr'
    rw [hhash]
    exact hok.hash r hr (by rw [hstamp, hrevocations])

/-- The version of one row goes up by one with the count of its revocations. -/
theorem tracked_raised {d d' : AdminData} {id : ℕ} (h : Tracked d) (hissued : d'.issued = d.issued)
    (hrevocations : d'.revocations = Function.update d.revocations id (d.revocations id + 1))
    (hother : ∀ j, j ≠ id → d'.accounts j = d.accounts j)
    (hrow : ∀ r', d'.accounts id = some r' → ∃ r, d.accounts id = some r ∧
      r'.tokenVersion = r.tokenVersion + 1) : Tracked d' := by
  intro token htoken
  have hok := h token (hissued ▸ htoken)
  by_cases hid : token.adminId = id
  · subst hid
    have hcount : d'.revocations token.adminId = d.revocations token.adminId + 1 := by
      rw [hrevocations, Function.update_self]
    have hstamp := hok.stamp
    refine ⟨by omega, fun r' hr' => ?_, fun r' _ heq => ?_⟩
    · obtain ⟨r, hr, hversion⟩ := hrow r' hr'
      have hold := hok.version r hr
      omega
    · omega
  · have hcount : d'.revocations token.adminId = d.revocations token.adminId := by
      rw [hrevocations, Function.update_of_ne hid]
    have haccount := hother _ hid
    refine ⟨by rw [hcount]; exact hok.stamp, fun r hr => ?_, fun r hr heq => ?_⟩
    · rw [hcount]
      exact hok.version r (haccount ▸ hr)
    · exact hok.hash r (haccount ▸ hr) (heq.trans hcount)

theorem tracked_setLock {d : AdminData} {id : ℕ} {b : Bool} (h : Tracked d) :
    Tracked (d.setLock id b) :=
  tracked_kept h rfl rfl fun _ r' hr' => ⟨r', hr', rfl, rfl⟩

/-- One row is written, and it keeps its version and its hash. -/
theorem tracked_setAccount {d : AdminData} {id : ℕ} {r r' : AdminUser} (h : Tracked d)
    (hr : d.accounts id = some r) (hversion : r'.tokenVersion = r.tokenVersion)
    (hhash : r'.passwordHash = r.passwordHash) : Tracked (d.setAccount id (some r')) := by
  refine tracked_kept h rfl rfl fun j s hs => ?_
  by_cases hj : j = id
  · subst hj
    obtain rfl : r' = s := by simpa [AdminData.setAccount] using hs
    exact ⟨r, hr, hversion, hhash⟩
  · exact ⟨s, by simpa [AdminData.setAccount, hj] using hs, rfl, rfl⟩

/-- A new row ends the sessions of the old one. -/
theorem tracked_revoke {d : AdminData} {id : ℕ} {r : AdminUser} {new : Option AdminUser}
    (h : Tracked d) (hr : d.accounts id = some r)
    (hversion : ∀ r' ∈ new, r'.tokenVersion = r.tokenVersion + 1) :
    Tracked ((d.setAccount id new).revoke id) := by
  refine @tracked_raised d _ id h rfl rfl (fun j hj => ?_) fun r' hr' => ?_
  · simp [AdminData.setAccount, AdminData.revoke, hj]
  · have hnew : new = some r' := by simpa [AdminData.setAccount, AdminData.revoke] using hr'
    exact ⟨r, hr, hversion r' hnew⟩

/-- A login signs what the row says. -/
theorem tracked_sign {d d' : AdminData} {id : ℕ} {row : AdminUser} {now : Instant}
    (h : Tracked d') (hissued : d'.issued = d.issued)
    (hrevocations : d'.revocations = d.revocations) (hrow : ∃ r, d'.accounts id = some r ∧
      r.tokenVersion = row.tokenVersion ∧ r.passwordHash = row.passwordHash) :
    Tracked { d' with issued := d.issued ++ [d.sign id row now] } := by
  obtain ⟨r, hr, hversion, hhash⟩ := hrow
  intro token htoken
  rcases List.mem_append.mp htoken with htoken | htoken
  · exact ⟨(h token (hissued ▸ htoken)).stamp, (h token (hissued ▸ htoken)).version,
      (h token (hissued ▸ htoken)).hash⟩
  · obtain rfl := List.mem_singleton.mp htoken
    have hrev : d'.revocations id = d.revocations id := congrFun hrevocations id
    refine ⟨le_of_eq hrev.symm, fun s hs => ?_, fun s hs _ => ?_⟩
    · obtain rfl : r = s := Option.some.inj (hr.symm.trans hs)
      simp only [AdminData.sign, hrev, hversion]
    · obtain rfl : r = s := Option.some.inj (hr.symm.trans hs)
      exact hhash

theorem tracked_loginCommit {verify : Text → Text → Bool} {d : AdminData} {id : ℕ}
    {row : AdminUser} {password : Text} {now : Instant} (h : Tracked d)
    (hrow : d.accounts id = some row) :
    Tracked (d.loginCommit verify id row password now) := by
  have hfree : Tracked (d.setLock id false) := tracked_setLock h
  unfold AdminData.loginCommit
  dsimp only
  split_ifs
  · exact hfree
  · refine @tracked_sign d ((d.setLock id false).setAccount id _) id row now
      (tracked_setAccount hfree hrow rfl rfl) rfl rfl ?_
    exact ⟨{ row with loginFailCount := 0 }, by simp [AdminData.setAccount], rfl, rfl⟩
  · exact tracked_revoke hfree hrow (by simp)
  · exact tracked_setAccount hfree hrow rfl rfl

theorem tracked_commit {d : AdminData} {id : ℕ} {w : Write} {now : Instant} (h : Tracked d)
    (hknows : Knows d (.committing id w))
    (hfresh : Fresh d (.committing id w) (.proceed now .done)) : Tracked (d.commit id w) := by
  unfold AdminData.commit
  split
  · rename_i row c hrow
    dsimp only
    split_ifs with hversion
    · refine tracked_revoke h hrow fun r' hr' => ?_
      obtain ⟨n, hn⟩ := Option.isSome_iff_exists.mp hversion
      obtain rfl := Option.some.inj hr'
      simpa [Change.apply, hn] using hfresh n hn row hrow
    · have hpassword : c.passwordHash = none := by
        have himp : c.passwordHash.isSome → c.tokenVersion.isSome := hknows
        cases hc : c.passwordHash with
        | none => rfl
        | some p => exact absurd (himp (by rw [hc]; rfl)) hversion
      have hnone : c.tokenVersion = none := by simpa using hversion
      refine tracked_setAccount h hrow ?_ ?_
      · simp [Change.apply, hnone]
      · simp [Change.apply, hpassword]
  · rename_i row hrow
    exact tracked_revoke h hrow (by simp)
  · exact h

/-! ### Steps -/

/-- A step that writes nothing and locks nothing. -/
theorem stepOk_same {d : AdminData} {t : AdminTask} {ts : List AdminTask} (hd : Tracked d)
    (hts : ∀ t' ∈ ts, Knows d t' ∧ t'.holdsRow = none) (hsingle : ts.length ≤ 1) :
    StepOk d d t ts where
  data := hd
  frame := trivial
  tasks t' ht' := (hts t' ht').1
  single := hsingle
  guarded _ _ _ := ⟨⟨rfl, rfl⟩, fun t' ht' hk' => by simp [holds, (hts t' ht').2] at hk'⟩

/-- A transaction that ends: it has written at most the row of one account, which others had not
locked. -/
theorem stepOk_end {d d' : AdminData} {t : AdminTask} {id : ℕ} (hd : Tracked d')
    (hother : ∀ j, j ≠ id → Guarded j d d') (hid : holds t id ∨ d.locked id = false) :
    StepOk d d' t [] where
  data := hd
  frame := trivial
  tasks := by simp
  single := by simp
  guarded k hk hlocked := by
    refine ⟨hother k ?_, by simp⟩
    rintro rfl
    rcases hid with hid | hid
    · exact hk hid
    · rw [hid] at hlocked
      cases hlocked

theorem stepOk_abort {d : AdminData} {t : AdminTask} (hd : Tracked d) :
    StepOk d (d.release t) t [] := by
  unfold AdminData.release
  cases hrow : t.holdsRow with
  | none => exact stepOk_same hd (by simp) (by simp)
  | some id =>
    refine @stepOk_end d _ t id (tracked_setLock hd) (fun j hj => ⟨rfl, ?_⟩) (Or.inl hrow)
    simp [AdminData.setLock, hj]

theorem guarded_loginCommit {verify : Text → Text → Bool} {d : AdminData} {id j : ℕ}
    {row : AdminUser} {password : Text} {now : Instant} (hj : j ≠ id) :
    Guarded j d (d.loginCommit verify id row password now) := by
  unfold AdminData.loginCommit
  dsimp only
  split_ifs <;> simp [Guarded, AdminData.setAccount, AdminData.setLock, AdminData.revoke, hj]

theorem guarded_commit {d : AdminData} {id j : ℕ} {w : Write} (hj : j ≠ id) :
    Guarded j d (d.commit id w) := by
  unfold AdminData.commit
  split
  · dsimp only
    split_ifs <;> simp [Guarded, AdminData.setAccount, AdminData.revoke, hj]
  · simp [Guarded, AdminData.setAccount, AdminData.revoke, hj]
  · exact ⟨rfl, rfl⟩

/-- A handler that writes a password writes a version. -/
theorem knows_of_handle {verify : Text → Text → Bool} {id : ℕ} {me : AdminUser}
    {target : Option AdminUser} {req : AdminRequest} {a : AdminAnswer} {d : AdminData}
    {w : Option (ℕ × Write)} (h : handle verify id me target req a = some w) :
    ∀ p ∈ w, Knows d (.committing p.1 p.2) := by
  unfold handle at h
  split at h
  · cases h
    simp [Knows, Change.nothing]
  · split_ifs at h <;> cases h <;> simp [Knows, Change.nothing]
  · cases h
    cases target <;> simp [Knows, Change.nothing]
    grind
  · cases h
    cases target <;> simp
    grind [Knows]
  · cases h
    cases target <;> simp [Knows, Change.nothing]
  · cases h
    cases target <;> simp
    grind [Knows, Change.nothing]
  · cases h

theorem stepOk_of_proceed {verify : Text → Text → Bool} {d d' : AdminData} {t : AdminTask}
    {now : Instant} {a : AdminAnswer} {ts : List AdminTask}
    (h : d.proceed verify now t a = some (d', ts)) (hd : Tracked d) (ht : Knows d t)
    (hfresh : Fresh d t (.proceed now a)) : StepOk d d' t ts := by
  unfold AdminData.proceed at h
  split at h
  · rename_i id password
    split_ifs at h with hlocked
    split at h
    · rename_i row hrow
      cases h
      have hunlocked : d.locked id = false := by simpa using hlocked
      refine ⟨tracked_setLock hd, trivial, ?_, by simp, fun k _ hk => ?_⟩
      · simpa [Knows, AdminData.setLock] using hrow
      · have hne : k ≠ id := by
          rintro rfl
          rw [hunlocked] at hk
          cases hk
        refine ⟨⟨rfl, by simp [AdminData.setLock, hne]⟩, ?_⟩
        simpa [holds, AdminTask.holdsRow] using hne.symm
    · cases h
      exact stepOk_same hd (by simp) (by simp)
  · rename_i id row password
    cases h
    exact stepOk_end (tracked_loginCommit hd ht.1) (fun j hj => guarded_loginCommit hj)
      (Or.inl rfl)
  · rename_i token req
    split at h
    · cases h
      split_ifs
      · exact stepOk_same hd (by simp [Knows, AdminTask.holdsRow]) (by simp)
      · exact stepOk_same hd (by simp) (by simp)
    · cases h
      exact stepOk_same hd (by simp) (by simp)
  · obtain ⟨w, hw, hrest⟩ := Option.map_eq_some_iff.mp h
    cases hrest
    have hknows := knows_of_handle (d := d) hw
    cases w with
    | none => exact stepOk_same hd (by simp) (by simp)
    | some p =>
      have hp := hknows p rfl
      exact stepOk_same hd (by simpa [AdminTask.holdsRow] using hp) (by simp)
  · rename_i id w
    split_ifs at h with hlocked
    cases h
    exact stepOk_end (tracked_commit hd ht hfresh) (fun j hj => guarded_commit hj)
      (Or.inr (by simpa using hlocked))
  · cases h

/-- In runs whose commits all write a fresh version. -/
theorem reachableUnder_tracked {verify : Text → Text → Bool} {w : World AdminData AdminTask}
    (hw : (adminSystem verify).machine.ReachableUnder (guard Fresh) w) : Tracked w.data := by
  refine (reachableUnder_holds (G := Tracked) (T := Knows) (R := Separate holds) separate_symm
    ?_ ?_ ?_ hw).data
  · rintro d ⟨-, hissued⟩
    intro token htoken
    rw [hissued] at htoken
    cases htoken
  · intro d i ts _ hts
    have hfree : ∃ t, ts = [t] ∧ Knows d t ∧ t.holdsRow = none := by
      cases i <;> simp only [adminSystem, Option.some.injEq, reduceCtorEq] at hts <;> subst hts <;>
        exact ⟨_, rfl, trivial, rfl⟩
    obtain ⟨t, rfl, hknows, hnone⟩ := hfree
    refine ⟨by simpa using hknows, List.pairwise_singleton _ _, fun u t' ht' => ?_⟩
    obtain rfl := List.mem_singleton.mp ht'
    exact separate_of_free fun k hk => by simp [holds, hnone] at hk
  · intro d t i d' ts hd ht hfresh hadv
    refine KeyedStep.establishes discipline ?_
    cases i with
    | login id password => cases hadv
    | request token req => cases hadv
    | proceed now a => exact stepOk_of_proceed hadv hd ht hfresh
    | abort =>
      cases hadv
      exact stepOk_abort hd

/-- In every run whose commits write one more than the version of the row, a token is accepted only
while no commit has ended the sessions of its account since it was signed, and the hash that its
password was checked against is still the hash of the account. -/
theorem revoked_stay_revoked (verify : Text → Text → Bool) (w : World AdminData AdminTask)
    (hw : (adminSystem verify).machine.ReachableUnder (guard Fresh) w) (token : AdminToken)
    (now : Instant) (h : w.data.accepts token now = true) :
    w.data.revocations token.adminId = token.stamp ∧
      ∃ row, w.data.accounts token.adminId = some row ∧ row.passwordHash = token.hash := by
  simp only [AdminData.accepts, Bool.and_eq_true, decide_eq_true_eq, Option.any_eq_true] at h
  obtain ⟨hissued, row, hrow, hacc⟩ := h
  have hversion : token.version = row.tokenVersion := by
    simp only [acceptsRow, Bool.decide_and, Bool.and_eq_true, decide_eq_true_eq] at hacc
    exact hacc.2.2.2
  have hok := reachableUnder_tracked hw token hissued
  have hstamp := hok.version row hrow
  have heq : w.data.revocations token.adminId = token.stamp := by omega
  exact ⟨heq, row, hrow, hok.hash row hrow heq.symm⟩

/-- Hashes that show their password. -/
def shown (password hash : Text) : Bool := hash = "h:".toList ++ password

/-- A super administrator 1 and an account 2, which nobody has signed in to. -/
def twoAccounts : AdminData where
  accounts id :=
    if id = 1 then some ⟨"h:Root".toList, .superAdmin, true, false, 0, 0⟩
    else if id = 2 then some ⟨"h:Old".toList, .opsAdmin, true, false, 0, 0⟩ else none
  locked _ := false
  issued := []
  revocations _ := 0

/-- The token of a login that account `id` makes at the time 0. -/
def signed (id : ℕ) (role : Role) (password : String) (version stamp : ℕ) : AdminToken :=
  ⟨id, role, version, 2 * hour, stamp, ("h:" ++ password).toList⟩

/-- A login of account 2 and its logout, and another login after that. -/
def loginsInTurn : List (TaskSystems.Input AdminInput) :=
  [.request (.login 2 "Old".toList), .task 0 (.proceed 0 .done), .task 0 (.proceed 0 .done),
    .request (.request (signed 2 .opsAdmin "Old" 0 0) .logout),
    .task 0 (.proceed 0 .done), .task 0 (.proceed 0 .done), .task 0 (.proceed 0 .done),
    .request (.login 2 "Old".toList), .task 0 (.proceed 0 .done), .task 0 (.proceed 0 .done)]

theorem revoked_stay_revoked_in_turn : ∃ w : World AdminData AdminTask,
    w.data.accepts (signed 2 .opsAdmin "Old" 0 0) 0 = false ∧
      w.data.accepts (signed 2 .opsAdmin "Old" 1 1) 0 = true ∧ w.data.revocations 2 = 1 ∧
      ∃ row, w.data.accounts 2 = some row ∧ row.passwordHash = "h:Old".toList := by
  have hcheck : (((adminSystem shown).machine.run ⟨twoAccounts, []⟩ loginsInTurn).isSome &&
      decide ((adminSystem shown).machine.Guarded (guard Fresh) ⟨twoAccounts, []⟩ loginsInTurn) &&
      decide (((adminSystem shown).machine.after ⟨twoAccounts, []⟩ loginsInTurn).data.accepts
        (signed 2 .opsAdmin "Old" 0 0) 0 = false) &&
      decide (((adminSystem shown).machine.after ⟨twoAccounts, []⟩ loginsInTurn).data.accepts
        (signed 2 .opsAdmin "Old" 1 1) 0 = true)) = true := by
    decide
  simp only [Bool.and_eq_true, decide_eq_true_eq] at hcheck
  obtain ⟨⟨⟨hrun, hguard⟩, hold⟩, hnew⟩ := hcheck
  have hstart : (adminSystem shown).machine.start ⟨twoAccounts, []⟩ :=
    ⟨⟨fun _ => rfl, rfl⟩, rfl⟩
  have hfacts := revoked_stay_revoked shown _
    (Machine.reachableUnder_after hstart hguard hrun) (signed 2 .opsAdmin "Old" 1 1) 0 hnew
  exact ⟨_, hold, hnew, hfacts.1, hfacts.2⟩

/-- Account 2 ends its session while its password is being reset: both have read the version 0.
A login with the old password between the two commits gets the version that the reset writes. -/
theorem overlapping_reset_keeps_token : ∃ (w : World AdminData AdminTask) (token : AdminToken),
    (adminSystem shown).machine.Reachable w ∧ w.tasks = [] ∧ w.data.accepts token 0 = true ∧
      token.stamp < w.data.revocations token.adminId ∧
      w.data.accounts token.adminId ≠ none ∧
      ∀ row, w.data.accounts token.adminId = some row → row.passwordHash ≠ token.hash := by
  have hcheck : ((adminSystem shown).machine.run ⟨twoAccounts, []⟩
      [.request (.login 1 "Root".toList), .task 0 (.proceed 0 .done), .task 0 (.proceed 0 .done),
        .request (.login 2 "Old".toList), .task 0 (.proceed 0 .done), .task 0 (.proceed 0 .done),
        .request (.request (signed 1 .superAdmin "Root" 0 0) (.resetPassword 2)),
        .request (.request (signed 2 .opsAdmin "Old" 0 0) .logout),
        .task 0 (.proceed 0 .done), .task 0 (.proceed 0 .done),
        .task 0 (.proceed 0 (.hashed "h:New".toList)), .task 0 (.proceed 0 .done),
        .task 1 (.proceed 0 .done), .request (.login 2 "Old".toList),
        .task 1 (.proceed 0 .done), .task 1 (.proceed 0 .done), .task 0 (.proceed 0 .done)]).any
      (fun w => w.tasks.isEmpty && w.data.accepts (signed 2 .opsAdmin "Old" 1 1) 0 &&
        decide (1 < w.data.revocations 2) &&
        decide ((w.data.accounts 2).map AdminUser.passwordHash = some "h:New".toList)) = true := by
    decide
  obtain ⟨w, hw, hfacts⟩ := (Option.any_eq_true _ _).mp hcheck
  simp only [Bool.and_eq_true, decide_eq_true_eq, List.isEmpty_iff] at hfacts
  obtain ⟨⟨⟨htasks, haccepts⟩, hrevoked⟩, hhash⟩ := hfacts
  refine ⟨w, signed 2 .opsAdmin "Old" 1 1, ⟨⟨twoAccounts, []⟩, _, ⟨⟨fun _ => rfl, rfl⟩, rfl⟩, hw⟩,
    htasks, haccepts, hrevoked, ?_, fun row hrow heq => ?_⟩
  · intro hnone
    rw [show (signed 2 .opsAdmin "Old" 1 1).adminId = 2 from rfl] at hnone
    rw [hnone] at hhash
    cases hhash
  · have hnew : row.passwordHash = "h:New".toList := by
      have hrow2 : w.data.accounts 2 = some row := hrow
      rw [hrow2] at hhash
      exact Option.some.inj hhash
    have hold : row.passwordHash = "h:Old".toList := heq
    rw [hnew] at hold
    exact absurd hold (by decide)

end CompanionBackend.AdminRevocation
