import Mathlib.Data.List.AList
import CompanionBackend.ProviderEvents
import CompanionBackend.Runs

/-!
# The lease scripts

A lease of a call lives in three Redis structures: a key of its user that expires, a
sorted set of calls by the time their leases end, and a hash of the calls' owners. A
script runs at one instant. Times are milliseconds of the Redis clock; a key can still
be read in the millisecond it ends. Metrics and the cooldown are left out.
-/
namespace CompanionBackend.LeaseScripts

open ProviderEvents Runs

/-- The user keys with the time they expire, the sorted set and the hash. -/
structure LeaseTable where
  now : ℕ
  userKeys : AList fun _ : ℕ => Ident × ℕ
  active : AList fun _ : Ident => ℕ
  owners : AList fun _ : Ident => ℕ

inductive AcquireResult
  | acquired | userBusy | capacityFull
  deriving DecidableEq, Repr

inductive LeaseError
  | invalidUserId | invalidCallId | invalidLeaseTtl | invalidGlobalLimit
  deriving DecidableEq, Repr

/-- What `ZREMRANGEBYSCORE -inf now` leaves of a sorted set. -/
def above (scores : AList fun _ : Ident => ℕ) (now : ℕ) : AList fun _ : Ident => ℕ :=
  ⟨scores.entries.filter fun p => now < p.2, scores.nodupKeys.sublist List.filter_sublist⟩

/-- `ZRANGEBYSCORE -inf now`. -/
def expired (scores : AList fun _ : Ident => ℕ) (now : ℕ) : List Ident :=
  (scores.entries.filter fun p => p.2 ≤ now).map (·.1)

theorem lookup_above (scores : AList fun _ : Ident => ℕ) (now : ℕ) (c : Ident) :
    (above scores now).lookup c = (scores.lookup c).filter fun e => now < e := by
  ext e
  rw [← Option.mem_def, AList.mem_lookup_iff, Option.filter_eq_some_iff, ← Option.mem_def,
    AList.mem_lookup_iff]
  simp [above]

theorem mem_expired {scores : AList fun _ : Ident => ℕ} {now : ℕ} {c : Ident} :
    c ∈ expired scores now ↔ ∃ e, scores.lookup c = some e ∧ e ≤ now := by
  simp only [expired, List.mem_map, List.mem_filter, decide_eq_true_eq, ← Option.mem_def,
    AList.mem_lookup_iff]
  constructor
  · rintro ⟨⟨c', e⟩, ⟨hmem, hle⟩, rfl⟩
    exact ⟨e, hmem, hle⟩
  · rintro ⟨e, hmem, hle⟩
    exact ⟨⟨c, e⟩, ⟨hmem, hle⟩, rfl⟩

/-- `HDEL` for each of some calls. -/
def hdel (owners : AList fun _ : Ident => ℕ) (calls : List Ident) : AList fun _ : Ident => ℕ :=
  calls.foldl (fun h c => h.erase c) owners

theorem lookup_hdel (owners : AList fun _ : Ident => ℕ) (calls : List Ident) (c : Ident) :
    (hdel owners calls).lookup c = if c ∈ calls then none else owners.lookup c := by
  induction calls generalizing owners with
  | nil => rfl
  | cons d calls ih =>
    rw [hdel, List.foldl_cons]
    rw [show calls.foldl (fun h c => h.erase c) (owners.erase d) = hdel (owners.erase d) calls from
      rfl, ih]
    by_cases hc : c = d
    · subst hc
      simp [AList.lookup_erase]
    · simp [hc, AList.lookup_erase_ne hc]

namespace LeaseTable

def new (now : ℕ) : LeaseTable := ⟨now, ∅, ∅, ∅⟩

/-- `GET` of the user's key. -/
def get (s : LeaseTable) (user : ℕ) : Option Ident :=
  (s.userKeys.lookup user).bind fun v => if s.now ≤ v.2 then some v.1 else none

/-- `PRUNE_EXPIRED`, which `ACQUIRE` begins with. -/
def pruneExpired (s : LeaseTable) : LeaseTable :=
  { s with active := above s.active s.now, owners := hdel s.owners (expired s.active s.now) }

/-- The writes of a successful `ACQUIRE`. -/
def grant (s : LeaseTable) (user : ℕ) (call : Ident) (ttlMs : ℕ) : LeaseTable :=
  { s with
    userKeys := s.userKeys.insert user (call, s.now + ttlMs)
    active := s.active.insert call (s.now + ttlMs)
    owners := s.owners.insert call user }

/-- `ACQUIRE`. -/
def acquireScript (s : LeaseTable) (user : ℕ) (call : Ident) (ttlMs limit : ℕ) :
    LeaseTable × AcquireResult :=
  let s := s.pruneExpired
  match s.get user with
  | some owner => if owner ≠ call then (s, .userBusy) else (s.grant user call ttlMs, .acquired)
  | none =>
    if limit ≤ s.active.keys.length then (s, .capacityFull)
    else (s.grant user call ttlMs, .acquired)

/-- `RENEW`. -/
def renewScript (s : LeaseTable) (user : ℕ) (call : Ident) (ttlMs : ℕ) : LeaseTable × Bool :=
  if s.get user ≠ some call ∨ (s.active.lookup call).all (fun e => e ≤ s.now) then (s, false)
  else
    ({ s with
       userKeys := s.userKeys.insert user (call, s.now + ttlMs)
       active := s.active.insert call (s.now + ttlMs) }, true)

/-- `RELEASE`. -/
def releaseScript (s : LeaseTable) (user : ℕ) (call : Ident) : LeaseTable × Bool :=
  if s.owners.lookup call ≠ some user then (s, false)
  else
    ({ s with
       userKeys := if s.get user = some call then s.userKeys.erase user else s.userKeys
       active := s.active.erase call
       owners := s.owners.erase call }, true)

/-! ### The service -/

/-- `user_key` refuses what is no user id. -/
def userKey (user : ℕ) : Except LeaseError Unit := require (1 ≤ user) .invalidUserId

/-- `validate`; `canonical` says whether a text is the usual form of a UUID. -/
def validate (canonical : Ident → Bool) (call : Ident) (ttlMs : ℕ) : Except LeaseError Unit := do
  require (canonical call = true) .invalidCallId
  require (10000 ≤ ttlMs ∧ ttlMs ≤ 60000) .invalidLeaseTtl

def acquire (canonical : Ident → Bool) (s : LeaseTable) (user : ℕ) (call : Ident)
    (ttlMs limit : ℕ) : Except LeaseError (LeaseTable × AcquireResult) := do
  validate canonical call ttlMs
  require (1 ≤ limit) .invalidGlobalLimit
  userKey user
  return s.acquireScript user call ttlMs limit

/-- A user id that is refused counts as a failed renewal. -/
def renew (canonical : Ident → Bool) (s : LeaseTable) (user : ℕ) (call : Ident) (ttlMs : ℕ) :
    Except LeaseError (LeaseTable × Bool) := do
  validate canonical call ttlMs
  match userKey user with
  | .ok _ => return s.renewScript user call ttlMs
  | .error _ => return (s, false)

def release (s : LeaseTable) (user : ℕ) (call : Ident) : Except LeaseError (LeaseTable × Bool) := do
  userKey user
  return s.releaseScript user call

end LeaseTable

/-! ### Runs -/

inductive LeaseInput
  | tick (now : ℕ)
  | acquire (user : ℕ) (call : Ident) (ttlMs limit : ℕ)
  | renew (user : ℕ) (call : Ident) (ttlMs : ℕ)
  | release (user : ℕ) (call : Ident)
  | prune
  deriving DecidableEq, Repr

/-- The table after a call of the service; a refused call leaves it as it was. -/
def afterCall {α : Type} (s : LeaseTable) (r : Except LeaseError (LeaseTable × α)) : LeaseTable :=
  match r with
  | .ok (s', _) => s'
  | .error _ => s

/-- Scripts of any processes, one after another, while the clock goes on. -/
def leases (canonical : Ident → Bool) : Machine LeaseTable LeaseInput where
  start s := ∃ now, s = .new now
  step s
    | .tick now => if s.now ≤ now then some { s with now := now } else none
    | .acquire user call ttlMs limit =>
      some (afterCall s (s.acquire canonical user call ttlMs limit))
    | .renew user call ttlMs => some (afterCall s (s.renew canonical user call ttlMs))
    | .release user call => some (afterCall s (s.release user call))
    | .prune => some s.pruneExpired

end CompanionBackend.LeaseScripts
