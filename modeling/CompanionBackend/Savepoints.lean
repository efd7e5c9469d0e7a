import Mathlib.Data.List.Basic

/-!
# Nested transactions of a session

A session has at most one outer transaction and savepoints nested in it. While it
writes pending objects it also opens an internal transaction below the innermost
one. A listener on rollbacks is given the transaction object that was rolled back.
-/
namespace CompanionBackend.Savepoints

/-- The transaction objects of a session, told apart by the number they were made with. -/
inductive SessionTransaction
  | root (id : ℕ)
  | savepoint (id : ℕ) (parent : SessionTransaction)
  | subtransaction (id : ℕ) (parent : SessionTransaction)
  deriving DecidableEq

namespace SessionTransaction

def id : SessionTransaction → ℕ
  | .root n => n
  | .savepoint n _ => n
  | .subtransaction n _ => n

def nested : SessionTransaction → Bool
  | .savepoint _ _ => true
  | _ => false

def parent : SessionTransaction → Option SessionTransaction
  | .root _ => none
  | .savepoint _ p => some p
  | .subtransaction _ p => some p

/-- A transaction and those it is nested in, innermost first. -/
@[grind =] def lineage : SessionTransaction → List SessionTransaction
  | .root n => [.root n]
  | .savepoint n p => .savepoint n p :: p.lineage
  | .subtransaction n p => .subtransaction n p :: p.lineage

/-- The outer transaction. -/
@[grind =] def outermost : SessionTransaction → SessionTransaction
  | .root n => .root n
  | .savepoint _ p => p.outermost
  | .subtransaction _ p => p.outermost

theorem self_mem_lineage (t : SessionTransaction) : t ∈ t.lineage := by
  cases t <;> simp [lineage]

theorem mem_lineage_cases {a t : SessionTransaction} (h : a ∈ t.lineage) :
    a = t ∨ ∃ p, t.parent = some p ∧ a ∈ p.lineage := by
  cases t with
  | root n => exact .inl (by simpa [lineage] using h)
  | savepoint n p => simpa [lineage, parent] using h
  | subtransaction n p => simpa [lineage, parent] using h

theorem parent_lineage {a t p : SessionTransaction} (hp : t.parent = some p)
    (h : a ∈ p.lineage) : a ∈ t.lineage := by
  cases t with
  | root n => simp [parent] at hp
  | savepoint n q =>
    obtain rfl : q = p := by simpa [parent] using hp
    exact List.mem_cons_of_mem _ h
  | subtransaction n q =>
    obtain rfl : q = p := by simpa [parent] using hp
    exact List.mem_cons_of_mem _ h

theorem lineage_trans {a b c : SessionTransaction} (hab : a ∈ b.lineage)
    (hbc : b ∈ c.lineage) : a ∈ c.lineage := by
  induction c with
  | root n =>
    obtain rfl : b = .root n := by simpa [lineage] using hbc
    exact hab
  | savepoint n p ih =>
    rcases mem_lineage_cases hbc with rfl | ⟨q, hq, hb⟩
    · exact hab
    · obtain rfl : p = q := by simpa [parent] using hq
      exact List.mem_cons_of_mem _ (ih hb)
  | subtransaction n p ih =>
    rcases mem_lineage_cases hbc with rfl | ⟨q, hq, hb⟩
    · exact hab
    · obtain rfl : p = q := by simpa [parent] using hq
      exact List.mem_cons_of_mem _ (ih hb)

theorem sizeOf_lineage {a t : SessionTransaction} (h : a ∈ t.lineage) : sizeOf a ≤ sizeOf t := by
  induction t with
  | root n =>
    obtain rfl : a = .root n := by simpa [lineage] using h
    exact Nat.le_refl _
  | savepoint n p ih =>
    rcases mem_lineage_cases h with rfl | ⟨q, hq, ha⟩
    · exact Nat.le_refl _
    · obtain rfl : p = q := by simpa [parent] using hq
      have := ih ha
      simp only [savepoint.sizeOf_spec]
      omega
  | subtransaction n p ih =>
    rcases mem_lineage_cases h with rfl | ⟨q, hq, ha⟩
    · exact Nat.le_refl _
    · obtain rfl : p = q := by simpa [parent] using hq
      have := ih ha
      simp only [subtransaction.sizeOf_spec]
      omega

/-- No transaction is nested in itself. -/
theorem not_mem_parent_lineage {t p : SessionTransaction} (hp : t.parent = some p) :
    t ∉ p.lineage := by
  intro h
  have hsize := sizeOf_lineage h
  cases t with
  | root n => simp [parent] at hp
  | savepoint n q =>
    obtain rfl : q = p := by simpa [parent] using hp
    simp only [savepoint.sizeOf_spec] at hsize
    omega
  | subtransaction n q =>
    obtain rfl : q = p := by simpa [parent] using hp
    simp only [subtransaction.sizeOf_spec] at hsize
    omega

theorem outermost_mem_lineage (t : SessionTransaction) : t.outermost ∈ t.lineage := by
  induction t with
  | root n => exact self_mem_lineage _
  | savepoint n p ih => exact List.mem_cons_of_mem _ ih
  | subtransaction n p ih => exact List.mem_cons_of_mem _ ih

theorem outermost_parent (t : SessionTransaction) : t.outermost.parent = none := by
  induction t with
  | root n => rfl
  | savepoint n p ih => exact ih
  | subtransaction n p ih => exact ih

end SessionTransaction

/-- The operations of a session. `rollbackTo`, `failFlush` and `rollback` also say which
transactions the listeners on rollbacks are called with, in order. -/
structure SessionApi (σ : Type*) where
  /-- The innermost transaction begun and not yet ended, between two operations. -/
  current : σ → Option SessionTransaction
  /-- The innermost transaction has to be rolled back before anything else. -/
  failed : σ → Bool
  /-- Every transaction object made so far has a smaller number. -/
  born : σ → ℕ
  getTransaction : σ → Option SessionTransaction
  getNestedTransaction : σ → Option SessionTransaction
  autobegin : σ → Option σ
  beginNested : σ → Option σ
  release : σ → SessionTransaction → Option σ
  rollbackTo : σ → SessionTransaction → Option (σ × List SessionTransaction)
  failFlush : σ → Option (σ × List SessionTransaction)
  commit : σ → Option σ
  rollback : σ → σ × List SessionTransaction

namespace SessionApi

variable {σ : Type*}

/-- Transactions open in a session, innermost first. -/
def opened (A : SessionApi σ) (s : σ) : List SessionTransaction :=
  ((A.current s).map SessionTransaction.lineage).getD []

/-- No transaction has been begun and no object made for one is in use. -/
def Fresh (A : SessionApi σ) (s : σ) : Prop :=
  A.current s = none ∧ A.failed s = false

/-- What the session documents about its operations. -/
structure Lawful (A : SessionApi σ) : Prop where
  getTransaction : ∀ s, A.getTransaction s = (A.current s).map SessionTransaction.outermost
  getNestedTransaction : ∀ s, A.getNestedTransaction s = (A.opened s).find? SessionTransaction.nested
  autobegin : ∀ s s', A.autobegin s = some s' → A.current s = none ∧
    A.current s' = some (.root (A.born s)) ∧ A.born s < A.born s' ∧ A.failed s' = false
  beginNested : ∀ s s', A.beginNested s = some s' → ∃ c, A.current s = some c ∧
    A.failed s = false ∧ A.current s' = some (.savepoint (A.born s) c) ∧ A.born s < A.born s' ∧
    A.failed s' = false
  /-- A released savepoint ends together with those opened in it. -/
  release : ∀ s t s', A.release s t = some s' → t ∈ A.opened s ∧ t.nested = true ∧
    A.failed s = false ∧ A.current s' = t.parent ∧ A.born s ≤ A.born s' ∧ A.failed s' = false
  /-- Listeners hear of the transaction rolled back, not of those inside it. -/
  rollbackTo : ∀ s t s' fired, A.rollbackTo s t = some (s', fired) → t ∈ A.opened s ∧
    fired = [t] ∧ A.current s' = t.parent ∧ A.born s ≤ A.born s' ∧ A.failed s' = false
  /-- A flush that fails rolls its internal transaction back and spoils the innermost one. -/
  failFlush : ∀ s s' fired, A.failFlush s = some (s', fired) → ∃ c n, A.current s = some c ∧
    A.failed s = false ∧ fired = [.subtransaction n c] ∧ A.current s' = some c ∧
    A.born s ≤ A.born s' ∧ A.failed s' = true
  commit : ∀ s s', A.commit s = some s' → A.failed s = false ∧ A.current s' = none ∧
    A.born s ≤ A.born s' ∧ A.failed s' = false
  rollback : ∀ s, (A.rollback s).2 = A.opened s ∧ A.current (A.rollback s).1 = none ∧
    A.born s ≤ A.born (A.rollback s).1 ∧ A.failed (A.rollback s).1 = false

theorem mem_opened {A : SessionApi σ} {s : σ} {t : SessionTransaction} :
    t ∈ A.opened s ↔ ∃ c, A.current s = some c ∧ t ∈ c.lineage := by
  unfold opened
  cases A.current s <;> simp

end SessionApi

/-- A session kept as the numbers of its open transactions, innermost first. -/
structure StackSession where
  stack : List ℕ
  failed : Bool
  born : ℕ
  deriving DecidableEq

namespace StackSession

/-- A new transaction inside the innermost one. -/
def nest (n : ℕ) : Option SessionTransaction → SessionTransaction
  | none => .root n
  | some p => .savepoint n p

/-- The innermost transaction of a stack of numbers. -/
@[grind =] def handle : List ℕ → Option SessionTransaction
  | [] => none
  | n :: rest => some (nest n (handle rest))

/-- The numbers below a transaction of the stack. -/
@[grind =] def below (t : SessionTransaction) : List ℕ → Option (List ℕ)
  | [] => none
  | n :: rest => if handle (n :: rest) = some t then some rest else below t rest

/-- The session whose whole state is its stack. -/
def api : SessionApi StackSession where
  current s := handle s.stack
  failed s := s.failed
  born s := s.born
  getTransaction s := (handle s.stack).map SessionTransaction.outermost
  getNestedTransaction s :=
    (((handle s.stack).map SessionTransaction.lineage).getD []).find? SessionTransaction.nested
  autobegin s := if s.stack = [] then some ⟨[s.born], false, s.born + 1⟩ else none
  beginNested s :=
    if s.stack ≠ [] ∧ s.failed = false then some ⟨s.born :: s.stack, false, s.born + 1⟩ else none
  release s t :=
    if t.nested = true ∧ s.failed = false then
      (below t s.stack).map fun rest => ⟨rest, false, s.born⟩
    else none
  rollbackTo s t := (below t s.stack).map fun rest => (⟨rest, false, s.born⟩, [t])
  failFlush s :=
    match handle s.stack, s.failed with
    | some c, false => some (⟨s.stack, true, s.born + 1⟩, [.subtransaction s.born c])
    | _, _ => none
  commit s := if s.failed = false then some ⟨[], false, s.born⟩ else none
  rollback s := (⟨[], false, s.born⟩, ((handle s.stack).map SessionTransaction.lineage).getD [])

theorem nest_parent (n : ℕ) (p : Option SessionTransaction) : (nest n p).parent = p := by
  cases p <;> rfl

theorem handle_eq_none {stack : List ℕ} : handle stack = none ↔ stack = [] := by
  cases stack <;> simp [handle]

/-- What lies below a transaction of the stack is what it is nested in. -/
theorem below_spec {t : SessionTransaction} {stack rest : List ℕ}
    (h : below t stack = some rest) :
    handle rest = t.parent ∧ ∃ c, handle stack = some c ∧ t ∈ c.lineage := by
  induction stack with
  | nil => simp [below] at h
  | cons n tail ih =>
    unfold below at h
    split_ifs at h with ht
    · obtain rfl : tail = rest := by simpa using h
      obtain rfl : nest n (handle tail) = t := by simpa [handle] using ht
      exact ⟨(nest_parent n _).symm, _, rfl, SessionTransaction.self_mem_lineage _⟩
    · obtain ⟨hparent, c, hc, hmem⟩ := ih h
      refine ⟨hparent, .savepoint n c, by simp [handle, nest, hc], ?_⟩
      exact List.mem_cons_of_mem _ hmem

theorem lawful : api.Lawful where
  getTransaction _ := rfl
  getNestedTransaction _ := rfl
  autobegin := by
    intro s s' h
    obtain ⟨hstack, rfl⟩ : s.stack = [] ∧ _ := by simpa [api] using h
    simp [api, hstack, handle, nest]
  beginNested := by
    intro s s' h
    obtain ⟨⟨hstack, hfailed⟩, rfl⟩ :
        (s.stack ≠ [] ∧ s.failed = false) ∧ StackSession.mk (s.born :: s.stack) false (s.born + 1)
          = s' := by simpa [api] using h
    obtain ⟨c, hc⟩ := Option.ne_none_iff_exists'.mp (mt handle_eq_none.mp hstack)
    exact ⟨c, hc, hfailed, by simp [api, handle, nest, hc], Nat.lt_succ_self _, rfl⟩
  release := by
    intro s t s' h
    obtain ⟨⟨hnested, hfailed⟩, rest, hbelow, rfl⟩ :
        (t.nested = true ∧ s.failed = false) ∧
          ∃ rest, below t s.stack = some rest ∧ StackSession.mk rest false s.born = s' := by
      simpa [api] using h
    obtain ⟨hparent, hopened⟩ := below_spec hbelow
    exact ⟨SessionApi.mem_opened.mpr hopened, hnested, hfailed, hparent, Nat.le_refl _, rfl⟩
  rollbackTo := by
    intro s t s' fired h
    obtain ⟨rest, hbelow, rfl, rfl⟩ : ∃ rest, below t s.stack = some rest ∧
        StackSession.mk rest false s.born = s' ∧ [t] = fired := by simpa [api] using h
    obtain ⟨hparent, hopened⟩ := below_spec hbelow
    exact ⟨SessionApi.mem_opened.mpr hopened, rfl, hparent, Nat.le_refl _, rfl⟩
  failFlush := by
    intro s s' fired h
    simp only [api] at h
    split at h
    · rename_i c hc hfailed
      obtain ⟨rfl, rfl⟩ := Prod.mk.inj (Option.some.inj h)
      exact ⟨c, s.born, hc, hfailed, rfl, hc, Nat.le_succ _, rfl⟩
    · exact absurd h (by simp)
  commit := by
    intro s s' h
    obtain ⟨hfailed, rfl⟩ : s.failed = false ∧ StackSession.mk [] false s.born = s' := by
      simpa [api] using h
    exact ⟨hfailed, rfl, Nat.le_refl _, rfl⟩
  rollback _ := ⟨rfl, rfl, Nat.le_refl _, rfl⟩

end StackSession

end CompanionBackend.Savepoints
