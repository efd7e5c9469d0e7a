import Mathlib.Data.List.Basic

/-!
# Machines, runs and guarded invariants

A machine reads one input at a time. An input that is not enabled in a state
has no successor, so a run is a list of inputs each of which was enabled. The
invariant rules below are the only inductions over runs in the development:
each safety result supplies an initial fact and what one step preserves.
-/
namespace CompanionBackend.Runs

/-- States in which a run may begin, and the step taken on one input. -/
structure Machine (σ ι : Type*) where
  start : σ → Prop
  step : σ → ι → Option σ

variable {σ ι : Type*}

namespace Machine

/-- The state after a list of inputs, when every one of them was enabled. -/
def run (M : Machine σ ι) : σ → List ι → Option σ
  | s, [] => some s
  | s, i :: is => (M.step s i).bind fun s' => M.run s' is

/-- Every step of the run meets the guard `ok` in the state before it. -/
def Guarded (M : Machine σ ι) (ok : σ → ι → Prop) : σ → List ι → Prop
  | _, [] => True
  | s, i :: is => ok s i ∧ ∀ s', M.step s i = some s' → M.Guarded ok s' is

/-- A state some run from a start state ends in. -/
def Reachable (M : Machine σ ι) (s : σ) : Prop :=
  ∃ s₀ is, M.start s₀ ∧ M.run s₀ is = some s

/-- A state ended in by a run whose steps all meet the guard. -/
def ReachableUnder (M : Machine σ ι) (ok : σ → ι → Prop) (s : σ) : Prop :=
  ∃ s₀ is, M.start s₀ ∧ M.Guarded ok s₀ is ∧ M.run s₀ is = some s

@[simp] theorem run_nil (M : Machine σ ι) (s : σ) : M.run s [] = some s := rfl

/-- The state after a run that is known to be enabled. -/
def after (M : Machine σ ι) (s : σ) (is : List ι) : σ := (M.run s is).getD s

theorem reachable_after {M : Machine σ ι} {s : σ} {is : List ι} (hs : M.start s)
    (hrun : (M.run s is).isSome = true) : M.Reachable (M.after s is) := by
  obtain ⟨t, ht⟩ := Option.isSome_iff_exists.mp hrun
  exact ⟨s, is, hs, by simp [after, ht]⟩

theorem run_cons (M : Machine σ ι) (s : σ) (i : ι) (is : List ι) :
    M.run s (i :: is) = (M.step s i).bind fun s' => M.run s' is := rfl

theorem run_eq_after {M : Machine σ ι} {s : σ} {is : List ι}
    (hrun : (M.run s is).isSome = true) : M.run s is = some (M.after s is) := by
  obtain ⟨t, ht⟩ := Option.isSome_iff_exists.mp hrun
  rw [after, ht, Option.getD_some]

theorem run_cons_eq_some {M : Machine σ ι} {s t : σ} {i : ι} {is : List ι} :
    M.run s (i :: is) = some t ↔ ∃ s', M.step s i = some s' ∧ M.run s' is = some t := by
  rw [run_cons, Option.bind_eq_some_iff]

theorem run_append (M : Machine σ ι) (s : σ) (is js : List ι) :
    M.run s (is ++ js) = (M.run s is).bind fun s' => M.run s' js := by
  induction is generalizing s with
  | nil => rfl
  | cons i is ih =>
    simp only [List.cons_append, run_cons, Option.bind_assoc]
    congr 1
    funext s'
    exact ih s'

/-- The last step of a run that is known to be enabled. -/
theorem step_after {M : Machine σ ι} {s : σ} {is : List ι} {i : ι}
    (hrun : (M.run s (is ++ [i])).isSome = true) :
    M.step (M.after s is) i = some (M.after s (is ++ [i])) := by
  have hlast := run_eq_after hrun
  rw [run_append] at hlast
  obtain ⟨t, ht, hstep⟩ := Option.bind_eq_some_iff.mp hlast
  obtain ⟨t', hstep, ht'⟩ := run_cons_eq_some.mp hstep
  obtain rfl : t' = _ := Option.some.inj ht'
  have hbefore : M.after s is = t := by rw [after, ht, Option.getD_some]
  rw [hbefore, hstep]

theorem isSome_of_append {M : Machine σ ι} {s : σ} {is js : List ι}
    (hrun : (M.run s (is ++ js)).isSome = true) : (M.run s is).isSome = true := by
  rw [run_append] at hrun
  exact Option.isSome_of_isSome_bind hrun

/-- What holds at first and is preserved by every step holds at the end of a run. -/
theorem run_invariant {M : Machine σ ι} {I : σ → Prop}
    (hstep : ∀ s i s', I s → M.step s i = some s' → I s')
    {s t : σ} {is : List ι} (hs : I s) (hrun : M.run s is = some t) : I t := by
  induction is generalizing s with
  | nil =>
    obtain rfl : s = t := by simpa using hrun
    exact hs
  | cons i is ih =>
    obtain ⟨s', hi, hrest⟩ := run_cons_eq_some.mp hrun
    exact ih (hstep s i s' hs hi) hrest

/-- The invariant rule for runs whose steps all meet a guard. -/
theorem guarded_invariant {M : Machine σ ι} {ok : σ → ι → Prop} {I : σ → Prop}
    (hstep : ∀ s i s', I s → ok s i → M.step s i = some s' → I s')
    {s t : σ} {is : List ι} (hs : I s) (hok : M.Guarded ok s is)
    (hrun : M.run s is = some t) : I t := by
  induction is generalizing s with
  | nil =>
    obtain rfl : s = t := by simpa using hrun
    exact hs
  | cons i is ih =>
    obtain ⟨s', hi, hrest⟩ := run_cons_eq_some.mp hrun
    exact ih (hstep s i s' hs hok.1 hi) (hok.2 s' hi) hrest

/-- Whether a given run meets a guard can be computed. -/
instance decidableGuarded (M : Machine σ ι) (ok : σ → ι → Prop) [∀ s i, Decidable (ok s i)] :
    ∀ s is, Decidable (M.Guarded ok s is)
  | _, [] => isTrue trivial
  | s, i :: is =>
    match h : M.step s i with
    | none => decidable_of_iff (ok s i) (by simp [Guarded, h])
    | some s' =>
      have := decidableGuarded M ok s' is
      decidable_of_iff (ok s i ∧ M.Guarded ok s' is) (by simp [Guarded, h])

theorem reachableUnder_after {M : Machine σ ι} {ok : σ → ι → Prop} {s : σ} {is : List ι}
    (hs : M.start s) (hok : M.Guarded ok s is) (hrun : (M.run s is).isSome = true) :
    M.ReachableUnder ok (M.after s is) := by
  obtain ⟨t, ht⟩ := Option.isSome_iff_exists.mp hrun
  exact ⟨s, is, hs, hok, by simp [after, ht]⟩

theorem guarded_of_forall {M : Machine σ ι} {ok : σ → ι → Prop} (h : ∀ s i, ok s i) {s : σ}
    {is : List ι} : M.Guarded ok s is := by
  induction is generalizing s with
  | nil => exact trivial
  | cons i is ih => exact ⟨h s i, fun s' _ => ih⟩

theorem reachable_invariant {M : Machine σ ι} {I : σ → Prop}
    (hstart : ∀ s, M.start s → I s)
    (hstep : ∀ s i s', I s → M.step s i = some s' → I s')
    {s : σ} (hs : M.Reachable s) : I s := by
  obtain ⟨s₀, is, h₀, hrun⟩ := hs
  exact run_invariant hstep (hstart s₀ h₀) hrun

theorem ReachableUnder.reachable {M : Machine σ ι} {ok : σ → ι → Prop} {s : σ}
    (h : M.ReachableUnder ok s) : M.Reachable s := by
  obtain ⟨s₀, is, h₀, -, hrun⟩ := h
  exact ⟨s₀, is, h₀, hrun⟩

theorem reachableUnder_invariant {M : Machine σ ι} {ok : σ → ι → Prop} {I : σ → Prop}
    (hstart : ∀ s, M.start s → I s)
    (hstep : ∀ s i s', I s → ok s i → M.step s i = some s' → I s')
    {s : σ} (hs : M.ReachableUnder ok s) : I s := by
  obtain ⟨s₀, is, h₀, hok, hrun⟩ := hs
  exact guarded_invariant hstep (hstart s₀ h₀) hok hrun

end Machine

section Raising

universe u

variable {ε : Type*} {α β : Type u}

/-- `if not c: raise e`. -/
def require (c : Prop) [Decidable c] (e : ε) : Except ε Unit :=
  if c then .ok () else .error e

@[simp] theorem require_eq_ok {c : Prop} [Decidable c] {e : ε} {u : Unit} :
    require c e = .ok u ↔ c := by
  unfold require
  split_ifs with h <;> simp [h]

theorem require_of_pos {c : Prop} [Decidable c] {e : ε} (h : c) : require c e = .ok () :=
  if_pos h

theorem bind_eq_ok {x : Except ε α} {f : α → Except ε β} {b : β} :
    (x >>= f) = .ok b ↔ ∃ a, x = .ok a ∧ f a = .ok b := by
  cases x with
  | error e => simp [bind, Except.bind]
  | ok a => simp [bind, Except.bind]

@[simp] theorem ok_bind (a : α) (f : α → Except ε β) : (Except.ok a >>= f) = f a := rfl

@[simp] theorem error_bind (e : ε) (f : α → Except ε β) :
    ((Except.error e : Except ε α) >>= f) = .error e := rfl

theorem pure_eq_ok {a b : α} : (pure a : Except ε α) = .ok b ↔ a = b := by
  simp [pure, Except.pure]

/-- What was looked up, or an error when nothing was found. -/
def orRaise (found : Option α) (e : ε) : Except ε α :=
  match found with
  | some a => .ok a
  | none => .error e

@[simp] theorem orRaise_eq_ok {found : Option α} {e : ε} {a : α} :
    orRaise found e = .ok a ↔ found = some a := by
  cases found <;> simp [orRaise]

@[simp] theorem orRaise_some (a : α) (e : ε) : orRaise (some a) e = .ok a := rfl

theorem toOption_eq_some {x : Except ε α} {a : α} : x.toOption = some a ↔ x = .ok a := by
  cases x <;> simp [Except.toOption]

/-- A raised error keeps its kind under another exception type. -/
@[simp] theorem mapError_eq_ok {ε' : Type*} {f : ε → ε'} {x : Except ε α} {a : α} :
    x.mapError f = .ok a ↔ x = .ok a := by
  cases x <;> simp [Except.mapError]

theorem bind_eq_error {x : Except ε α} {f : α → Except ε β} {e : ε}
    (h : (x >>= f) = .error e) : x = .error e ∨ ∃ a, x = .ok a ∧ f a = .error e := by
  cases x with
  | error e' =>
    obtain rfl : e' = e := Except.error.inj h
    exact Or.inl rfl
  | ok a => exact Or.inr ⟨a, rfl, h⟩

theorem orRaise_eq_error {found : Option α} {e e' : ε} (h : orRaise found e = .error e') :
    e' = e := by
  cases found with
  | none => exact (Except.error.inj h).symm
  | some a => simp at h

theorem require_eq_error {c : Prop} [Decidable c] {e e' : ε} (h : require c e = .error e') :
    e' = e := by
  unfold require at h
  split_ifs at h
  exact (Except.error.inj h).symm

end Raising

/-- A transaction commits a new state with a result, or raises. -/
abbrev Transaction (ε σ α : Type*) := σ → Except ε (σ × α)

/-- The database after a transaction: a raised one is rolled back. -/
def settled {ε α : Type*} (tx : Transaction ε σ α) (s : σ) : σ :=
  match tx s with
  | .ok (s', _) => s'
  | .error _ => s

/-- A property of the database survives a transaction when every commit keeps it. -/
theorem settled_invariant {ε α : Type*} {tx : Transaction ε σ α} {I : σ → Prop} {s : σ}
    (hs : I s) (hcommit : ∀ s' a, tx s = .ok (s', a) → I s') : I (settled tx s) := by
  unfold settled
  split
  · exact hcommit _ _ (by assumption)
  · exact hs

theorem settled_of_error {ε α : Type*} {tx : Transaction ε σ α} {s : σ} {e : ε}
    (h : tx s = .error e) : settled tx s = s := by
  simp [settled, h]

theorem settled_of_ok {ε α : Type*} {tx : Transaction ε σ α} {s s' : σ} {a : α}
    (h : tx s = .ok (s', a)) : settled tx s = s' := by
  simp [settled, h]

end CompanionBackend.Runs
