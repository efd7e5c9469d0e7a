import Mathlib.Data.List.AList
import Mathlib.Data.List.Range
import Mathlib.Data.List.Perm.Subperm

/-!
# Reordering by sequence number

A buffer hands numbered events to a handler in the order of their numbers. What
arrives early is kept until the gap before it has closed, what arrives twice is
dropped, and what arrives too early is refused. A handler may raise; the event
then stays at the head of the buffer and is tried again on the next arrival.
-/
namespace CompanionBackend.EventReordering

variable {σ α ε : Type*}

/-- In a list that is sorted by number, those up to the next number are those up to this one and the
one that has the next. -/
theorem filter_le_succ {f : α → ℕ} {l : List α} (hsorted : l.Pairwise fun a b => f a < f b) {n : ℕ}
    {x : α} (hx : x ∈ l) (hnext : f x = n + 1) :
    l.filter (fun a => f a ≤ n + 1) = l.filter (fun a => f a ≤ n) ++ [x] := by
  induction l with
  | nil => cases hx
  | cons a l ih =>
    obtain ⟨hfirst, hrest⟩ := List.pairwise_cons.mp hsorted
    rcases List.mem_cons.mp hx with rfl | hx
    · have hnone : ∀ m ≤ n + 1, l.filter (fun b => f b ≤ m) = [] := by
        intro m hm
        refine List.filter_eq_nil_iff.mpr fun b hb hle => ?_
        have hlt := hfirst b hb
        have hle := of_decide_eq_true hle
        omega
      simp [hnext, hnone]
    · have hlt := hfirst x hx
      have hle : f a ≤ n := by omega
      have hle' : f a ≤ n + 1 := by omega
      simp [hle, hle', ih hrest hx]

/-- What the buffer calls: `vet` looks at an event before the buffer does, `closed` turns every
arrival into a late one, and `handle` leaves a state also when it raises. -/
structure Reorderer (σ α ε : Type*) where
  window : ℕ
  limitError : ε
  vet : α → Option ε
  closed : σ → Bool
  handle : σ → α → σ × Option ε

/-- `handled` is a history: the numbers of the events the handler has completed. -/
structure Buffer (σ α : Type*) where
  sequence : ℕ
  pending : AList fun _ : ℕ => α
  inner : σ
  handled : List ℕ

/-- An empty buffer. -/
def Buffer.init (s : σ) : Buffer σ α := ⟨0, ∅, s, []⟩

namespace Reorderer

variable (R : Reorderer σ α ε)

/-- Hands over the head of the buffer while it is there; the fuel is the number of kept events. -/
def drain : ℕ → Buffer σ α → Buffer σ α × Option ε
  | 0, b => (b, none)
  | fuel + 1, b =>
    match b.pending.lookup (b.sequence + 1) with
    | none => (b, none)
    | some e =>
      match R.handle b.inner e with
      | (s, some err) => ({ b with inner := s }, some err)
      | (s, none) =>
        drain fuel ⟨b.sequence + 1, b.pending.erase (b.sequence + 1), s,
          b.handled ++ [b.sequence + 1]⟩

/-- One arrival. -/
def deliver (b : Buffer σ α) (i : ℕ) (e : α) : Buffer σ α × Option ε :=
  match R.vet e with
  | some err => (b, some err)
  | none =>
    if R.closed b.inner then (b, none)
    else if i ≤ b.sequence ∨ i ∈ b.pending then (b, none)
    else if b.sequence + R.window < i ∨ R.window ≤ b.pending.keys.length then
      (b, some R.limitError)
    else R.drain (b.pending.keys.length + 1) { b with pending := b.pending.insert i e }

/-- The arrivals of a stream in the given order, and what was raised. -/
def deliverAll (stream : ℕ → α) : Buffer σ α → List ℕ → Buffer σ α × List ε
  | b, [] => (b, [])
  | b, i :: is =>
    let r := R.deliver b i (stream i)
    let rest := deliverAll stream r.1 is
    (rest.1, r.2.toList ++ rest.2)

/-- Every arrival is at most a window above the last event handled without a gap. -/
def Windowed (stream : ℕ → α) : Buffer σ α → List ℕ → Prop
  | _, [] => True
  | b, i :: is => (1 ≤ i ∧ i ≤ b.sequence + R.window) ∧
      Windowed stream (R.deliver b i (stream i)).1 is

/-- The state after the first events of the stream. -/
def states (stream : ℕ → α) (s : σ) : ℕ → σ
  | 0 => s
  | m + 1 => (R.handle (states stream s m) (stream (m + 1))).1

/-- The event after the first `m` is admitted and handled without raising. -/
def Passes (stream : ℕ → α) (s : σ) (m : ℕ) : Prop :=
  R.vet (stream (m + 1)) = none ∧ (R.handle (R.states stream s m) (stream (m + 1))).2 = none

/-- A handler that has raised leaves a state in which the same event raises again and changes
nothing more. -/
def Retriable : Prop :=
  ∀ s e s' err, R.handle s e = (s', some err) → R.handle s' e = (s', some err)

/-! ### What a property of the handled state survives -/

theorem drain_invariant {R : Reorderer σ α ε} {I : σ → Prop}
    (hhandle : ∀ s e, I s → I (R.handle s e).1) (fuel : ℕ) {b : Buffer σ α} (hb : I b.inner) :
    I (R.drain fuel b).1.inner := by
  induction fuel generalizing b with
  | zero => exact hb
  | succ fuel ih =>
    simp only [drain]
    split
    · exact hb
    · next e _ =>
      have hnext := hhandle b.inner e hb
      split
      · next s err heq =>
        rw [heq] at hnext
        exact hnext
      · next s heq =>
        rw [heq] at hnext
        exact ih hnext

theorem deliver_invariant {R : Reorderer σ α ε} {I : σ → Prop}
    (hhandle : ∀ s e, I s → I (R.handle s e).1) {b : Buffer σ α} (i : ℕ) (e : α) (hb : I b.inner) :
    I (R.deliver b i e).1.inner := by
  simp only [deliver]
  split
  · exact hb
  · split_ifs
    · exact hb
    · exact hb
    · exact hb
    · exact drain_invariant hhandle _ hb

/-- The rule for the loop: what each handling of the head keeps, whether it raises or not. -/
theorem drain_elim {R : Reorderer σ α ε} {P : Buffer σ α → Prop}
    (hhead : ∀ b e, P b → b.pending.lookup (b.sequence + 1) = some e →
      ((R.handle b.inner e).2 = none → P ⟨b.sequence + 1, b.pending.erase (b.sequence + 1),
        (R.handle b.inner e).1, b.handled ++ [b.sequence + 1]⟩) ∧
      ((R.handle b.inner e).2 ≠ none → P { b with inner := (R.handle b.inner e).1 }))
    (fuel : ℕ) {b : Buffer σ α} (hb : P b) : P (R.drain fuel b).1 := by
  induction fuel generalizing b with
  | zero => exact hb
  | succ fuel ih =>
    simp only [drain]
    split
    · exact hb
    · next e hlookup =>
      obtain ⟨hnone, hraised⟩ := hhead b e hb hlookup
      split
      · next s err heq =>
        rw [heq] at hraised
        exact hraised (by simp)
      · next s heq =>
        rw [heq] at hnone
        exact ih (hnone rfl)

/-- A new arrival at an open buffer is refused, or it is kept and the loop runs. -/
theorem deliver_cases {R : Reorderer σ α ε} {b : Buffer σ α} {i : ℕ} (e : α)
    (hopen : R.closed b.inner = false) (hlt : b.sequence < i) (hnew : i ∉ b.pending) :
    (∃ err, R.deliver b i e = (b, some err)) ∨
      R.deliver b i e =
        R.drain (b.pending.keys.length + 1) { b with pending := b.pending.insert i e } := by
  have hfresh : ¬ (i ≤ b.sequence ∨ i ∈ b.pending) := by
    rintro (hle | hmem)
    · omega
    · exact hnew hmem
  simp only [deliver, hopen, Bool.false_eq_true, if_false, if_neg hfresh]
  split
  · exact .inl ⟨_, rfl⟩
  · split_ifs
    · exact .inl ⟨_, rfl⟩
    · exact .inr rfl

/-! ### The buffer tracks the stream -/

variable {R} {stream : ℕ → α} {s₀ : σ}

/-- What a buffer that has seen the given arrivals holds. -/
structure Holds (R : Reorderer σ α ε) (stream : ℕ → α) (s₀ : σ) (arrived : List ℕ)
    (b : Buffer σ α) : Prop where
  passed : ∀ m < b.sequence, R.Passes stream s₀ m
  handled : b.handled = List.range' 1 b.sequence
  seen : ∀ i, 1 ≤ i → i ≤ b.sequence → i ∈ arrived
  pending : ∀ i e, b.pending.lookup i = some e ↔
    b.sequence < i ∧ i ∈ arrived ∧ R.vet (stream i) = none ∧ e = stream i
  reach : ∀ i ∈ arrived, i ≤ b.sequence + R.window

/-- The head of the buffer has been tried. -/
def Tried (R : Reorderer σ α ε) (stream : ℕ → α) (s₀ : σ) (b : Buffer σ α) : Prop :=
  b.sequence + 1 ∈ b.pending ∧
    (R.handle (R.states stream s₀ b.sequence) (stream (b.sequence + 1))).2 ≠ none ∧
    b.inner = R.states stream s₀ (b.sequence + 1)

/-- The head of the buffer is missing, or it has been tried. -/
structure Tracks (R : Reorderer σ α ε) (stream : ℕ → α) (s₀ : σ) (arrived : List ℕ)
    (b : Buffer σ α) : Prop extends Holds R stream s₀ arrived b where
  head : b.sequence + 1 ∉ b.pending ∧ b.inner = R.states stream s₀ b.sequence ∨
    Tried R stream s₀ b

theorem tracks_init (R : Reorderer σ α ε) (stream : ℕ → α) (s₀ : σ) :
    Tracks R stream s₀ [] (.init s₀) := by
  refine ⟨⟨?_, rfl, ?_, ?_, ?_⟩, .inl ⟨AList.notMem_empty _, rfl⟩⟩
  · intro m hm
    exact absurd hm (Nat.not_lt_zero m)
  · intro i hi hle
    have hle' : i ≤ 0 := hle
    omega
  · intro i e
    simp [Buffer.init]
  · simp

theorem mem_pending {arrived : List ℕ} {b : Buffer σ α} (hb : Holds R stream s₀ arrived b) {i : ℕ} :
    i ∈ b.pending ↔ b.sequence < i ∧ i ∈ arrived ∧ R.vet (stream i) = none := by
  rw [← AList.lookup_isSome, Option.isSome_iff_exists]
  constructor
  · rintro ⟨e, he⟩
    obtain ⟨hlt, harrived, hvetted, -⟩ := (hb.pending i e).mp he
    exact ⟨hlt, harrived, hvetted⟩
  · rintro ⟨hlt, harrived, hvetted⟩
    exact ⟨stream i, (hb.pending i _).mpr ⟨hlt, harrived, hvetted, rfl⟩⟩

/-- Once its head has been handled, the buffer holds the rest. -/
theorem holds_pop {arrived : List ℕ} {b : Buffer σ α} {s : σ} (hb : Holds R stream s₀ arrived b)
    (hhead : b.sequence + 1 ∈ b.pending) (hpasses : R.Passes stream s₀ b.sequence) :
    Holds R stream s₀ arrived ⟨b.sequence + 1, b.pending.erase (b.sequence + 1), s,
      b.handled ++ [b.sequence + 1]⟩ := by
  refine ⟨?_, ?_, ?_, ?_, ?_⟩
  · intro m hm
    rcases Nat.lt_succ_iff_lt_or_eq.mp hm with hlt | rfl
    · exact hb.passed m hlt
    · exact hpasses
  · change b.handled ++ [b.sequence + 1] = List.range' 1 (b.sequence + 1)
    rw [hb.handled, List.range'_concat]
    simp [Nat.add_comm]
  · intro i hi hle
    rcases Nat.lt_or_ge b.sequence i with hlt | hge
    · obtain rfl : i = b.sequence + 1 := by
        have hle' : i ≤ b.sequence + 1 := hle
        omega
      exact ((mem_pending hb).mp hhead).2.1
    · exact hb.seen i hi hge
  · intro i e
    by_cases hi : i = b.sequence + 1
    · subst hi
      simp
    · rw [AList.lookup_erase_ne hi, hb.pending i e]
      constructor
      · rintro ⟨hlt, hrest⟩
        exact ⟨lt_of_le_of_ne (Nat.succ_le_of_lt hlt) (Ne.symm hi), hrest⟩
      · rintro ⟨hlt, hrest⟩
        exact ⟨Nat.lt_of_succ_lt hlt, hrest⟩
  · intro i hi
    have hle := hb.reach i hi
    change i ≤ b.sequence + 1 + R.window
    omega

/-- What the handler makes of the head: its state is the one before the head, or the head has
raised there before. -/
theorem handle_head (hretry : R.Retriable) {b : Buffer σ α}
    (hinner : b.inner = R.states stream s₀ b.sequence ∨ Tried R stream s₀ b) :
    R.handle b.inner (stream (b.sequence + 1)) =
      R.handle (R.states stream s₀ b.sequence) (stream (b.sequence + 1)) := by
  rcases hinner with heq | ⟨-, hraised, heq⟩
  · rw [heq]
  · obtain ⟨err, herr⟩ := Option.ne_none_iff_exists'.mp hraised
    have hfirst : R.handle (R.states stream s₀ b.sequence) (stream (b.sequence + 1)) =
        (R.states stream s₀ (b.sequence + 1), some err) := Prod.ext rfl herr
    rw [heq, hfirst]
    exact hretry _ _ _ err hfirst

/-- The loop hands over everything up to the next gap, or up to an event that raises. -/
theorem drain_tracks (hretry : R.Retriable) {arrived : List ℕ} (fuel : ℕ) {b : Buffer σ α}
    (hfuel : b.pending.keys.length ≤ fuel) (hb : Holds R stream s₀ arrived b)
    (hinner : b.inner = R.states stream s₀ b.sequence ∨ Tried R stream s₀ b) :
    Tracks R stream s₀ arrived (R.drain fuel b).1 ∧
      (∀ err, (R.drain fuel b).2 = some err → ∃ m, ¬ R.Passes stream s₀ m ∧ m + 1 ∈ arrived) := by
  induction fuel generalizing b with
  | zero =>
    have hempty : b.sequence + 1 ∉ b.pending := by
      rw [AList.mem_keys, List.length_eq_zero_iff.mp (Nat.le_zero.mp hfuel)]
      simp
    refine ⟨⟨hb, .inl ⟨hempty, ?_⟩⟩, by simp [drain]⟩
    exact hinner.resolve_right fun h => hempty h.1
  | succ fuel ih =>
    simp only [drain]
    cases hlookup : b.pending.lookup (b.sequence + 1) with
    | none =>
      have hempty : b.sequence + 1 ∉ b.pending := AList.lookup_eq_none.mp hlookup
      refine ⟨⟨hb, .inl ⟨hempty, ?_⟩⟩, by simp⟩
      exact hinner.resolve_right fun h => hempty h.1
    | some e =>
      obtain ⟨-, harrived, hvetted, rfl⟩ := (hb.pending _ e).mp hlookup
      have hmem : b.sequence + 1 ∈ b.pending :=
        AList.lookup_isSome.mp (Option.isSome_iff_exists.mpr ⟨_, hlookup⟩)
      have hhead := handle_head hretry hinner
      cases hhandle : R.handle (R.states stream s₀ b.sequence) (stream (b.sequence + 1)) with
      | mk s raised =>
      have hstate : s = R.states stream s₀ (b.sequence + 1) := by
        simp only [states, hhandle]
      simp only [hhead, hhandle]
      cases raised with
      | some err =>
        refine ⟨⟨⟨hb.passed, hb.handled, hb.seen, hb.pending, hb.reach⟩, .inr ⟨hmem, ?_, hstate⟩⟩, ?_⟩
        · simp [hhandle]
        · intro err' _
          refine ⟨b.sequence, fun hpasses => ?_, harrived⟩
          have hnone := hpasses.2
          simp [hhandle] at hnone
      | none =>
        have hpasses : R.Passes stream s₀ b.sequence := ⟨hvetted, by simp [hhandle]⟩
        refine ih ?_ (holds_pop hb hmem hpasses) (.inl hstate)
        have hlength : (b.pending.erase (b.sequence + 1)).keys.length =
            b.pending.keys.length - 1 := by
          rw [AList.keys_erase]
          exact List.length_erase_of_mem (AList.mem_keys.mp hmem)
        change (b.pending.erase (b.sequence + 1)).keys.length ≤ fuel
        omega

/-- An arrival within the window finds room. -/
theorem pending_lt {arrived : List ℕ} {b : Buffer σ α} (hb : Holds R stream s₀ arrived b) {i : ℕ}
    (hlt : b.sequence < i) (hle : i ≤ b.sequence + R.window) (hnew : i ∉ b.pending) :
    b.pending.keys.length < R.window := by
  have hsubset : i :: b.pending.keys ⊆ List.range' (b.sequence + 1) R.window := by
    intro j hj
    rw [List.mem_range'_1]
    rcases List.mem_cons.mp hj with rfl | hj
    · omega
    · have hmem := (mem_pending hb).mp (AList.mem_keys.mpr hj)
      have hreach := hb.reach j hmem.2.1
      have hlt := hmem.1
      omega
  have hnodup : (i :: b.pending.keys).Nodup :=
    List.nodup_cons.mpr ⟨fun h => hnew (AList.mem_keys.mpr h), b.pending.keys_nodup⟩
  have hlength := (hnodup.subperm hsubset).length_le
  rw [List.length_range', List.length_cons] at hlength
  omega

/-- An arrival that is not kept leaves the buffer tracking the stream. -/
theorem tracks_skip {arrived : List ℕ} {b : Buffer σ α} (hb : Tracks R stream s₀ arrived b) {i : ℕ}
    (hle : i ≤ b.sequence + R.window)
    (hskip : R.vet (stream i) ≠ none ∨ i ≤ b.sequence ∨ i ∈ b.pending) :
    Tracks R stream s₀ (i :: arrived) b := by
  refine ⟨⟨hb.passed, hb.handled, ?_, ?_, ?_⟩, hb.head⟩
  · intro j hj hjle
    exact List.mem_cons_of_mem _ (hb.seen j hj hjle)
  · intro j e
    rw [hb.pending j e]
    constructor
    · rintro ⟨hlt, harrived, hrest⟩
      exact ⟨hlt, List.mem_cons_of_mem _ harrived, hrest⟩
    · rintro ⟨hlt, harrived, hvetted, he⟩
      rcases List.mem_cons.mp harrived with rfl | harrived
      · rcases hskip with hnot | hold | hmem
        · exact absurd hvetted hnot
        · exact absurd hlt (not_lt.mpr hold)
        · exact ⟨hlt, ((mem_pending hb.toHolds).mp hmem).2.1, hvetted, he⟩
      · exact ⟨hlt, harrived, hvetted, he⟩
  · intro j hj
    rcases List.mem_cons.mp hj with rfl | hj
    · exact hle
    · exact hb.reach j hj

/-- A kept arrival. -/
theorem holds_insert {arrived : List ℕ} {b : Buffer σ α} (hb : Holds R stream s₀ arrived b) {i : ℕ}
    (hlt : b.sequence < i) (hle : i ≤ b.sequence + R.window) (hvetted : R.vet (stream i) = none) :
    Holds R stream s₀ (i :: arrived) { b with pending := b.pending.insert i (stream i) } := by
  refine ⟨hb.passed, hb.handled, ?_, ?_, ?_⟩
  · intro j hj hjle
    exact List.mem_cons_of_mem _ (hb.seen j hj hjle)
  · intro j e
    by_cases hj : j = i
    · subst hj
      rw [AList.lookup_insert, Option.some.injEq]
      constructor
      · rintro rfl
        exact ⟨hlt, List.mem_cons_self, hvetted, rfl⟩
      · rintro ⟨-, -, -, he⟩
        exact he.symm
    · rw [AList.lookup_insert_ne hj, hb.pending j e]
      simp only [List.mem_cons, hj, false_or]
  · intro j hj
    rcases List.mem_cons.mp hj with rfl | hj
    · exact hle
    · exact hb.reach j hj

theorem closed_inner (hopen : ∀ m, R.closed (R.states stream s₀ m) = false) {arrived : List ℕ}
    {b : Buffer σ α} (hb : Tracks R stream s₀ arrived b) : R.closed b.inner = false := by
  rcases hb.head with ⟨-, heq⟩ | ⟨-, -, heq⟩
  · rw [heq]
    exact hopen _
  · rw [heq]
    exact hopen _

/-- One arrival within the window. Something is raised only when an event of the stream cannot be
handled. -/
theorem deliver_tracks (hretry : R.Retriable)
    (hopen : ∀ m, R.closed (R.states stream s₀ m) = false) {arrived : List ℕ} {b : Buffer σ α}
    (hb : Tracks R stream s₀ arrived b) {i : ℕ} (hi : 1 ≤ i) (hle : i ≤ b.sequence + R.window) :
    Tracks R stream s₀ (i :: arrived) (R.deliver b i (stream i)).1 ∧
      (∀ err, (R.deliver b i (stream i)).2 = some err →
        ∃ m, ¬ R.Passes stream s₀ m ∧ m + 1 ∈ i :: arrived) := by
  simp only [deliver, closed_inner hopen hb]
  cases hvetted : R.vet (stream i) with
  | some err =>
    refine ⟨tracks_skip hb hle (.inl (by simp [hvetted])), fun _ _ => ⟨i - 1, fun hpasses => ?_, ?_⟩⟩
    · have hnone := hpasses.1
      rw [Nat.sub_add_cancel hi, hvetted] at hnone
      exact absurd hnone (by simp)
    · rw [Nat.sub_add_cancel hi]
      exact List.mem_cons_self
  | none =>
    by_cases hdup : i ≤ b.sequence ∨ i ∈ b.pending
    · simp only [Bool.false_eq_true, if_false, if_pos hdup]
      exact ⟨tracks_skip hb hle (.inr hdup), by simp⟩
    · obtain ⟨hlt, hnew⟩ := not_or.mp hdup
      have hroom := pending_lt hb.toHolds (not_le.mp hlt) hle hnew
      have hlimit : ¬ (b.sequence + R.window < i ∨ R.window ≤ b.pending.keys.length) := by
        omega
      simp only [Bool.false_eq_true, if_false, if_neg hdup, if_neg hlimit]
      refine drain_tracks hretry _ ?_ (holds_insert hb.toHolds (not_le.mp hlt) hle hvetted) ?_
      · rw [AList.keys_insert, List.length_cons]
        exact Nat.succ_le_succ List.length_erase_le
      · refine hb.head.imp And.right fun htried => ⟨?_, htried.2⟩
        exact (AList.mem_insert _).mpr (.inr htried.1)

/-- Arrivals within the window. -/
theorem deliverAll_tracks (hretry : R.Retriable)
    (hopen : ∀ m, R.closed (R.states stream s₀ m) = false) (order : List ℕ) {arrived : List ℕ}
    {b : Buffer σ α} (hb : Tracks R stream s₀ arrived b) (hwindowed : R.Windowed stream b order) :
    Tracks R stream s₀ (order.reverse ++ arrived) (R.deliverAll stream b order).1 ∧
      ((R.deliverAll stream b order).2 ≠ [] →
        ∃ m, ¬ R.Passes stream s₀ m ∧ m + 1 ∈ order ++ arrived) := by
  induction order generalizing arrived b with
  | nil => exact ⟨hb, by simp [deliverAll]⟩
  | cons i is ih =>
    obtain ⟨⟨hi, hle⟩, hrest⟩ := hwindowed
    obtain ⟨hfirst, hraised⟩ := deliver_tracks hretry hopen hb hi hle
    obtain ⟨htracks, hrejected⟩ := ih hfirst hrest
    refine ⟨?_, fun hne => ?_⟩
    · simpa [deliverAll, List.append_assoc] using htracks
    · cases hout : (R.deliver b i (stream i)).2 with
      | some err =>
        obtain ⟨m, hm, hmem⟩ := hraised err hout
        exact ⟨m, hm, by simp only [List.mem_cons, List.mem_append] at hmem ⊢; tauto⟩
      | none =>
        obtain ⟨m, hm, hmem⟩ := hrejected (by simpa [deliverAll, hout] using hne)
        exact ⟨m, hm, by simp only [List.mem_cons, List.mem_append] at hmem ⊢; tauto⟩

/-! ### Two orders of arrival -/

/-- An event that has arrived and can be handled has been handled. -/
theorem not_passes_of_arrived {arrived : List ℕ} {b : Buffer σ α}
    (hb : Tracks R stream s₀ arrived b) (harrived : b.sequence + 1 ∈ arrived) :
    ¬ R.Passes stream s₀ b.sequence := by
  rintro ⟨hvetted, hnone⟩
  have hmem : b.sequence + 1 ∈ b.pending :=
    (mem_pending hb.toHolds).mpr ⟨Nat.lt_succ_self _, harrived, hvetted⟩
  rcases hb.head with ⟨hempty, -⟩ | ⟨-, hraised, -⟩
  · exact hempty hmem
  · exact hraised hnone

/-- When as much has arrived in one order as in another, as much has been handled. -/
theorem sequence_le {arrived arrived' : List ℕ} {b b' : Buffer σ α}
    (hb : Tracks R stream s₀ arrived b) (hb' : Tracks R stream s₀ arrived' b')
    (hsubset : arrived ⊆ arrived') : b.sequence ≤ b'.sequence := by
  by_contra hlt
  have hpassed := hb.passed b'.sequence (not_le.mp hlt)
  have hseen := hb.seen (b'.sequence + 1) (Nat.le_add_left _ _) (not_le.mp hlt)
  exact not_passes_of_arrived hb' (hsubset hseen) hpassed

/-- The same arrivals leave the same state, whatever their order and repetition. -/
theorem agree {arrived arrived' : List ℕ} {b b' : Buffer σ α}
    (hb : Tracks R stream s₀ arrived b) (hb' : Tracks R stream s₀ arrived' b')
    (hsame : ∀ i, i ∈ arrived ↔ i ∈ arrived') :
    b.sequence = b'.sequence ∧ b.handled = b'.handled ∧ b.inner = b'.inner ∧
      ∀ i, b.pending.lookup i = b'.pending.lookup i := by
  have hseq : b.sequence = b'.sequence :=
    le_antisymm (sequence_le hb hb' fun i => (hsame i).mp) (sequence_le hb' hb fun i => (hsame i).mpr)
  have hpending : ∀ i, b.pending.lookup i = b'.pending.lookup i := by
    intro i
    ext e
    rw [hb.pending i e, hb'.pending i e, hseq, hsame i]
  have hhead : b.sequence + 1 ∈ b.pending ↔ b'.sequence + 1 ∈ b'.pending := by
    rw [mem_pending hb.toHolds, mem_pending hb'.toHolds, hseq, hsame]
  refine ⟨hseq, ?_, ?_, hpending⟩
  · rw [hb.handled, hb'.handled, hseq]
  · rcases hb.head with ⟨hempty, heq⟩ | ⟨hmem, -, heq⟩
    · rcases hb'.head with ⟨-, heq'⟩ | ⟨hmem', -⟩
      · rw [heq, heq', hseq]
      · exact absurd (hhead.mpr hmem') hempty
    · rcases hb'.head with ⟨hempty', -⟩ | ⟨-, -, heq'⟩
      · exact absurd (hhead.mp hmem) hempty'
      · rw [heq, heq', hseq]

theorem deliverAll_append (b : Buffer σ α) (is js : List ℕ) :
    R.deliverAll stream b (is ++ js) =
      ((R.deliverAll stream (R.deliverAll stream b is).1 js).1,
        (R.deliverAll stream b is).2 ++ (R.deliverAll stream (R.deliverAll stream b is).1 js).2) := by
  induction is generalizing b with
  | nil => rfl
  | cons i is ih => simp [deliverAll, ih, List.append_assoc]

theorem windowed_append {b : Buffer σ α} {is js : List ℕ} :
    R.Windowed stream b (is ++ js) ↔
      R.Windowed stream b is ∧ R.Windowed stream (R.deliverAll stream b is).1 js := by
  induction is generalizing b with
  | nil => simp [Windowed, deliverAll]
  | cons i is ih => simp [Windowed, deliverAll, ih, and_assoc]

/-- A stream that can arrive within the window in some order can arrive so in its own. -/
theorem windowed_range (hretry : R.Retriable)
    (hopen : ∀ m, R.closed (R.states stream s₀ m) = false) (hwindow : 0 < R.window)
    {arrived : List ℕ} {b : Buffer σ α} {n : ℕ} (hb : Tracks R stream s₀ arrived b)
    (hall : ∀ i, 1 ≤ i → i ≤ n → i ∈ arrived) :
    ∀ m ≤ n, R.Windowed stream (.init s₀) (List.range' 1 m) := by
  intro m
  induction m with
  | zero => exact fun _ => trivial
  | succ m ih =>
    intro hm
    have hleading := ih (Nat.le_of_succ_le hm)
    have htracks := (deliverAll_tracks hretry hopen _ (tracks_init R stream s₀) hleading).1
    rw [List.range'_concat, windowed_append]
    refine ⟨hleading, ⟨by omega, ?_⟩, trivial⟩
    have hreach := hb.reach (m + 1) (hall (m + 1) (Nat.le_add_left _ _) hm)
    by_contra hlt
    -- The event after the prefix's last handled one has arrived in both orders.
    have hless : (R.deliverAll stream (.init s₀) (List.range' 1 m)).1.sequence < b.sequence := by
      omega
    have hpassed := hb.passed _ hless
    refine not_passes_of_arrived htracks ?_ hpassed
    simp only [List.append_nil, List.mem_reverse, List.mem_range'_1]
    omega

/-- The order of arrival is of no consequence: every order of a stream of `n` events within the
window, with any repetition, leaves the state that their own order leaves. -/
theorem order_independent (hretry : R.Retriable)
    (hopen : ∀ m, R.closed (R.states stream s₀ m) = false) (hwindow : 0 < R.window) {n : ℕ}
    {order : List ℕ} (hwindowed : R.Windowed stream (.init s₀) order)
    (hall : ∀ i, i ∈ order ↔ 1 ≤ i ∧ i ≤ n) :
    let b := (R.deliverAll stream (.init s₀) order).1
    let b' := (R.deliverAll stream (.init s₀) (List.range' 1 n)).1
    b.sequence = b'.sequence ∧ b.handled = b'.handled ∧ b.inner = b'.inner ∧
      ∀ i, b.pending.lookup i = b'.pending.lookup i := by
  have htracks := (deliverAll_tracks hretry hopen order (tracks_init R stream s₀) hwindowed).1
  have hrange := windowed_range hretry hopen hwindow htracks
    (fun i hi hle => by simp [(hall i).mpr ⟨hi, hle⟩]) n le_rfl
  have htracks' := (deliverAll_tracks hretry hopen _ (tracks_init R stream s₀) hrange).1
  refine agree htracks htracks' fun i => ?_
  simp only [List.append_nil, List.mem_reverse, hall, List.mem_range'_1]
  omega

/-- When their own order raises nothing, no order raises anything, and every event is handled once,
in the order of their numbers. -/
theorem handled_all (hretry : R.Retriable)
    (hopen : ∀ m, R.closed (R.states stream s₀ m) = false) {n : ℕ}
    (hpasses : ∀ m < n, R.Passes stream s₀ m) {order : List ℕ}
    (hwindowed : R.Windowed stream (.init s₀) order) (hall : ∀ i, i ∈ order ↔ 1 ≤ i ∧ i ≤ n) :
    let r := R.deliverAll stream (.init s₀) order
    r.2 = [] ∧ r.1.sequence = n ∧ r.1.handled = List.range' 1 n ∧ r.1.pending.keys = [] := by
  obtain ⟨htracks, hrejected⟩ :=
    deliverAll_tracks hretry hopen order (tracks_init R stream s₀) hwindowed
  have hmem : ∀ i, i ∈ order.reverse ++ [] ↔ 1 ≤ i ∧ i ≤ n := by
    intro i
    rw [List.append_nil, List.mem_reverse, hall]
  set b := (R.deliverAll stream (.init s₀) order).1
  have hle : b.sequence ≤ n := by
    rcases Nat.eq_zero_or_pos b.sequence with hzero | hpos
    · omega
    · exact ((hmem _).mp (htracks.seen b.sequence hpos le_rfl)).2
  have hseq : b.sequence = n := by
    by_contra hne
    have hlt : b.sequence < n := by omega
    exact not_passes_of_arrived htracks ((hmem _).mpr ⟨by omega, hlt⟩) (hpasses _ hlt)
  refine ⟨?_, hseq, ?_, ?_⟩
  · by_contra hne
    obtain ⟨m, hm, harrived⟩ := hrejected hne
    rw [List.append_nil, hall] at harrived
    exact hm (hpasses m (by omega))
  · rw [htracks.handled, hseq]
  · refine List.eq_nil_iff_forall_not_mem.mpr fun i hi => ?_
    obtain ⟨hlt, harrived, -⟩ := (mem_pending htracks.toHolds).mp (AList.mem_keys.mpr hi)
    have hin := (hmem i).mp harrived
    omega

/-- The next event raises on arrival when it cannot be handled. -/
theorem deliver_raises (hopen : ∀ m, R.closed (R.states stream s₀ m) = false)
    (hwindow : 0 < R.window) {arrived : List ℕ} {b : Buffer σ α}
    (hb : Tracks R stream s₀ arrived b) (hnew : b.sequence + 1 ∉ b.pending)
    (hfails : ¬ R.Passes stream s₀ b.sequence) :
    (R.deliver b (b.sequence + 1) (stream (b.sequence + 1))).2 ≠ none := by
  have hinner : b.inner = R.states stream s₀ b.sequence := by
    rcases hb.head with ⟨-, heq⟩ | ⟨hmem, -⟩
    · exact heq
    · exact absurd hmem hnew
  have hroom := pending_lt hb.toHolds (Nat.lt_succ_self _) (by omega) hnew
  have hdup : ¬ (b.sequence + 1 ≤ b.sequence ∨ b.sequence + 1 ∈ b.pending) := by
    rintro (hle | hmem)
    · omega
    · exact hnew hmem
  have hlimit : ¬ (b.sequence + R.window < b.sequence + 1 ∨
      R.window ≤ b.pending.keys.length) := by omega
  simp only [deliver, closed_inner hopen hb]
  cases hvetted : R.vet (stream (b.sequence + 1)) with
  | some err => simp
  | none =>
    simp only [Bool.false_eq_true, if_false, if_neg hdup, if_neg hlimit, drain, AList.lookup_insert]
    rw [hinner]
    cases hhandle : R.handle (R.states stream s₀ b.sequence) (stream (b.sequence + 1)) with
    | mk s raised =>
      cases raised with
      | some err => simp
      | none => exact absurd ⟨hvetted, by simp [hhandle]⟩ hfails

/-- A stream that raises nothing in its own order can be handled throughout. -/
theorem passes_of_quiet (hretry : R.Retriable)
    (hopen : ∀ m, R.closed (R.states stream s₀ m) = false) (hwindow : 0 < R.window) {n : ℕ}
    (hquiet : (R.deliverAll stream (.init s₀) (List.range' 1 n)).2 = []) :
    R.Windowed stream (.init s₀) (List.range' 1 n) ∧
      (R.deliverAll stream (.init s₀) (List.range' 1 n)).1.sequence = n := by
  induction n with
  | zero => exact ⟨trivial, rfl⟩
  | succ m ih =>
    rw [List.range'_concat, deliverAll_append] at hquiet
    obtain ⟨hfirst, hlast⟩ := List.append_eq_nil_iff.mp hquiet
    obtain ⟨hwindowed, hsequence⟩ := ih hfirst
    have htracks := (deliverAll_tracks hretry hopen _ (tracks_init R stream s₀) hwindowed).1
    rw [List.range'_concat, windowed_append, deliverAll_append]
    set b := (R.deliverAll stream (.init s₀) (List.range' 1 m)).1
    have hnext : 1 + 1 * m = b.sequence + 1 := by omega
    have hwindowed' : R.Windowed stream b [1 + 1 * m] := ⟨⟨by omega, by omega⟩, trivial⟩
    refine ⟨⟨hwindowed, hwindowed'⟩, ?_⟩
    have hafter := (deliverAll_tracks hretry hopen _ htracks hwindowed').1
    have harrived : ∀ i, i ∈ [1 + 1 * m].reverse ++ ((List.range' 1 m).reverse ++ []) ↔
        1 ≤ i ∧ i ≤ m + 1 := by
      intro i
      simp only [List.append_nil, List.mem_append, List.mem_reverse, List.mem_singleton,
        List.mem_range'_1]
      omega
    have hpasses : R.Passes stream s₀ m := by
      by_contra hfails
      have hnew : b.sequence + 1 ∉ b.pending := by
        intro hmem
        have hin := ((mem_pending htracks.toHolds).mp hmem).2.1
        simp only [List.append_nil, List.mem_reverse, List.mem_range'_1] at hin
        omega
      have hraises := deliver_raises hopen hwindow htracks hnew (by rwa [hsequence])
      rw [← hnext] at hraises
      exact hraises (by simpa [deliverAll] using hlast)
    have hle := sequence_le htracks hafter (List.subset_append_right _ _)
    set b' := (R.deliverAll stream b [1 + 1 * m]).1
    rcases Nat.lt_or_ge b'.sequence (m + 1) with hlt | hge
    · have hstuck : b'.sequence = m := by omega
      have hin := (harrived (b'.sequence + 1)).mpr (by omega)
      exact absurd (by rwa [hstuck]) (not_passes_of_arrived hafter hin)
    · have hseen := hafter.seen b'.sequence (by omega) le_rfl
      have hbound := ((harrived _).mp hseen).2
      change b'.sequence = m + 1
      omega

/-- When the events raise nothing in their own order, every order within the window raises nothing
and has every event handled once. -/
theorem handled_of_quiet (hretry : R.Retriable)
    (hopen : ∀ m, R.closed (R.states stream s₀ m) = false) (hwindow : 0 < R.window) {n : ℕ}
    (hquiet : (R.deliverAll stream (.init s₀) (List.range' 1 n)).2 = []) {order : List ℕ}
    (hwindowed : R.Windowed stream (.init s₀) order) (hall : ∀ i, i ∈ order ↔ 1 ≤ i ∧ i ≤ n) :
    let r := R.deliverAll stream (.init s₀) order
    r.2 = [] ∧ r.1.sequence = n ∧ r.1.handled = List.range' 1 n ∧ r.1.pending.keys = [] := by
  obtain ⟨hrange, hsequence⟩ := passes_of_quiet hretry hopen hwindow hquiet
  have htracks := (deliverAll_tracks hretry hopen _ (tracks_init R stream s₀) hrange).1
  refine handled_all hretry hopen (fun m hm => htracks.passed m ?_) hwindowed hall
  rw [hsequence]
  exact hm

/-- Each number arrives when all those a window below it have arrived. -/
def Lags (window : ℕ) (order : List ℕ) : Prop :=
  ∀ before i after, order = before ++ i :: after →
    1 ≤ i ∧ ∀ j, 1 ≤ j → j + window ≤ i → j ∈ before

theorem Lags.mono {window window' : ℕ} {order : List ℕ} (h : Lags window order)
    (hle : window ≤ window') : Lags window' order := by
  intro before i after heq
  obtain ⟨hi, hlag⟩ := h before i after heq
  exact ⟨hi, fun j hj hji => hlag j hj (by omega)⟩

/-- Arrivals which all that lies a window below has preceded. -/
theorem Lags.append {window : ℕ} {order added : List ℕ} (h : Lags window order)
    (hadded : ∀ i ∈ added, 1 ≤ i ∧ ∀ j, 1 ≤ j → j + window ≤ i → j ∈ order) :
    Lags window (order ++ added) := by
  intro before i after heq
  rcases List.append_eq_append_iff.mp heq with ⟨rest, rfl, hrest⟩ | ⟨rest, rfl, hrest⟩
  · obtain ⟨hi, hlag⟩ := hadded i (by rw [hrest]; simp)
    exact ⟨hi, fun j hj hji => List.mem_append_left _ (hlag j hj hji)⟩
  · cases rest with
    | nil =>
      obtain ⟨hi, hlag⟩ := hadded i (by rw [← List.nil_append added, ← hrest]; simp)
      exact ⟨hi, fun j hj hji => by simpa using hlag j hj hji⟩
    | cons i' rest =>
      obtain ⟨rfl, -⟩ := List.cons_eq_cons.mp hrest
      exact h before i rest rfl

/-- An order that lags by no more than the window is within it, when its events can be handled. -/
theorem windowed_of_lags (hretry : R.Retriable)
    (hopen : ∀ m, R.closed (R.states stream s₀ m) = false) {order : List ℕ}
    (hlags : Lags R.window order) (hpasses : ∀ m, m + 1 ∈ order → R.Passes stream s₀ m) :
    R.Windowed stream (.init s₀) order := by
  induction order using List.reverseRecOn with
  | nil => exact trivial
  | append_singleton before i ih =>
    have hbefore : R.Windowed stream (.init s₀) before := by
      refine ih (fun before' j after heq => ?_) fun m hm => hpasses m (List.mem_append_left _ hm)
      exact hlags before' j (after ++ [i]) (by rw [heq]; simp)
    obtain ⟨hi, hlag⟩ := hlags before i [] rfl
    refine windowed_append.mpr ⟨hbefore, ⟨hi, ?_⟩, trivial⟩
    have htracks := (deliverAll_tracks hretry hopen _ (tracks_init R stream s₀) hbefore).1
    set b := (R.deliverAll stream (.init s₀) before).1
    by_contra hlt
    have harrived : b.sequence + 1 ∈ before := hlag _ (Nat.le_add_left _ _) (by omega)
    exact not_passes_of_arrived htracks (by simpa using harrived)
      (hpasses b.sequence (List.mem_append_left _ harrived))

/-- Such an order raises nothing. -/
theorem quiet_of_lags (hretry : R.Retriable)
    (hopen : ∀ m, R.closed (R.states stream s₀ m) = false) {order : List ℕ}
    (hlags : Lags R.window order) (hpasses : ∀ m, m + 1 ∈ order → R.Passes stream s₀ m) :
    (R.deliverAll stream (.init s₀) order).2 = [] := by
  have hwindowed := windowed_of_lags hretry hopen hlags hpasses
  by_contra hraised
  obtain ⟨m, hfails, harrived⟩ :=
    (deliverAll_tracks hretry hopen order (tracks_init R stream s₀) hwindowed).2 hraised
  exact hfails (hpasses m (by simpa using harrived))

end Reorderer

end CompanionBackend.EventReordering
