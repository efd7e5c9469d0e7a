import Mathlib.Data.List.Induction
import Mathlib.Tactic.Ring

/-!
# Readers of prefixes

A reader takes a value from the front of a list and leaves the rest. It reads a layout exactly when
it takes what the layout writes, before any rest, and nothing else; readers put in a row read the
layouts put in a row. Numbers of a fixed width in big-endian order are the first instance.
-/
namespace CompanionBackend.PrefixReaders

variable {α β γ : Type}

abbrev Reader (β α : Type) := List β → Option (α × List β)

/-- `read` takes what `write` lays out of the valid values, and nothing else. -/
structure Reads (read : Reader β α) (write : α → List β) (valid : α → Prop) : Prop where
  sound : ∀ {bs a rest}, read bs = some (a, rest) → valid a ∧ bs = write a ++ rest
  complete : ∀ {a} rest, valid a → read (write a ++ rest) = some (a, rest)

/-- A value that is there only when asked for. -/
def optional (present : Bool) (read : Reader β α) : Reader β (Option α) := fun bs =>
  if present then (read bs).map fun p => (some p.1, p.2) else some (none, bs)

def writeOptional (write : α → List β) : Option α → List β
  | some a => write a
  | none => []

theorem Reads.optional {read : Reader β α} {write : α → List β} {valid : α → Prop}
    (h : Reads read write valid) (present : Bool) :
    Reads (optional present read) (writeOptional write)
      (fun o => o.isSome = present ∧ ∀ a ∈ o, valid a) where
  sound := by
    intro bs o rest hread
    cases present with
    | false =>
      simp only [PrefixReaders.optional, Bool.false_eq_true, if_false, Option.some.injEq,
        Prod.mk.injEq] at hread
      obtain ⟨rfl, rfl⟩ := hread
      simp [writeOptional]
    | true =>
      simp only [PrefixReaders.optional, if_true, Option.map_eq_some_iff, Prod.mk.injEq] at hread
      obtain ⟨⟨a, mid⟩, ha, rfl, rfl⟩ := hread
      obtain ⟨hva, rfl⟩ := h.sound ha
      exact ⟨⟨rfl, by simpa using hva⟩, rfl⟩
  complete := by
    intro o rest ho
    cases o with
    | none =>
      obtain rfl : present = false := by simpa using ho.1.symm
      rfl
    | some a =>
      obtain rfl : present = true := by simpa using ho.1.symm
      have ha := h.complete rest (ho.2 a rfl)
      simp only [PrefixReaders.optional, writeOptional, if_true, ha, Option.map_some]

/-- A value in another form. -/
def inForm (f : α → γ) (read : Reader β α) : Reader β γ := fun bs =>
  (read bs).map fun p => (f p.1, p.2)

theorem Reads.inForm {read : Reader β α} {write : α → List β} {valid : α → Prop} {f : α → γ}
    {g : γ → α} {valid' : γ → Prop} (h : Reads read write valid)
    (hf : ∀ a, valid a → valid' (f a) ∧ g (f a) = a)
    (hg : ∀ c, valid' c → valid (g c) ∧ f (g c) = c) :
    Reads (inForm f read) (write ∘ g) valid' where
  sound := by
    intro bs c rest hread
    simp only [PrefixReaders.inForm, Option.map_eq_some_iff, Prod.mk.injEq] at hread
    obtain ⟨⟨a, mid⟩, ha, rfl, rfl⟩ := hread
    obtain ⟨hva, rfl⟩ := h.sound ha
    obtain ⟨hvalid, hback⟩ := hf a hva
    exact ⟨hvalid, by simp only [Function.comp_apply, hback]⟩
  complete := by
    intro c rest hc
    obtain ⟨hvalid, hback⟩ := hg c hc
    have ha := h.complete rest hvalid
    simp only [PrefixReaders.inForm, Function.comp_apply, ha, Option.map_some, hback]

/-- `n` values, none when fewer are left. -/
def block (n : ℕ) : Reader β (List β) := fun bs =>
  if bs.length < n then none else some (bs.take n, bs.drop n)

theorem block_reads (n : ℕ) : Reads (block n) (id : List β → List β) (·.length = n) where
  sound := by
    intro bs a rest hread
    by_cases hshort : bs.length < n
    · simp [block, hshort] at hread
    · simp only [block, if_neg hshort, Option.some.injEq, Prod.mk.injEq] at hread
      obtain ⟨rfl, rfl⟩ := hread
      refine ⟨?_, (List.take_append_drop n bs).symm⟩
      simp only [List.length_take]
      omega
  complete := by
    intro a rest ha
    have hnot : ¬ (a ++ rest).length < n := by
      rw [List.length_append]
      omega
    simp only [block, id_eq, if_neg hnot, List.take_left' ha, List.drop_left' ha]

/-! ### Numbers -/

/-- `n.to_bytes(width, 'big')`. -/
def toBytes : ℕ → ℕ → List UInt8
  | 0, _ => []
  | width + 1, n => toBytes width (n / 256) ++ [UInt8.ofNat n]

/-- `int.from_bytes(bs, 'big')`. -/
def fromBytes (bs : List UInt8) : ℕ := bs.foldl (fun n b => n * 256 + b.toNat) 0

theorem fromBytes_concat (bs : List UInt8) (b : UInt8) :
    fromBytes (bs ++ [b]) = fromBytes bs * 256 + b.toNat := by
  simp [fromBytes]

@[simp] theorem length_toBytes (width n : ℕ) : (toBytes width n).length = width := by
  induction width generalizing n with
  | zero => rfl
  | succ width ih => simp [toBytes, ih]

theorem fromBytes_toBytes {width n : ℕ} (h : n < 256 ^ width) :
    fromBytes (toBytes width n) = n := by
  induction width generalizing n with
  | zero =>
    have : n = 0 := by simpa using h
    subst this
    rfl
  | succ width ih =>
    have hdiv : n / 256 < 256 ^ width := by
      rw [Nat.div_lt_iff_lt_mul (by decide), ← pow_succ]
      exact h
    have hlast : (UInt8.ofNat n).toNat = n % 256 := by simp
    rw [toBytes, fromBytes_concat, ih hdiv, hlast]
    omega

theorem fromBytes_lt (bs : List UInt8) : fromBytes bs < 256 ^ bs.length := by
  induction bs using List.reverseRecOn with
  | nil => simp [fromBytes]
  | append_singleton bs b ih =>
    have hb := b.toNat_lt
    rw [fromBytes_concat, List.length_append, List.length_singleton, pow_succ]
    omega

theorem toBytes_fromBytes (bs : List UInt8) : toBytes bs.length (fromBytes bs) = bs := by
  induction bs using List.reverseRecOn with
  | nil => rfl
  | append_singleton bs b ih =>
    have hb := b.toNat_lt
    have hdiv : (fromBytes bs * 256 + b.toNat) / 256 = fromBytes bs := by omega
    have hlast : UInt8.ofNat (fromBytes bs * 256 + b.toNat) = b := by
      rw [← UInt8.toNat_inj, UInt8.toNat_ofNat']
      omega
    rw [fromBytes_concat, List.length_append, List.length_singleton, toBytes, hdiv, hlast, ih]

/-- A number of `width` bytes, none when fewer are left. -/
def number (width : ℕ) : Reader UInt8 ℕ := inForm fromBytes (block width)

theorem number_reads (width : ℕ) :
    Reads (number width) (toBytes width) (· < 256 ^ width) := by
  refine (block_reads width).inForm ?_ ?_
  · rintro bs rfl
    exact ⟨fromBytes_lt bs, toBytes_fromBytes bs⟩
  · intro n hn
    exact ⟨length_toBytes width n, fromBytes_toBytes hn⟩

end CompanionBackend.PrefixReaders
