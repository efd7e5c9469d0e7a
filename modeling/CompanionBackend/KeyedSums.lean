import Mathlib.Data.List.Dedup
import Mathlib.Algebra.BigOperators.Group.List.Basic
import Mathlib.Algebra.Order.BigOperators.Group.List
import Mathlib.Algebra.Ring.Int.Defs

/-!
# Sums over the entries of a list that satisfy a test

A table of additive entries is a list; the figure for a key is the sum over the
entries filed under it. Totals over a coarser key are sums of totals over a
finer one, provided the finer keys are listed once each.
-/
namespace CompanionBackend.KeyedSums

variable {α κ : Type*}

/-- Sum of `f` over the entries that pass the test `p`. -/
def sumWhere (p : α → Bool) (f : α → ℤ) (xs : List α) : ℤ := ((xs.filter p).map f).sum

@[simp] theorem sumWhere_nil (p : α → Bool) (f : α → ℤ) : sumWhere p f [] = 0 := rfl

theorem sumWhere_cons (p : α → Bool) (f : α → ℤ) (x : α) (xs : List α) :
    sumWhere p f (x :: xs) = (if p x then f x else 0) + sumWhere p f xs := by
  cases h : p x <;> simp [sumWhere, h]

@[simp] theorem sumWhere_append (p : α → Bool) (f : α → ℤ) (xs ys : List α) :
    sumWhere p f (xs ++ ys) = sumWhere p f xs + sumWhere p f ys := by
  simp [sumWhere]

theorem sumWhere_true (f : α → ℤ) (xs : List α) :
    sumWhere (fun _ => true) f xs = (xs.map f).sum := by
  simp [sumWhere]

theorem sumWhere_eq_zero {p : α → Bool} {f : α → ℤ} {xs : List α}
    (h : ∀ x ∈ xs, p x = true → f x = 0) : sumWhere p f xs = 0 := by
  induction xs with
  | nil => rfl
  | cons x xs ih =>
    rw [sumWhere_cons, ih fun y hy => h y (List.mem_cons_of_mem _ hy)]
    split_ifs with hp
    · simp [h x List.mem_cons_self hp]
    · rfl

theorem sumWhere_nonneg {p : α → Bool} {f : α → ℤ} {xs : List α}
    (h : ∀ x ∈ xs, 0 ≤ f x) : 0 ≤ sumWhere p f xs := by
  induction xs with
  | nil => exact le_rfl
  | cons x xs ih =>
    have hx := h x List.mem_cons_self
    have hxs := ih fun y hy => h y (List.mem_cons_of_mem _ hy)
    rw [sumWhere_cons]
    split_ifs <;> omega

theorem sumWhere_congr {p q : α → Bool} {f g : α → ℤ} {xs : List α}
    (hp : ∀ x ∈ xs, p x = q x) (hf : ∀ x ∈ xs, p x = true → f x = g x) :
    sumWhere p f xs = sumWhere q g xs := by
  induction xs with
  | nil => rfl
  | cons x xs ih =>
    rw [sumWhere_cons, sumWhere_cons,
      ih (fun y hy => hp y (List.mem_cons_of_mem _ hy))
        (fun y hy => hf y (List.mem_cons_of_mem _ hy)), ← hp x List.mem_cons_self]
    split_ifs with hx
    · rw [hf x List.mem_cons_self hx]
    · rfl

theorem sumWhere_sub (p : α → Bool) (f g : α → ℤ) (xs : List α) :
    sumWhere p (fun x => f x - g x) xs = sumWhere p f xs - sumWhere p g xs := by
  induction xs with
  | nil => rfl
  | cons x xs ih =>
    simp only [sumWhere_cons, ih]
    split_ifs <;> omega

theorem sumWhere_add (p : α → Bool) (f g : α → ℤ) (xs : List α) :
    sumWhere p (fun x => f x + g x) xs = sumWhere p f xs + sumWhere p g xs := by
  induction xs with
  | nil => rfl
  | cons x xs ih =>
    simp only [sumWhere_cons, ih]
    split_ifs <;> omega

theorem sumWhere_map {β : Type*} (p : α → Bool) (f : α → ℤ) (g : β → α) (ys : List β) :
    sumWhere p f (ys.map g) = sumWhere (fun y => p (g y)) (fun y => f (g y)) ys := by
  induction ys with
  | nil => rfl
  | cons y ys ih => simp only [List.map_cons, sumWhere_cons, ih]

/-- Dropping entries whose value is zero leaves every sum alone. -/
theorem sumWhere_filter_of_zero {p q : α → Bool} {f : α → ℤ} {xs : List α}
    (h : ∀ x ∈ xs, q x = false → f x = 0) :
    sumWhere p f (xs.filter q) = sumWhere p f xs := by
  induction xs with
  | nil => rfl
  | cons x xs ih =>
    have hxs := ih fun y hy => h y (List.mem_cons_of_mem _ hy)
    cases hq : q x with
    | true => simp [hq, sumWhere_cons, hxs]
    | false => simp [hq, sumWhere_cons, hxs, h x List.mem_cons_self hq]

variable [DecidableEq κ]

/-- The figure filed under one key. -/
def sumAt (key : α → κ) (f : α → ℤ) (k : κ) (xs : List α) : ℤ :=
  sumWhere (fun x => decide (key x = k)) f xs

@[simp] theorem sumAt_nil (key : α → κ) (f : α → ℤ) (k : κ) : sumAt key f k [] = 0 := rfl

@[simp] theorem sumAt_append (key : α → κ) (f : α → ℤ) (k : κ) (xs ys : List α) :
    sumAt key f k (xs ++ ys) = sumAt key f k xs + sumAt key f k ys :=
  sumWhere_append _ _ _ _

theorem sumAt_cons (key : α → κ) (f : α → ℤ) (k : κ) (x : α) (xs : List α) :
    sumAt key f k (x :: xs) = (if key x = k then f x else 0) + sumAt key f k xs := by
  simp [sumAt, sumWhere_cons]

theorem sumAt_eq_zero_of_not_mem {key : α → κ} {f : α → ℤ} {k : κ} {xs : List α}
    (h : k ∉ xs.map key) : sumAt key f k xs = 0 := by
  refine sumWhere_eq_zero fun x hx hk => ?_
  exact absurd (List.mem_map.mpr ⟨x, hx, of_decide_eq_true hk⟩) h

/-- A nodup list of keys picks the value of one of them out of a sum over all. -/
theorem sumWhere_single {ks : List κ} (hnodup : ks.Nodup) {k : κ} (hk : k ∈ ks)
    (p : κ → Bool) (v : ℤ) :
    sumWhere p (fun k' => if k = k' then v else 0) ks = if p k then v else 0 := by
  induction ks with
  | nil => cases hk
  | cons a ks ih =>
    rw [sumWhere_cons]
    obtain ⟨ha, hks⟩ := List.nodup_cons.mp hnodup
    rcases List.mem_cons.mp hk with rfl | hk'
    · have hrest : sumWhere p (fun k' => if k = k' then v else 0) ks = 0 := by
        refine sumWhere_eq_zero fun x hx _ => if_neg ?_
        rintro rfl
        exact ha hx
      simp [hrest]
    · have hne : k ≠ a := by
        rintro rfl
        exact ha hk'
      simp [hne, ih hks hk']

/-- Summing the figures of all keys that pass a test sums the entries whose key
passes it, when every entry's key is listed exactly once. -/
theorem sumWhere_sumAt {key : α → κ} {ks : List κ} (hnodup : ks.Nodup) {xs : List α}
    (hcover : ∀ x ∈ xs, key x ∈ ks) (p : κ → Bool) (f : α → ℤ) :
    sumWhere p (fun k => sumAt key f k xs) ks = sumWhere (fun x => p (key x)) f xs := by
  induction xs with
  | nil => exact sumWhere_eq_zero fun _ _ _ => rfl
  | cons x xs ih =>
    have hxs := ih fun y hy => hcover y (List.mem_cons_of_mem _ hy)
    have hx := sumWhere_single hnodup (hcover x List.mem_cons_self) p (f x)
    simp only [sumAt_cons, sumWhere_add, sumWhere_cons, hxs, hx]

end CompanionBackend.KeyedSums
