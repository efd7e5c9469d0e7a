import Mathlib.Data.Int.Order.Basic
import Mathlib.Data.List.Nodup

/-!
# Lists in another order

What a search finds in a list is the same in every order of the list, as long as no two elements fit;
a minimum, and whether some element fits, are the same in any case.
-/
namespace CompanionBackend.Rearrangements

variable {α : Type*} {xs ys : List α}

/-- At most one element of the list fits. -/
def AtMostOne (P : α → Bool) (xs : List α) : Prop :=
  ∀ a ∈ xs, ∀ b ∈ xs, P a = true → P b = true → a = b

theorem AtMostOne.filter {P Q : α → Bool} (h : AtMostOne P xs) : AtMostOne P (xs.filter Q) :=
  fun a ha b hb => h a (List.mem_of_mem_filter ha) b (List.mem_of_mem_filter hb)

/-- Elements that share a key are one element, and all that fit share one. -/
theorem atMostOne_of_key {κ : Type*} {key : α → κ} {P : α → Bool} {k : κ}
    (hnodup : (xs.map key).Nodup) (hkey : ∀ a, P a = true → key a = k) : AtMostOne P xs :=
  fun a ha b hb hPa hPb =>
    List.inj_on_of_nodup_map hnodup ha hb ((hkey a hPa).trans (hkey b hPb).symm)

theorem find?_perm {P : α → Bool} (h : xs.Perm ys) (hone : AtMostOne P xs) :
    xs.find? P = ys.find? P := by
  cases hx : xs.find? P with
  | none =>
    refine (List.find?_eq_none.mpr fun b hb => ?_).symm
    exact List.find?_eq_none.mp hx b (h.mem_iff.mpr hb)
  | some a =>
    have ha := List.mem_of_find?_eq_some hx
    have hPa := List.find?_some hx
    obtain ⟨b, hb⟩ := Option.isSome_iff_exists.mp
      (List.find?_isSome.mpr ⟨a, h.mem_iff.mp ha, hPa⟩)
    rw [hb, hone a ha b (h.mem_iff.mpr (List.mem_of_find?_eq_some hb)) hPa (List.find?_some hb)]

theorem min?_perm {xs ys : List ℤ} (h : xs.Perm ys) : xs.min? = ys.min? := by
  cases hx : xs.min? with
  | none =>
    obtain rfl : xs = [] := List.min?_eq_none_iff.mp hx
    rw [h.symm.eq_nil, List.min?_nil]
  | some a =>
    obtain ⟨ha, hle⟩ := List.min?_eq_some_iff.mp hx
    exact (List.min?_eq_some_iff.mpr
      ⟨h.mem_iff.mp ha, fun b hb => hle b (h.mem_iff.mpr hb)⟩).symm

theorem any_perm {P : α → Bool} (h : xs.Perm ys) : xs.any P = ys.any P := by
  rw [Bool.eq_iff_iff, List.any_eq_true, List.any_eq_true]
  exact exists_congr fun a => and_congr_left' h.mem_iff

theorem isEmpty_perm (h : xs.Perm ys) : xs.isEmpty = ys.isEmpty := by
  rw [Bool.eq_iff_iff, List.isEmpty_iff, List.isEmpty_iff]
  exact ⟨fun hx => by rw [hx] at h; exact h.nil_eq.symm, fun hy => by rw [hy] at h; exact h.eq_nil⟩

end CompanionBackend.Rearrangements
