import Mathlib.Data.List.DropRight
import Mathlib.Data.List.TakeWhile

/-!
# Texts with separators

A text is divided at the first or at the last place of a separator. Parts that were joined are found
again if the parts on the far side of the separator do not contain it.
-/
namespace CompanionBackend.Separators

section

variable {α : Type*} [DecidableEq α] {x : α} {a b c s : List α}

/-- The parts before and after the first separator. -/
def partition (x : α) (s : List α) : Option (List α × List α) :=
  if x ∈ s then some (s.takeWhile (· ≠ x), (s.dropWhile (· ≠ x)).tail) else none

/-- The parts before and after the last separator. -/
def rpartition (x : α) (s : List α) : Option (List α × List α) :=
  (partition x s.reverse).map fun p => (p.2.reverse, p.1.reverse)

/-- The parts at the last separators, at most `n` of them. -/
def rsplit (x : α) : ℕ → List α → List (List α)
  | 0, s => [s]
  | n + 1, s =>
    match rpartition x s with
    | none => [s]
    | some (front, last) => rsplit x n front ++ [last]

theorem partition_append (h : x ∉ a) : partition x (a ++ x :: b) = some (a, b) := by
  have ha : ∀ y ∈ a, decide (y ≠ x) = true := fun y hy => by
    rw [decide_eq_true_eq]
    rintro rfl
    exact h hy
  have htake : (a ++ x :: b).takeWhile (· ≠ x) = a := by
    rw [List.takeWhile_append_of_pos ha, List.takeWhile_cons_of_neg (by simp), List.append_nil]
  have hdrop : (a ++ x :: b).dropWhile (· ≠ x) = x :: b := by
    rw [List.dropWhile_append_of_pos ha, List.dropWhile_cons_of_neg (by simp)]
  rw [partition, if_pos (List.mem_append_right _ List.mem_cons_self), htake, hdrop, List.tail_cons]

theorem rpartition_append (h : x ∉ b) : rpartition x (a ++ x :: b) = some (a, b) := by
  have hrev : (a ++ x :: b).reverse = b.reverse ++ x :: a.reverse := by simp
  rw [rpartition, hrev, partition_append (List.mem_reverse.not.mpr h), Option.map_some,
    List.reverse_reverse, List.reverse_reverse]

/-- Three parts are found again, whatever the first one contains. -/
theorem rsplit_two (hb : x ∉ b) (hc : x ∉ c) : rsplit x 2 (a ++ x :: (b ++ x :: c)) = [a, b, c] := by
  have hlast : a ++ x :: (b ++ x :: c) = (a ++ x :: b) ++ x :: c := by simp
  rw [rsplit, hlast, rpartition_append hc]
  dsimp only
  rw [rsplit, rpartition_append hb]
  rfl

theorem not_mem_of_mem_splitOn {part : List α} (h : part ∈ s.splitOn x) : x ∉ part := by
  induction s generalizing part with
  | nil =>
    rw [List.splitOn_nil, List.mem_singleton] at h
    rw [h]
    exact List.not_mem_nil
  | cons y s ih =>
    rw [List.splitOn_cons_eq_if_modifyHead] at h
    split_ifs at h with hy
    · obtain rfl | h := List.mem_cons.mp h
      · exact List.not_mem_nil
      · exact ih h
    · cases hs : s.splitOn x with
      | nil => exact absurd hs (List.splitOn_ne_nil x s)
      | cons first rest =>
        rw [hs, List.modifyHead_cons] at h
        obtain rfl | h := List.mem_cons.mp h
        · rw [List.mem_cons, not_or]
          exact ⟨fun hxy => hy (beq_iff_eq.mpr hxy.symm), ih (hs ▸ List.mem_cons_self)⟩
        · exact ih (hs ▸ List.mem_cons_of_mem _ h)

theorem splitOn_map {β : Type*} [DecidableEq β] {f : β → α} (hf : Function.Injective f) (y : β)
    (t : List β) : (t.map f).splitOn (f y) = (t.splitOn y).map (List.map f) := by
  induction t with
  | nil => rfl
  | cons z t ih =>
    have hbeq : (f z == f y) = (z == y) := by
      rw [Bool.eq_iff_iff, beq_iff_eq, beq_iff_eq, hf.eq_iff]
    rw [List.map_cons, List.splitOn_cons_eq_if_modifyHead, List.splitOn_cons_eq_if_modifyHead, ih, hbeq]
    split_ifs
    · rfl
    · cases t.splitOn y <;> rfl

/-- Three parts without the separator in them. -/
theorem splitOn_eq_three : s.splitOn x = [a, b, c] ↔
    s = a ++ x :: (b ++ x :: c) ∧ x ∉ a ∧ x ∉ b ∧ x ∉ c := by
  constructor
  · intro h
    have hs : s = [x].intercalate [a, b, c] := by rw [← h, List.intercalate_splitOn]
    have hmem : ∀ part ∈ s.splitOn x, x ∉ part := fun _ hpart => not_mem_of_mem_splitOn hpart
    rw [h] at hmem
    exact ⟨by rw [hs]; simp [List.intercalate], hmem a (by simp), hmem b (by simp), hmem c (by simp)⟩
  · rintro ⟨rfl, ha, hb, hc⟩
    rw [List.splitOn_append_cons_self_of_not_mem ha, List.splitOn_append_cons_self_of_not_mem hb,
      List.splitOn_eq_singleton hc]

end

end CompanionBackend.Separators
