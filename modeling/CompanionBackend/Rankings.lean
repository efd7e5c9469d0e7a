import Mathlib.Data.List.Sort

/-!
# Lists in the order of a key

Sorting by a key forgets the order of a list when no two of its elements share a key. Of a sorted list
one may keep a number of elements, or as many with different labels: what is kept is no later in the
order than what is left out.
-/
namespace CompanionBackend.Rankings

variable {α κ γ : Type*} [LinearOrder κ]

/-- The list in the order of the key. -/
def sortBy (key : α → κ) (xs : List α) : List α := xs.insertionSort fun a b => key a ≤ key b

/-- The list is in the order of the key. -/
def Sorted (key : α → κ) (xs : List α) : Prop := xs.Pairwise fun a b => key a ≤ key b

theorem sortBy_perm (key : α → κ) (xs : List α) : (sortBy key xs).Perm xs :=
  List.perm_insertionSort _ xs

theorem mem_sortBy {key : α → κ} {xs : List α} {a : α} : a ∈ sortBy key xs ↔ a ∈ xs :=
  (sortBy_perm key xs).mem_iff

theorem sorted_sortBy (key : α → κ) (xs : List α) : Sorted key (sortBy key xs) := by
  have htotal : Std.Total fun a b : α => key a ≤ key b := ⟨fun a b => le_total (key a) (key b)⟩
  have htrans : IsTrans α fun a b => key a ≤ key b := ⟨fun _ _ _ hab hbc => le_trans hab hbc⟩
  exact List.pairwise_insertionSort _ xs

/-- Sorting forgets the order. -/
theorem sortBy_eq {key : α → κ} {xs ys : List α} (h : xs.Perm ys)
    (hinj : ∀ a ∈ xs, ∀ b ∈ xs, key a = key b → a = b) : sortBy key xs = sortBy key ys := by
  have hperm : (sortBy key xs).Perm (sortBy key ys) :=
    ((sortBy_perm key xs).trans h).trans (sortBy_perm key ys).symm
  refine hperm.eq_of_pairwise (fun a b ha hb hab hba => ?_) (sorted_sortBy key xs) (sorted_sortBy key ys)
  have ha' : a ∈ xs := mem_sortBy.mp ha
  have hb' : b ∈ xs := h.mem_iff.mpr (mem_sortBy.mp hb)
  exact hinj a ha' b hb' (le_antisymm hab hba)

/-- What is taken of a sorted list is no later than the rest. -/
theorem le_of_mem_take {key : α → κ} {xs : List α} (h : Sorted key xs) {n : ℕ} {a b : α}
    (ha : a ∈ xs.take n) (hb : b ∈ xs) (hrest : b ∉ xs.take n) : key a ≤ key b := by
  rw [← List.take_append_drop n xs, List.mem_append] at hb
  have hsplit := h
  rw [Sorted, ← List.take_append_drop n xs] at hsplit
  exact (List.pairwise_append.mp hsplit).2.2 a ha b (hb.resolve_left hrest)

section Labels

variable [DecidableEq γ]

/-- Elements with new labels are added to those that are kept, until there are enough. -/
def takeDistinct (label : α → γ) (limit : ℕ) : List α → List α → List α
  | kept, [] => kept
  | kept, a :: rest =>
    let kept := if label a ∈ kept.map label then kept else kept ++ [a]
    if limit ≤ kept.length then kept else takeDistinct label limit kept rest

variable {label : α → γ} {limit : ℕ}

/-- What holds of the kept elements while elements of a list are added holds at the end. -/
theorem takeDistinct_induction {P : List α → Prop} {kept rest : List α} (h : P kept)
    (hadd : ∀ kept, P kept → ∀ a ∈ rest, label a ∉ kept.map label → kept.length < limit →
      P (kept ++ [a])) (hroom : kept.length < limit) : P (takeDistinct label limit kept rest) := by
  induction rest generalizing kept with
  | nil => exact h
  | cons a rest ih =>
    have hrest : ∀ kept, P kept → ∀ b ∈ rest, label b ∉ kept.map label → kept.length < limit →
        P (kept ++ [b]) := fun kept hkept b hb => hadd kept hkept b (List.mem_cons_of_mem a hb)
    rw [takeDistinct]
    by_cases hlabel : label a ∈ kept.map label
    · rw [if_pos hlabel, if_neg (by omega)]
      exact ih h hrest hroom
    · have hnext := hadd kept h a List.mem_cons_self hlabel hroom
      rw [if_neg hlabel]
      split_ifs with hfull
      · exact hnext
      · exact ih hnext hrest (by omega)

theorem length_takeDistinct {rest : List α} (h : 0 < limit) :
    (takeDistinct label limit [] rest).length ≤ limit :=
  takeDistinct_induction (P := fun kept => kept.length ≤ limit) (Nat.zero_le _)
    (fun kept _ a _ _ hroom => by rw [List.length_append, List.length_singleton]; omega) h

theorem nodup_takeDistinct {rest : List α} (h : 0 < limit) :
    ((takeDistinct label limit [] rest).map label).Nodup := by
  refine takeDistinct_induction (P := fun kept => (kept.map label).Nodup) List.nodup_nil
    (fun kept hkept a _ hlabel _ => ?_) h
  rw [List.map_append, List.map_singleton]
  exact List.nodup_append.mpr ⟨hkept, List.nodup_singleton _, fun x hx y hy => by
    rw [List.mem_singleton.mp hy]
    rintro rfl
    exact hlabel hx⟩

theorem mem_of_takeDistinct {rest : List α} (h : 0 < limit) :
    ∀ a ∈ takeDistinct label limit [] rest, a ∈ rest := by
  refine takeDistinct_induction (P := fun kept => ∀ a ∈ kept, a ∈ rest) (by simp)
    (fun kept hkept a ha _ _ x hx => ?_) h
  rcases List.mem_append.mp hx with hx | hx
  · exact hkept x hx
  · rw [List.mem_singleton.mp hx]
    exact ha

theorem subset_takeDistinct {kept rest : List α} : kept ⊆ takeDistinct label limit kept rest := by
  induction rest generalizing kept with
  | nil => exact List.Subset.refl _
  | cons a rest ih =>
    rw [takeDistinct]
    have hgrows : kept ⊆ if label a ∈ kept.map label then kept else kept ++ [a] := by
      split_ifs
      · exact List.Subset.refl _
      · exact List.subset_append_left _ _
    split_ifs at hgrows ⊢
    all_goals first
      | exact hgrows
      | exact List.Subset.trans hgrows ih

/-- What is left out of a sorted list shares its label with something kept that is no later, or is
itself no earlier than all that is kept. -/
theorem takeDistinct_best {key : α → κ} {kept rest : List α} (hsorted : Sorted key (kept ++ rest))
    {b : α} (hb : b ∈ rest) :
    (∃ a ∈ takeDistinct label limit kept rest, label a = label b ∧ key a ≤ key b) ∨
      ∀ a ∈ takeDistinct label limit kept rest, key a ≤ key b := by
  induction rest generalizing kept with
  | nil => simp at hb
  | cons c rest ih =>
    have hparts := List.pairwise_append.mp hsorted
    have hrest := List.pairwise_cons.mp hparts.2.1
    rw [takeDistinct]
    set kept' := if label c ∈ kept.map label then kept else kept ++ [c] with hkept'
    have hsorted' : Sorted key (kept' ++ rest) := by
      rw [hkept']
      split_ifs
      · exact List.pairwise_append.mpr ⟨hparts.1, hrest.2,
          fun x hx y hy => hparts.2.2 x hx y (List.mem_cons_of_mem c hy)⟩
      · rw [List.append_assoc, List.singleton_append]
        exact hsorted
    have hlate : ∀ a ∈ kept', key a ≤ key b := by
      have hfirst : ∀ a ∈ kept, key a ≤ key b := fun a ha => hparts.2.2 a ha b hb
      have hc : key c ≤ key b := by
        rcases List.mem_cons.mp hb with rfl | hb
        · exact le_rfl
        · exact hrest.1 b hb
      intro a ha
      rw [hkept'] at ha
      split_ifs at ha
      · exact hfirst a ha
      · rcases List.mem_append.mp ha with ha | ha
        · exact hfirst a ha
        · rw [List.mem_singleton.mp ha]
          exact hc
    split_ifs with hfull
    · exact .inr hlate
    · rcases List.mem_cons.mp hb with rfl | hb
      · have hlabel : ∃ a ∈ kept', label a = label b := by
          rw [hkept']
          split_ifs with hin
          · obtain ⟨a, ha, heq⟩ := List.mem_map.mp hin
            exact ⟨a, ha, heq⟩
          · exact ⟨b, List.mem_append_right _ (List.mem_singleton_self b), rfl⟩
        obtain ⟨a, ha, heq⟩ := hlabel
        exact .inl ⟨a, subset_takeDistinct ha, heq, hlate a ha⟩
      · exact ih hsorted' hb

end Labels

end CompanionBackend.Rankings
