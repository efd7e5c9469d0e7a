import CompanionBackend.Rankings

/-!
# Pages behind a cursor

A list is read page by page in falling order of a key, each page behind the key that ended the one
before. With different keys nothing is missed. Where keys are shared, a page may end between two
elements of one key, and what is left of them lies behind no cursor.
-/
namespace CompanionBackend.KeysetPages

open Rankings

variable {α κ : Type*}

/-- What a request returns, and where the next one starts. -/
structure Page (α κ : Type*) where
  items : List α
  next : Option κ

/-- Following the cursors of a source until there is none visits these pages. -/
inductive Walked (page : Option κ → Page α κ) : Option κ → List (List α) → Prop
  | last {c : Option κ} (h : (page c).next = none) : Walked page c [(page c).items]
  | more {c : Option κ} {c' : κ} {pages : List (List α)} (h : (page c).next = some c')
      (rest : Walked page (some c') pages) : Walked page c ((page c).items :: pages)

theorem Walked.unique {page : Option κ → Page α κ} {c : Option κ} {pages pages' : List (List α)}
    (h : Walked page c pages) (h' : Walked page c pages') : pages = pages' := by
  induction h generalizing pages' with
  | last hnext =>
    cases h' with
    | last => rfl
    | more hnext' => cases hnext.symm.trans hnext'
  | more hnext _ ih =>
    cases h' with
    | last hnext' => cases hnext.symm.trans hnext'
    | more hnext' rest' =>
      obtain rfl := Option.some.inj (hnext.symm.trans hnext')
      rw [ih rest']

/-- A source that shows elements and cursors of another in its own form visits the same pages. -/
theorem Walked.map {β κ' : Type*} {page : Option κ → Page α κ} {shown : Option κ' → Page β κ'}
    {f : α → β} {g : κ → κ'} (hitems : ∀ c, (shown (c.map g)).items = (page c).items.map f)
    (hnext : ∀ c, (shown (c.map g)).next = (page c).next.map g) {c : Option κ}
    {pages : List (List α)} (h : Walked page c pages) :
    Walked shown (c.map g) (pages.map (List.map f)) := by
  induction h with
  | last hlast =>
    rw [List.map_singleton, ← hitems]
    exact .last (by rw [hnext, hlast, Option.map_none])
  | more hmore _ ih =>
    rw [List.map_cons, ← hitems]
    exact .more (by rw [hnext, hmore, Option.map_some]) ih

variable [LinearOrder κ]

/-- Keys fall, or stay where they are. -/
def Falling (key : α → κ) (xs : List α) : Prop := xs.Pairwise fun a b => key b ≤ key a

def StrictlyFalling (key : α → κ) (xs : List α) : Prop := xs.Pairwise fun a b => key b < key a

/-- The list with the greatest key first. -/
def descending (key : α → κ) (xs : List α) : List α :=
  sortBy (fun x => OrderDual.toDual (key x)) xs

theorem descending_perm (key : α → κ) (xs : List α) : (descending key xs).Perm xs :=
  sortBy_perm _ xs

theorem falling_descending (key : α → κ) (xs : List α) : Falling key (descending key xs) :=
  sorted_sortBy (fun x => OrderDual.toDual (key x)) xs

theorem strictlyFalling_descending {key : α → κ} {xs : List α} (h : (xs.map key).Nodup) :
    StrictlyFalling key (descending key xs) := by
  have hnodup : (descending key xs).Pairwise fun a b => key a ≠ key b :=
    List.pairwise_map.mp (((descending_perm key xs).map key).nodup_iff.mpr h)
  exact (falling_descending key xs).imp₂ (fun _ _ hle hne => lt_of_le_of_ne hle hne.symm) hnodup

/-- A list has one order in which its keys fall, when they are different. -/
theorem StrictlyFalling.eq {key : α → κ} {xs ys : List α} (hxs : StrictlyFalling key xs)
    (hys : StrictlyFalling key ys) (h : xs.Perm ys) : xs = ys :=
  h.eq_of_pairwise (fun _ _ _ _ hab hba => absurd hab hba.asymm) hxs hys

/-- The elements behind a cursor. -/
def behind (key : α → κ) (c : Option κ) (xs : List α) : List α :=
  xs.filter fun x => c.all fun k => decide (key x < k)

@[simp] theorem behind_none (key : α → κ) (xs : List α) : behind key none xs = xs := by
  simp [behind]

theorem mem_behind_some {key : α → κ} {k : κ} {xs : List α} {x : α} :
    x ∈ behind key (some k) xs ↔ x ∈ xs ∧ key x < k := by
  simp [behind]

/-- A cursor inside a part of the list can be applied to that part. -/
theorem behind_behind {key : α → κ} {c : Option κ} {xs : List α} {x : α}
    (hx : x ∈ behind key c xs) :
    behind key (some (key x)) (behind key c xs) = behind key (some (key x)) xs := by
  unfold behind at hx ⊢
  rw [List.filter_filter]
  refine List.filter_congr fun y _ => ?_
  have hc := (List.mem_filter.mp hx).2
  cases c with
  | none => simp
  | some k =>
    simp only [Option.all_some, decide_eq_true_eq] at hc ⊢
    by_cases hy : key y < key x <;> simp [hy, hc.trans']

theorem behind_perm {key : α → κ} {c : Option κ} {xs ys : List α} (h : xs.Perm ys) :
    (behind key c xs).Perm (behind key c ys) := h.filter _

theorem StrictlyFalling.behind {key : α → κ} {xs : List α} (h : StrictlyFalling key xs)
    (c : Option κ) : StrictlyFalling key (behind key c xs) := h.filter _

/-! ### Different keys -/

/-- What lies behind the last element that was taken is the rest. -/
theorem behind_last {key : α → κ} {xs front rest : List α} {x : α}
    (h : StrictlyFalling key xs) (hxs : xs = front ++ x :: rest) :
    KeysetPages.behind key (some (key x)) xs = rest := by
  subst hxs
  obtain ⟨-, hx, hfront⟩ := List.pairwise_append.mp h
  have hnone : (front ++ [x]).filter (fun y => decide (key y < key x)) = [] := by
    refine List.filter_eq_nil_iff.mpr fun y hy => ?_
    rw [decide_eq_true_eq, not_lt]
    obtain hy | hy := List.mem_append.mp hy
    · exact (hfront y hy x List.mem_cons_self).le
    · rw [List.mem_singleton.mp hy]
  have hall : rest.filter (fun y => decide (key y < key x)) = rest :=
    List.filter_eq_self.mpr fun y hy => decide_eq_true ((List.pairwise_cons.mp hx).1 y hy)
  have hsplit : front ++ x :: rest = (front ++ [x]) ++ rest := by simp
  simp only [KeysetPages.behind, Option.all_some]
  rw [hsplit, List.filter_append, hnone, hall, List.nil_append]

/-- Pages that look one element ahead give the whole list, each in rising order. -/
theorem walked_lookahead {key : α → κ} {n : ℕ} (hn : 0 < n) {xs : List α}
    (hxs : StrictlyFalling key xs) {page : Option κ → Page α κ}
    (hitems : ∀ c, (page c).items = ((behind key c xs).take n).reverse)
    (hnext : ∀ c, (page c).next = if n < (behind key c xs).length then
      ((behind key c xs).take n).getLast?.map key else none) (c : Option κ) :
    ∃ pages, Walked page c pages ∧ (pages.map List.reverse).flatten = behind key c xs := by
  induction hlength : (behind key c xs).length using Nat.strong_induction_on generalizing c with
  | _ length ih =>
    by_cases hmore : n < (behind key c xs).length
    · have htaken : (behind key c xs).take n ≠ [] := by
        intro hnil
        have := congrArg List.length hnil
        rw [List.length_take, List.length_nil] at this
        omega
      obtain ⟨front, x, hfront⟩ := (List.eq_nil_or_concat' _).resolve_left htaken
      have hsplit : behind key c xs = front ++ x :: (behind key c xs).drop n := by
        rw [← List.singleton_append, ← List.append_assoc, ← hfront, List.take_append_drop]
      have hx : x ∈ behind key c xs := by
        rw [hsplit]
        exact List.mem_append_right _ List.mem_cons_self
      have hrest : behind key (some (key x)) xs = (behind key c xs).drop n := by
        rw [← behind_behind hx]
        exact behind_last (hxs.behind c) hsplit
      obtain ⟨pages, hwalked, hpages⟩ := ih ((behind key c xs).drop n).length
        (by rw [List.length_drop]; omega) (some (key x)) (by rw [hrest])
      refine ⟨(page c).items :: pages, .more ?_ hwalked, ?_⟩
      · rw [hnext, if_pos hmore, hfront, List.getLast?_concat, Option.map_some]
      · rw [List.map_cons, List.flatten_cons, hitems, List.reverse_reverse, hpages, hrest,
          List.take_append_drop]
    · refine ⟨[(page c).items], .last (by rw [hnext, if_neg hmore]), ?_⟩
      rw [List.map_singleton, List.flatten_singleton, hitems, List.reverse_reverse,
        List.take_of_length_le (by omega)]

/-- Read with a look ahead every element comes once, each page rises and lies below the pages before
it. -/
theorem lookahead_complete {key : α → κ} {xs : List α} {pages : List (List α)}
    (hnodup : (xs.map key).Nodup)
    (h : (pages.map List.reverse).flatten = descending key xs) :
    pages.flatten.Perm xs ∧ (∀ p ∈ pages, p.Pairwise fun a b => key a < key b) ∧
      pages.Pairwise fun p q => ∀ a ∈ p, ∀ b ∈ q, key b < key a := by
  have hfalling : StrictlyFalling key (pages.map List.reverse).flatten :=
    h ▸ strictlyFalling_descending hnodup
  obtain ⟨hpage, hpages⟩ := List.pairwise_flatten.mp hfalling
  have hperm : (pages.map List.reverse).flatten.Perm pages.flatten := by
    clear hfalling hpage hpages h
    induction pages with
    | nil => exact List.Perm.refl _
    | cons p pages ih => exact (List.reverse_perm p).append ih
  refine ⟨hperm.symm.trans (h ▸ descending_perm key xs), fun p hp => ?_, ?_⟩
  · exact List.pairwise_reverse.mp (hpage p.reverse (List.mem_map_of_mem hp))
  · refine (List.pairwise_map.mp hpages).imp fun hpq a ha b hb => ?_
    exact hpq a (List.mem_reverse.mpr ha) b (List.mem_reverse.mpr hb)

/-! ### Merging limited lists -/

/-- The first elements of two merged lists are among the first of each. -/
theorem take_merge (le : α → α → Bool) {k m n : ℕ} (hm : k ≤ m) (hn : k ≤ n) (xs ys : List α) :
    (List.merge (xs.take m) (ys.take n) le).take k = (List.merge xs ys le).take k := by
  induction k generalizing m n xs ys with
  | zero => simp
  | succ k ih =>
    obtain ⟨m, rfl⟩ : ∃ m', m = m' + 1 := ⟨m - 1, by omega⟩
    obtain ⟨n, rfl⟩ : ∃ n', n = n' + 1 := ⟨n - 1, by omega⟩
    cases xs with
    | nil => rw [List.take_nil, List.nil_merge, List.nil_merge, List.take_take, min_eq_left hn]
    | cons x xs =>
      cases ys with
      | nil => rw [List.take_nil, List.merge_right, List.merge_right, List.take_take, min_eq_left hm]
      | cons y ys =>
        rw [List.take_succ_cons, List.take_succ_cons, List.cons_merge_cons, List.cons_merge_cons]
        by_cases hle : le x y = true
        · rw [if_pos hle, if_pos hle, List.take_succ_cons, List.take_succ_cons]
          exact congrArg (List.cons x)
            (ih (m := m) (n := n + 1) (by omega) (by omega) xs (y :: ys))
        · rw [if_neg hle, if_neg hle, List.take_succ_cons, List.take_succ_cons]
          exact congrArg (List.cons y)
            (ih (m := m + 1) (n := n) (by omega) (by omega) (x :: xs) ys)

theorem descending_append {key : α → κ} {xs ys : List α} (h : ((xs ++ ys).map key).Nodup) :
    descending key (xs ++ ys) =
      List.merge (descending key xs) (descending key ys) fun a b => decide (key b ≤ key a) := by
  have hperm : (List.merge (descending key xs) (descending key ys)
      fun a b => decide (key b ≤ key a)).Perm (xs ++ ys) :=
    (List.merge_perm_append _).trans ((descending_perm key xs).append (descending_perm key ys))
  have hfalling := @List.pairwise_merge _ (fun a b => decide (key b ≤ key a))
    (fun a b c hab hbc => decide_eq_true ((of_decide_eq_true hbc).trans (of_decide_eq_true hab)))
    (fun a b => by simpa using le_total (key b) (key a))
    (descending key xs) (descending key ys)
    ((falling_descending key xs).imp decide_eq_true) ((falling_descending key ys).imp decide_eq_true)
  have hnodup := List.pairwise_map.mp ((hperm.map key).nodup_iff.mpr h)
  exact (strictlyFalling_descending h).eq
    (hfalling.imp₂ (fun _ _ hle hne => lt_of_le_of_ne (of_decide_eq_true hle) hne.symm) hnodup)
    ((descending_perm key _).trans hperm.symm)

/-- The `k` elements with the greatest keys are the same. -/
def SameTop (key : α → κ) (k : ℕ) (xs ys : List α) : Prop :=
  (descending key xs).take k = (descending key ys).take k

theorem SameTop.append {key : α → κ} {k : ℕ} {xs xs' ys ys' : List α} (hx : SameTop key k xs xs')
    (hy : SameTop key k ys ys') (h : ((xs ++ ys).map key).Nodup)
    (h' : ((xs' ++ ys').map key).Nodup) : SameTop key k (xs ++ ys) (xs' ++ ys') := by
  unfold SameTop at *
  rw [descending_append h, descending_append h', ← take_merge _ le_rfl le_rfl, hx, hy,
    take_merge _ le_rfl le_rfl]

/-- A list that was limited has the same top. -/
theorem sameTop_limited {key : α → κ} {k m : ℕ} (hk : k ≤ m) {xs : List α}
    (h : (xs.map key).Nodup) : SameTop key k ((descending key xs).take m) xs := by
  have hsorted : StrictlyFalling key ((descending key xs).take m) :=
    (strictlyFalling_descending h).sublist (List.take_sublist m _)
  have hnodup : (((descending key xs).take m).map key).Nodup :=
    List.pairwise_map.mpr (hsorted.imp fun hlt => hlt.ne')
  unfold SameTop
  rw [(strictlyFalling_descending hnodup).eq hsorted (descending_perm key _), List.take_take,
    min_eq_left hk]

/-- Sorting and selecting commute. -/
theorem behind_descending {key : α → κ} {c : Option κ} {xs : List α} (h : (xs.map key).Nodup) :
    behind key c (descending key xs) = descending key (behind key c xs) := by
  have hnodup : ((behind key c xs).map key).Nodup := h.sublist (List.filter_sublist.map key)
  exact ((strictlyFalling_descending h).behind c).eq (strictlyFalling_descending hnodup)
    ((behind_perm (descending_perm key xs)).trans (descending_perm key _).symm)

theorem map_descending {β : Type*} (f : α → β) (key : β → κ) (xs : List α) :
    (descending (fun x => key (f x)) xs).map f = descending key (xs.map f) :=
  List.map_insertionSort _ _ f xs fun _ _ _ _ => Iff.rfl

theorem map_behind {β : Type*} (f : α → β) (key : β → κ) (c : Option κ) (xs : List α) :
    (behind (fun x => key (f x)) c xs).map f = behind key c (xs.map f) := by
  unfold behind
  rw [List.filter_map]
  rfl

/-! ### Shared keys -/

/-- No page of `n` ends between equal keys. -/
def Aligned (n : ℕ) (keys : List κ) : Prop :=
  ∀ k, 0 < k → ∀ h : k * n < keys.length, keys[k * n] < keys[k * n - 1]

theorem aligned_of_length_le {n : ℕ} {keys : List κ} (h : keys.length ≤ n) : Aligned n keys := by
  intro k hk hlt
  have := Nat.le_mul_of_pos_left n hk
  omega

/-- Behind the first page the pages begin anew. -/
theorem aligned_iff {n : ℕ} (hn : 0 < n) {keys : List κ} (h : n < keys.length) :
    Aligned n keys ↔ keys[n] < keys[n - 1] ∧ Aligned n (keys.drop n) := by
  constructor
  · intro haligned
    refine ⟨by simpa using haligned 1 one_pos (by omega), fun k hk hlt => ?_⟩
    rw [List.length_drop] at hlt
    have hkn := Nat.le_mul_of_pos_left n hk
    have hsucc : (k + 1) * n = n + k * n := by rw [Nat.add_mul, Nat.one_mul, Nat.add_comm]
    have hnext := haligned (k + 1) (by omega) (by omega)
    rw [List.getElem_drop, List.getElem_drop]
    simpa only [hsucc, show n + k * n - 1 = n + (k * n - 1) by omega] using hnext
  · rintro ⟨hfirst, hrest⟩ k hk hlt
    obtain rfl | hk' := (show k = 1 ∨ 2 ≤ k by omega)
    · simpa using hfirst
    · obtain ⟨k, rfl⟩ : ∃ k', k = k' + 1 := ⟨k - 1, by omega⟩
      have hkn := Nat.le_mul_of_pos_left n (show 0 < k by omega)
      have hsucc : (k + 1) * n = n + k * n := by rw [Nat.add_mul, Nat.one_mul, Nat.add_comm]
      have hnext := hrest k (by omega) (by rw [List.length_drop]; omega)
      rw [List.getElem_drop, List.getElem_drop] at hnext
      simpa only [hsucc, show n + k * n - 1 = n + (k * n - 1) by omega] using hnext

theorem aligned_append {front others : List κ} {x y : κ} {n : ℕ} (hn : front.length + 1 = n) :
    Aligned n (front ++ x :: y :: others) ↔ y < x ∧ Aligned n (y :: others) := by
  subst hn
  have hdrop : (front ++ x :: y :: others).drop (front.length + 1) = y :: others := by
    rw [List.drop_append, List.drop_of_length_le (by omega)]
    simp
  rw [aligned_iff (by omega) (by simp), hdrop]
  refine and_congr_left' ?_
  rw [List.getElem_append_right (by omega), List.getElem_append_right (by omega)]
  simp

/-- The keys of a list, the greatest first. -/
def fallingKeys (key : α → κ) (xs : List α) : List κ := descending id (xs.map key)

theorem length_fallingKeys (key : α → κ) (xs : List α) :
    (fallingKeys key xs).length = xs.length := by
  rw [fallingKeys, (descending_perm id _).length_eq, List.length_map]

theorem fallingKeys_perm {key : α → κ} {xs ys : List α} (h : xs.Perm ys) :
    fallingKeys key xs = fallingKeys key ys := by
  have hperm : (fallingKeys key xs).Perm (fallingKeys key ys) :=
    ((descending_perm id _).trans (h.map key)).trans (descending_perm id _).symm
  exact hperm.eq_of_pairwise (fun _ _ _ _ hab hba => le_antisymm hba hab)
    (falling_descending id _) (falling_descending id _)

/-- However a list is arranged in falling order, its keys are the same. -/
theorem map_key_eq {key : α → κ} {xs ys : List α} (hys : Falling key ys) (h : ys.Perm xs) :
    ys.map key = fallingKeys key xs := by
  have hperm : (ys.map key).Perm (fallingKeys key xs) :=
    (h.map key).trans (descending_perm id _).symm
  exact hperm.eq_of_pairwise (fun _ _ _ _ hab hba => le_antisymm hba hab)
    (List.pairwise_map.mpr hys) (falling_descending id _)

section Ties

variable {key : α → κ} {arrange : List α → List α}

/-- What lies behind the end of a page is what is smaller among the rest. -/
theorem behind_page {xs front rest : List α} {x : α} (hxs : Falling key (front ++ x :: rest))
    (h : (front ++ x :: rest).Perm xs) :
    (behind key (some (key x)) xs).Perm (rest.filter fun y => decide (key y < key x)) := by
  obtain ⟨-, -, hfront⟩ := List.pairwise_append.mp hxs
  have hnone : (front ++ [x]).filter (fun y => decide (key y < key x)) = [] := by
    refine List.filter_eq_nil_iff.mpr fun y hy => ?_
    rw [decide_eq_true_eq, not_lt]
    obtain hy | hy := List.mem_append.mp hy
    · exact hfront y hy x List.mem_cons_self
    · rw [List.mem_singleton.mp hy]
  have hsplit : front ++ x :: rest = (front ++ [x]) ++ rest := by simp
  have hbehind : behind key (some (key x)) (front ++ x :: rest) =
      rest.filter fun y => decide (key y < key x) := by
    simp only [behind, Option.all_some]
    rw [hsplit, List.filter_append, hnone, List.nil_append]
  rw [← hbehind]
  exact (behind_perm h).symm

/-- The rest of a list, when it begins behind the end of the page, is what lies behind it. -/
theorem behind_page_eq {xs front rest : List α} {x : α} (hxs : Falling key (front ++ x :: rest))
    (h : (front ++ x :: rest).Perm xs) (hlt : ∀ y ∈ rest.head?, key y < key x) :
    (behind key (some (key x)) xs).Perm rest := by
  have hall : rest.filter (fun y => decide (key y < key x)) = rest := by
    refine List.filter_eq_self.mpr fun y hy => decide_eq_true ?_
    obtain ⟨first, others, rfl⟩ := List.exists_cons_of_ne_nil (List.ne_nil_of_mem hy)
    have hfirst : key first < key x := hlt first rfl
    obtain rfl | hy := List.mem_cons.mp hy
    · exact hfirst
    · have hrest := (List.pairwise_cons.mp (List.pairwise_append.mp hxs).2.1).2
      exact lt_of_le_of_lt ((List.pairwise_cons.mp hrest).1 y hy) hfirst
  exact hall ▸ behind_page hxs h

/-- What is read behind a page is the rest if and only if the page does not end between equal keys
and nothing is missed later. -/
theorem rest_complete_iff {xs front rest read : List α} {x : α} {n : ℕ}
    (hxs : Falling key (front ++ x :: rest)) (h : (front ++ x :: rest).Perm xs)
    (hn : front.length + 1 = n) (hinside : ∀ y ∈ read, y ∈ behind key (some (key x)) xs)
    (hcomplete : read.Perm (behind key (some (key x)) xs) ↔
      Aligned n (fallingKeys key (behind key (some (key x)) xs))) :
    read.Perm rest ↔ Aligned n (front.map key ++ key x :: rest.map key) := by
  cases rest with
  | nil =>
    have hpart := behind_page hxs h
    rw [List.filter_nil] at hpart
    have hnone : read = [] := List.eq_nil_iff_forall_not_mem.mpr fun y hy => by
      simpa [hpart.eq_nil] using hinside y hy
    rw [hnone]
    exact iff_of_true (List.Perm.refl _) (aligned_of_length_le (by simp; omega))
  | cons y others =>
    have hrestkeys : (y :: others).map key = fallingKeys key (y :: others) :=
      map_key_eq (List.pairwise_cons.mp (List.pairwise_append.mp hxs).2.1).2 (List.Perm.refl _)
    have hsame : key y < key x → (behind key (some (key x)) xs).Perm (y :: others) :=
      fun hlt => behind_page_eq hxs h (by simpa using hlt)
    rw [List.map_cons, aligned_append (by rwa [List.length_map]), ← List.map_cons, hrestkeys]
    constructor
    · intro hread
      have hlt : key y < key x :=
        (mem_behind_some.mp (hinside y (hread.mem_iff.mpr List.mem_cons_self))).2
      rw [← fallingKeys_perm (hsame hlt)]
      exact ⟨hlt, hcomplete.mp (hread.trans (hsame hlt).symm)⟩
    · rintro ⟨hlt, haligned⟩
      rw [← fallingKeys_perm (hsame hlt)] at haligned
      exact (hcomplete.mpr haligned).trans (hsame hlt)

/-- Pages that end with the key of their last element give the whole list, in falling order, if and
only if none of them ends between equal keys. -/
theorem walked_aligned {n : ℕ} (hn : 0 < n) {xs : List α}
    (hperm : ∀ ys, (arrange ys).Perm ys) (hfalling : ∀ ys, Falling key (arrange ys))
    {page : Option κ → Page α κ}
    (hitems : ∀ c, (page c).items = (arrange (behind key c xs)).take n)
    (hnext : ∀ c, (page c).next = if (page c).items.length = n then
      (page c).items.getLast?.map key else none) (c : Option κ) :
    ∃ pages, Walked page c pages ∧ Falling key pages.flatten ∧
      pages.flatten.Subperm (behind key c xs) ∧
      (pages.flatten.Perm (behind key c xs) ↔ Aligned n (fallingKeys key (behind key c xs))) := by
  induction hlength : (behind key c xs).length using Nat.strong_induction_on generalizing c with
  | _ length ih =>
    set remaining := behind key c xs with hremaining
    have hlen : (arrange remaining).length = remaining.length := (hperm remaining).length_eq
    by_cases hfull : n ≤ remaining.length
    · have htaken : (arrange remaining).take n ≠ [] := by
        intro hnil
        have := congrArg List.length hnil
        rw [List.length_take, List.length_nil] at this
        omega
      obtain ⟨front, x, hfront⟩ := (List.eq_nil_or_concat' _).resolve_left htaken
      set rest := (arrange remaining).drop n with hrest
      have hsplit : front ++ x :: rest = arrange remaining := by
        rw [← List.singleton_append, ← List.append_assoc, ← hfront, hrest, List.take_append_drop]
      have hsorted : Falling key (front ++ x :: rest) := hsplit ▸ hfalling remaining
      have hall : (front ++ x :: rest).Perm remaining := hsplit ▸ hperm remaining
      have hx : x ∈ remaining :=
        hall.mem_iff.mp (List.mem_append_right _ List.mem_cons_self)
      have hbehind : behind key (some (key x)) remaining = behind key (some (key x)) xs :=
        behind_behind hx
      have hfrontlen : front.length + 1 = n := by
        have := congrArg List.length hfront
        rw [List.length_take, List.length_append, List.length_singleton] at this
        omega
      have hpart := behind_page hsorted hall
      have hshort : (behind key (some (key x)) xs).length < length := by
        have hle := hpart.length_eq ▸ List.length_filter_le (fun y => decide (key y < key x)) rest
        have hrestlen : rest.length = remaining.length - n := by rw [hrest, List.length_drop, hlen]
        rw [← hbehind]
        omega
      obtain ⟨pages, hwalked, hordered, hinside, hcomplete⟩ := ih _ hshort (some (key x)) rfl
      have hpage : (page c).items = front ++ [x] := (hitems c).trans hfront
      have hless : ∀ y ∈ pages.flatten, key y < key x := fun y hy =>
        (mem_behind_some.mp (hinside.subset hy)).2
      refine ⟨(page c).items :: pages, .more ?_ hwalked, ?_, ?_, ?_⟩
      · rw [hnext, hpage, if_pos (by simpa using hfrontlen), List.getLast?_concat, Option.map_some]
      · rw [List.flatten_cons, hpage]
        refine List.pairwise_append.mpr ⟨?_, hordered, fun y hy z hz => ?_⟩
        · exact hsorted.sublist (by simp)
        · obtain hy | hy := List.mem_append.mp hy
          · exact (hless z hz).le.trans
              ((List.pairwise_append.mp hsorted).2.2 y hy x List.mem_cons_self)
          · exact List.mem_singleton.mp hy ▸ (hless z hz).le
      · have hsame : (front ++ [x] ++ rest).Perm remaining := by simpa using hall
        rw [← hbehind] at hinside
        have hrestsub : pages.flatten.Subperm rest :=
          hinside.trans (hpart.subperm.trans (List.filter_sublist).subperm)
        rw [List.flatten_cons, hpage]
        exact ((List.subperm_append_left (front ++ [x])).mpr hrestsub).trans hsame.subperm
      · have hrestiff : ((page c).items :: pages).flatten.Perm remaining ↔
            pages.flatten.Perm rest := by
          rw [List.flatten_cons, hpage]
          have hsame : (front ++ [x] ++ rest).Perm remaining := by simpa using hall
          exact ⟨fun h => (List.perm_append_left_iff (front ++ [x])).mp (h.trans hsame.symm),
            fun h => ((List.perm_append_left_iff (front ++ [x])).mpr h).trans hsame⟩
        have hkeys : fallingKeys key remaining = (front ++ x :: rest).map key :=
          (map_key_eq hsorted hall).symm
        rw [hrestiff, hkeys, List.map_append, List.map_cons]
        rw [← hbehind] at hinside hcomplete
        exact rest_complete_iff hsorted hall hfrontlen (fun y hy => hinside.subset hy) hcomplete
    · have hitemsAll : (page c).items = arrange remaining :=
        (hitems c).trans (List.take_of_length_le (hlen.le.trans (by omega)))
      refine ⟨[(page c).items], .last ?_, ?_, ?_, ?_⟩
      · rw [hnext, if_neg (by rw [hitemsAll]; omega)]
      · rw [List.flatten_singleton, hitemsAll]
        exact hfalling remaining
      · rw [List.flatten_singleton, hitemsAll]
        exact (hperm remaining).subperm
      · rw [List.flatten_singleton, hitemsAll]
        exact iff_of_true (hperm remaining)
          (aligned_of_length_le (by rw [length_fallingKeys]; omega))

end Ties

end CompanionBackend.KeysetPages
