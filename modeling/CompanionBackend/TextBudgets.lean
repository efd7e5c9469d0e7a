import Mathlib.Order.Nat
import Mathlib.Data.List.Basic
import Mathlib.Tactic.Cases

/-!
# Pieces of text within a budget

Pieces are shown one after another, each under its heading, as long as one character of the next one
fits. Only the last piece that is shown may be cut, and it is cut where the budget ends.
-/
namespace CompanionBackend.TextBudgets

/-- A text of a name under a heading. -/
structure Piece (κ α : Type*) where
  name : κ
  heading : List α
  text : List α

section

variable {κ α : Type*}

def Piece.rendered (p : Piece κ α) : List α := p.heading ++ p.text

def rendered (pieces : List (Piece κ α)) : List α := pieces.flatMap Piece.rendered

/-- The piece with the part of its text that is kept. -/
def Piece.keep (p : Piece κ α) (n : ℕ) : Piece κ α := { p with text := p.text.take n }

/-- What is shown of the pieces, when `used` characters of the budget are taken. -/
def fill [DecidableEq α] (budget : ℕ) : ℕ → List (Piece κ α) → List (Piece κ α)
  | _, [] => []
  | used, p :: rest =>
    if p.text = [] then fill budget used rest
    else if budget ≤ used + p.heading.length then []
    else
      let kept := p.keep (budget - (used + p.heading.length))
      kept :: fill budget (used + kept.rendered.length) rest

/-- A cut piece, which keeps some of its text and not all of it. -/
structure Cut (full cut : Piece κ α) : Prop where
  name : cut.name = full.name
  heading : cut.heading = full.heading
  kept : cut.text <+: full.text
  some_kept : cut.text ≠ []
  some_lost : cut.text ≠ full.text

/-- The pieces with a text are shown whole from the first one on; then the budget ends, within a piece
or before one, unless all of them are shown. -/
structure Filled (budget used : ℕ) (pieces shown : List (Piece κ α)) : Prop where
  within : used + (rendered shown).length ≤ budget
  ends : ∃ whole rest, pieces.filter (fun p => !p.text.isEmpty) = whole ++ rest ∧
    (shown = whole ∧ (∀ next ∈ rest.head?,
        budget ≤ used + (rendered shown).length + next.heading.length) ∨
      ∃ full later cut, rest = full :: later ∧ Cut full cut ∧ shown = whole ++ [cut] ∧
        used + (rendered shown).length = budget)

@[simp] theorem rendered_nil : rendered ([] : List (Piece κ α)) = [] := rfl

@[simp] theorem rendered_cons (p : Piece κ α) (ps : List (Piece κ α)) :
    rendered (p :: ps) = p.rendered ++ rendered ps := rfl

theorem length_rendered_keep (p : Piece κ α) (n : ℕ) :
    (p.keep n).rendered.length = p.heading.length + min n p.text.length := by
  simp [Piece.rendered, Piece.keep]

theorem Filled.skip {budget used : ℕ} {p : Piece κ α} {rest shown : List (Piece κ α)}
    (hp : p.text = []) (h : Filled budget used rest shown) : Filled budget used (p :: rest) shown := by
  refine ⟨h.within, ?_⟩
  rw [List.filter_cons_of_neg (by simp [hp])]
  exact h.ends

theorem Filled.cons {budget used : ℕ} {p : Piece κ α} {rest shown : List (Piece κ α)}
    (hp : p.text ≠ []) (h : Filled budget (used + p.rendered.length) rest shown) :
    Filled budget used (p :: rest) (p :: shown) := by
  have hwithin := h.within
  have hlen : used + (rendered (p :: shown)).length = used + p.rendered.length + (rendered shown).length := by
    rw [rendered_cons, List.length_append, Nat.add_assoc]
  refine ⟨hlen ▸ hwithin, ?_⟩
  rw [List.filter_cons_of_pos (by simpa using hp)]
  obtain ⟨whole, tail, hpieces, hshown | ⟨full, later, cut, htail, hcut, hshown, hfull⟩⟩ := h.ends
  · refine ⟨p :: whole, tail, by rw [hpieces]; rfl, .inl ⟨by rw [hshown.1], fun next hnext => ?_⟩⟩
    rw [hlen]
    exact hshown.2 next hnext
  · exact ⟨p :: whole, tail, by rw [hpieces]; rfl, .inr ⟨full, later, cut, htail, hcut,
      by rw [hshown]; rfl, hlen ▸ hfull⟩⟩

/-- What is shown is a part of a piece, and not nothing. -/
theorem Filled.mem {budget used : ℕ} {pieces shown : List (Piece κ α)} (h : Filled budget used pieces shown)
    {p : Piece κ α} (hp : p ∈ shown) : p.text ≠ [] ∧ ∃ full ∈ pieces, p.name = full.name ∧ p.text <+: full.text := by
  obtain ⟨whole, rest, hpieces, hshown⟩ := h.ends
  have hwhole : ∀ q ∈ whole ++ rest, q ∈ pieces ∧ q.text ≠ [] := fun q hq => by
    rw [← hpieces, List.mem_filter] at hq
    exact ⟨hq.1, by simpa using hq.2⟩
  have hself : ∀ q ∈ whole, q.text ≠ [] ∧ ∃ full ∈ pieces, q.name = full.name ∧ q.text <+: full.text :=
    fun q hq => ⟨(hwhole q (List.mem_append_left _ hq)).2, q, (hwhole q (List.mem_append_left _ hq)).1, rfl,
      List.prefix_refl _⟩
  obtain ⟨rfl, -⟩ | ⟨full, later, cut, rfl, hcut, rfl, -⟩ := hshown
  · exact hself p hp
  · obtain hp | hp := List.mem_append.mp hp
    · exact hself p hp
    · obtain rfl := List.mem_singleton.mp hp
      exact ⟨hcut.some_kept, full, (hwhole full (List.mem_append_right _ List.mem_cons_self)).1, hcut.name,
        hcut.kept⟩

/-- Pieces are shown in their order, from the first one that has a text. -/
theorem Filled.names {budget used : ℕ} {pieces shown : List (Piece κ α)} (h : Filled budget used pieces shown) :
    shown.map Piece.name <+: (pieces.filter fun p => !p.text.isEmpty).map Piece.name := by
  obtain ⟨whole, rest, hpieces, hshown⟩ := h.ends
  rw [hpieces]
  obtain ⟨rfl, -⟩ | ⟨full, later, cut, rfl, hcut, rfl, -⟩ := hshown
  · exact (List.prefix_append _ _).map _
  · refine ⟨later.map Piece.name, ?_⟩
    simp [hcut.name]

theorem cut_keep {p : Piece κ α} {n : ℕ} (hpos : 0 < n) (hlong : n < p.text.length) :
    Cut p (p.keep n) := by
  have hlen : (p.keep n).text.length = n := (List.length_take).trans (Nat.min_eq_left (Nat.le_of_lt hlong))
  refine ⟨rfl, rfl, List.take_prefix _ _, fun hnil => ?_, fun hall => ?_⟩
  · rw [hnil, List.length_nil] at hlen
    omega
  · rw [hall] at hlen
    omega

variable [DecidableEq α]

theorem fill_eq_nil {budget used : ℕ} (h : budget ≤ used) (pieces : List (Piece κ α)) :
    fill budget used pieces = [] := by
  induction pieces with
  | nil => rfl
  | cons p rest ih =>
    rw [fill, if_pos (Nat.le_trans h (Nat.le_add_right _ _))]
    split_ifs
    · exact ih
    · rfl

theorem fill_filled {budget used : ℕ} (h : used ≤ budget) (pieces : List (Piece κ α)) :
    Filled budget used pieces (fill budget used pieces) := by
  induction pieces generalizing used with
  | nil => exact ⟨h, [], [], rfl, .inl ⟨rfl, fun _ hnext => nomatch hnext⟩⟩
  | cons p rest ih =>
    rw [fill]
    split_ifs with hp hspace
    · exact (ih h).skip hp
    · refine ⟨h, [], p :: rest.filter _, List.filter_cons_of_pos (by simpa using hp), .inl ⟨rfl, ?_⟩⟩
      intro next hnext
      obtain rfl := Option.some.inj hnext
      exact hspace
    · have hlen := length_rendered_keep p (budget - (used + p.heading.length))
      by_cases hfits : p.text.length ≤ budget - (used + p.heading.length)
      · have hkeep : p.keep (budget - (used + p.heading.length)) = p := by
          rw [Piece.keep, List.take_of_length_le hfits]
        rw [hkeep] at hlen ⊢
        exact (ih (by omega)).cons hp
      · -- the piece is cut where the budget ends, and nothing fits behind it
        have hfull : used + (p.keep (budget - (used + p.heading.length))).rendered.length = budget := by
          omega
        have hshown : used + (rendered [p.keep (budget - (used + p.heading.length))]).length = budget := by
          rw [rendered_cons, rendered_nil, List.append_nil, hfull]
        dsimp only
        rw [fill_eq_nil hfull.ge]
        exact ⟨hshown.le, [], p :: rest.filter _, List.filter_cons_of_pos (by simpa using hp),
          .inr ⟨p, rest.filter _, _, rfl, cut_keep (by omega) (by omega), rfl, hshown⟩⟩

end

end CompanionBackend.TextBudgets
