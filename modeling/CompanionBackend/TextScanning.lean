import Mathlib.Data.List.Basic
import Mathlib.Data.List.Infix

/-!
# Scanning a text from left to right

A reader tells whether something begins at the head of a text. Scanning takes what it finds first, goes
on behind it and keeps every other character as it is; replacing and searching are both read off the
pieces.
-/
namespace CompanionBackend.TextScanning

variable {α β : Type*}

/-- How many characters behind the first one belong to what begins here, and what it is. -/
abbrev Reader (α β : Type*) := List α → Option (ℕ × β)

inductive Piece (α β : Type*)
  | char (c : α)
  | item (b : β)
  deriving DecidableEq, Repr

/-- The pieces behind the first `skip` characters. -/
@[grind =] def scanFrom (read : Reader α β) : ℕ → List α → List (Piece α β)
  | _, [] => []
  | skip + 1, _ :: rest => scanFrom read skip rest
  | 0, c :: rest =>
    match read (c :: rest) with
    | some (n, b) => .item b :: scanFrom read n rest
    | none => .char c :: scanFrom read 0 rest

def scan (read : Reader α β) (text : List α) : List (Piece α β) := scanFrom read 0 text

def items (ps : List (Piece α β)) : List β :=
  ps.filterMap fun p => match p with | .char _ => none | .item b => some b

/-- The text of the pieces with `f b` in the place of `b`. -/
def fill (f : β → List α) (ps : List (Piece α β)) : List α :=
  ps.flatMap fun p => match p with | .char c => [c] | .item b => f b

/-- `pattern.sub(f, text)`. -/
def sub (read : Reader α β) (f : β → List α) (text : List α) : List α := fill f (scan read text)

/-- `pattern.findall(text)`. -/
def findAll (read : Reader α β) (text : List α) : List β := items (scan read text)

def occurrence [DecidableEq α] (old : List α) : Reader α Unit := fun text =>
  if old <+: text then some (old.length - 1, ()) else none

/-- `text.replace(old, new)` for an `old` that is not empty. -/
def replaceAll [DecidableEq α] (old new text : List α) : List α :=
  sub (occurrence old) (fun _ => new) text

/-- What stands before the first `mark`. -/
@[grind =] def upTo [DecidableEq α] (mark : List α) : List α → Option (List α)
  | [] => if mark = [] then some [] else none
  | c :: rest => if mark <+: c :: rest then some [] else (upTo mark rest).map (c :: ·)

/-! ### Pieces -/

@[simp] theorem items_nil : items ([] : List (Piece α β)) = [] := rfl

@[simp] theorem items_char (c : α) (ps : List (Piece α β)) : items (.char c :: ps) = items ps := rfl

@[simp] theorem items_item (b : β) (ps : List (Piece α β)) : items (.item b :: ps) = b :: items ps :=
  rfl

@[simp] theorem fill_nil (f : β → List α) : fill f [] = [] := rfl

@[simp] theorem fill_char (f : β → List α) (c : α) (ps : List (Piece α β)) :
    fill f (.char c :: ps) = c :: fill f ps := rfl

@[simp] theorem fill_item (f : β → List α) (b : β) (ps : List (Piece α β)) :
    fill f (.item b :: ps) = f b ++ fill f ps := rfl

theorem items_append (ps qs : List (Piece α β)) : items (ps ++ qs) = items ps ++ items qs :=
  List.filterMap_append

theorem fill_append (f : β → List α) (ps qs : List (Piece α β)) :
    fill f (ps ++ qs) = fill f ps ++ fill f qs := List.flatMap_append

theorem items_chars (w : List α) : items (w.map (.char : α → Piece α β)) = [] := by
  induction w with
  | nil => rfl
  | cons c w ih => rw [List.map_cons, items_char, ih]

theorem fill_chars (f : β → List α) (w : List α) : fill f (w.map .char) = w := by
  induction w with
  | nil => rfl
  | cons c w ih => rw [List.map_cons, fill_char, ih]

theorem fill_congr {f g : β → List α} {ps : List (Piece α β)} (h : ∀ b ∈ items ps, f b = g b) :
    fill f ps = fill g ps := by
  induction ps with
  | nil => rfl
  | cons p ps ih =>
    cases p with
    | char c => rw [fill_char, fill_char, ih h]
    | item b =>
      rw [fill_item, fill_item, h b (by simp), ih fun m hm => h m (by simp [hm])]

theorem fill_infix (f : β → List α) {ps : List (Piece α β)} {b : β} (h : b ∈ items ps) :
    f b <:+: fill f ps := by
  induction ps with
  | nil => simp at h
  | cons p ps ih =>
    cases p with
    | char c => exact (ih h).trans ((List.suffix_cons c _).isInfix)
    | item m =>
      rw [items_item, List.mem_cons] at h
      rw [fill_item]
      rcases h with rfl | h
      · exact (List.prefix_append _ _).isInfix
      · exact (ih h).trans (List.suffix_append _ _).isInfix

/-! ### Scanning -/

theorem scanFrom_eq (read : Reader α β) (n : ℕ) (text : List α) :
    scanFrom read n text = scan read (text.drop n) := by
  induction text generalizing n with
  | nil => cases n <;> rfl
  | cons c rest ih =>
    cases n with
    | zero => rfl
    | succ n => rw [scanFrom, ih, List.drop_succ_cons]

@[simp] theorem scan_nil (read : Reader α β) : scan read [] = [] := rfl

theorem scan_found {read : Reader α β} {c : α} {rest : List α} {n : ℕ} {b : β}
    (h : read (c :: rest) = some (n, b)) :
    scan read (c :: rest) = .item b :: scan read (rest.drop n) := by
  rw [scan, scanFrom, h, ← scanFrom_eq]

theorem scan_passed {read : Reader α β} {c : α} {rest : List α} (h : read (c :: rest) = none) :
    scan read (c :: rest) = .char c :: scan read rest := by
  rw [scan, scanFrom, h]
  rfl

theorem scan_item {read : Reader α β} {w rest : List α} {b : β} (hw : w ≠ [])
    (h : read (w ++ rest) = some (w.length - 1, b)) :
    scan read (w ++ rest) = .item b :: scan read rest := by
  obtain ⟨c, tail, rfl⟩ := List.exists_cons_of_ne_nil hw
  have hdrop : (tail ++ rest).drop ((c :: tail).length - 1) = rest := List.drop_left
  rw [List.cons_append] at h ⊢
  rw [scan_found h, hdrop]

/-- Induction over the pieces of a text. -/
theorem scan_induction (read : Reader α β) {P : List α → Prop} (nil : P [])
    (passed : ∀ c rest, read (c :: rest) = none → P rest → P (c :: rest))
    (found : ∀ c rest n b, read (c :: rest) = some (n, b) → P (rest.drop n) → P (c :: rest))
    (text : List α) : P text := by
  induction hn : text.length using Nat.strong_induction_on generalizing text with
  | _ k ih =>
    cases text with
    | nil => exact nil
    | cons c rest =>
      rw [List.length_cons] at hn
      cases h : read (c :: rest) with
      | none => exact passed c rest h (ih rest.length (by omega) rest rfl)
      | some r =>
        obtain ⟨n, b⟩ := r
        have hlen : (rest.drop n).length < k := by rw [List.length_drop]; omega
        exact found c rest n b h (ih _ hlen _ rfl)

section Replacing

variable [DecidableEq α]

theorem replaceAll_nil (old new : List α) : replaceAll old new [] = [] := rfl

theorem replaceAll_passed {old new : List α} {c : α} {rest : List α} (h : ¬ old <+: c :: rest) :
    replaceAll old new (c :: rest) = c :: replaceAll old new rest := by
  rw [replaceAll, sub, scan_passed (by rw [occurrence, if_neg h]), fill_char]
  rfl

theorem replaceAll_found {old new rest : List α} (h : old ≠ []) :
    replaceAll old new (old ++ rest) = new ++ replaceAll old new rest := by
  have hread : occurrence old (old ++ rest) = some (old.length - 1, ()) :=
    if_pos (List.prefix_append old rest)
  rw [replaceAll, sub, scan_item h hread, fill_item]
  rfl

/-- A stretch in which nothing begins is kept. -/
theorem replaceAll_append {old new w rest : List α}
    (h : ∀ s, s ≠ [] → s <:+ w → ¬ old <+: s ++ rest) :
    replaceAll old new (w ++ rest) = w ++ replaceAll old new rest := by
  induction w with
  | nil => rfl
  | cons c w ih =>
    have hc : ¬ old <+: c :: (w ++ rest) := h (c :: w) (by simp) List.suffix_rfl
    rw [List.cons_append, replaceAll_passed hc,
      ih fun s hs hsw => h s hs (hsw.trans (List.suffix_cons c w)), List.cons_append]

end Replacing

/-- What begins nowhere in a stretch is found behind it. -/
theorem infix_behind {old w rest : List α} (h : ∀ s, s ≠ [] → s <:+ w → ¬ old <+: s ++ rest)
    (hin : old <:+: w ++ rest) : old <:+: rest := by
  induction w with
  | nil => exact hin
  | cons c w ih =>
    rw [List.cons_append, List.infix_cons_iff] at hin
    rcases hin with hp | hin
    · exact absurd hp (h (c :: w) (by simp) List.suffix_rfl)
    · exact ih (fun s hs hsw => h s hs (hsw.trans (List.suffix_cons c w))) hin

end CompanionBackend.TextScanning
