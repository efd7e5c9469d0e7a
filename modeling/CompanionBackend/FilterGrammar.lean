import Mathlib.Data.List.Basic
import Mathlib.Data.Nat.Init
import Mathlib.Order.Basic

/-!
# Reading a filter

A filter is a conjunction of comparisons. Between double quotes stands a literal, in which a backslash
takes the character after it as it is; outside of them blanks divide words and a few characters are
signs of their own.
-/
namespace CompanionBackend.FilterGrammar

inductive Token
  | word (w : List Char)
  | literal (s : List Char)
  | sign (c : Char)
  deriving DecidableEq, Repr

/-- Where a reader stands: in a word, in a literal, or behind a backslash in a literal, with what it
has read of them. -/
inductive Mode
  | plain (w : List Char)
  | literal (s : List Char)
  | escaped (s : List Char)

def isSign (c : Char) : Bool := decide (c ∈ ['=', '(', ')', ','])

/-- Characters that a word consists of. -/
def isWordChar (c : Char) : Bool := decide (c ≠ '"' ∧ c ≠ ' ') && !isSign c

/-- A word that has come to its end. -/
def endWord (w : List Char) : List Token := if w = [] then [] else [.word w]

@[grind =] def tokensFrom : Mode → List Char → Option (List Token)
  | .plain w, [] => some (endWord w)
  | .plain w, c :: rest =>
    if c = '"' then (tokensFrom (.literal []) rest).map (endWord w ++ ·)
    else if c = ' ' then (tokensFrom (.plain []) rest).map (endWord w ++ ·)
    else if isSign c then (tokensFrom (.plain []) rest).map (endWord w ++ .sign c :: ·)
    else tokensFrom (.plain (w ++ [c])) rest
  | .literal _, [] => none
  | .literal s, c :: rest =>
    if c = '"' then (tokensFrom (.plain []) rest).map (.literal s :: ·)
    else if c = '\\' then tokensFrom (.escaped s) rest
    else tokensFrom (.literal (s ++ [c])) rest
  | .escaped _, [] => none
  | .escaped s, c :: rest => tokensFrom (.literal (s ++ [c])) rest

def tokens (text : List Char) : Option (List Token) := tokensFrom (.plain []) text

inductive Value
  | text (s : List Char)
  | number (w : List Char)
  deriving DecidableEq, Repr

inductive Conjunct
  | equals (field : List Char) (value : Value)
  | isIn (field : List Char) (values : List (List Char))
  deriving DecidableEq, Repr

def readLiterals : List Token → Option (List (List Char) × List Token)
  | .literal s :: .sign ')' :: rest => some ([s], rest)
  | .literal s :: .sign ',' :: rest => (readLiterals rest).map fun r => (s :: r.1, r.2)
  | _ => none

def readConjunct : List Token → Option (Conjunct × List Token)
  | .word f :: .sign '=' :: .literal s :: rest => some (.equals f (.text s), rest)
  | .word f :: .sign '=' :: .word w :: rest => some (.equals f (.number w), rest)
  | .word f :: .word ['I', 'N'] :: .sign '(' :: rest =>
    (readLiterals rest).map fun r => (.isIn f r.1, r.2)
  | _ => none

/-- Conjuncts with `AND` between them; there are no more of them than tokens. -/
def readConjuncts : ℕ → List Token → Option (List Conjunct)
  | 0, _ => none
  | fuel + 1, ts =>
    match readConjunct ts with
    | some (c, []) => some [c]
    | some (c, .word ['A', 'N', 'D'] :: rest) => (readConjuncts fuel rest).map (c :: ·)
    | _ => none

def readFilter (text : List Char) : Option (List Conjunct) := do
  let ts ← tokens text
  readConjuncts ts.length ts

/-! ### Words and signs -/

theorem tokensFrom_word {w rest : List Char} (before : List Char) (h : w.all isWordChar = true) :
    tokensFrom (.plain before) (w ++ rest) = tokensFrom (.plain (before ++ w)) rest := by
  induction w generalizing before with
  | nil => rw [List.nil_append, List.append_nil]
  | cons c w ih =>
    rw [List.all_cons, Bool.and_eq_true] at h
    obtain ⟨hc, hw⟩ := h
    simp only [isWordChar, Bool.and_eq_true, decide_eq_true_eq, Bool.not_eq_true'] at hc
    rw [List.cons_append, tokensFrom, if_neg hc.1.1, if_neg hc.1.2, if_neg (by simp [hc.2]), ih _ hw,
      List.append_assoc, List.singleton_append]

/-- A word before a blank. -/
theorem tokensFrom_word_blank {w rest : List Char} (h : w.all isWordChar = true) (hw : w ≠ []) :
    tokensFrom (.plain []) (w ++ ' ' :: rest) =
      (tokensFrom (.plain []) rest).map (.word w :: ·) := by
  rw [tokensFrom_word [] h, List.nil_append, tokensFrom, if_neg (by decide), if_pos rfl, endWord,
    if_neg hw]
  rfl

theorem tokensFrom_word_end {w : List Char} (h : w.all isWordChar = true) (hw : w ≠ []) :
    tokensFrom (.plain []) w = some [.word w] := by
  rw [← List.append_nil w, tokensFrom_word [] h, List.nil_append, tokensFrom, endWord,
    if_neg (by simpa using hw), List.append_nil]

theorem tokensFrom_sign {c : Char} {rest : List Char} (h : isSign c = true) :
    tokensFrom (.plain []) (c :: rest) = (tokensFrom (.plain []) rest).map (.sign c :: ·) := by
  have hquote : c ≠ '"' := by rintro rfl; exact absurd h (by decide)
  have hblank : c ≠ ' ' := by rintro rfl; exact absurd h (by decide)
  rw [tokensFrom, if_neg hquote, if_neg hblank, if_pos h]
  rfl

theorem tokensFrom_blank {rest : List Char} :
    tokensFrom (.plain []) (' ' :: rest) = tokensFrom (.plain []) rest := by
  rw [tokensFrom, if_neg (by decide), if_pos rfl]
  cases tokensFrom (.plain []) rest <;> rfl

theorem tokensFrom_quote {rest : List Char} :
    tokensFrom (.plain []) ('"' :: rest) = tokensFrom (.literal []) rest := by
  rw [tokensFrom, if_pos rfl]
  cases tokensFrom (.literal []) rest <;> rfl

/-! ### Literals with escaped quotes -/

/-- A backslash before every double quote. -/
def escapeQuotes (s : List Char) : List Char :=
  s.flatMap fun c => if c = '"' then ['\\', '"'] else [c]

@[simp] theorem escapeQuotes_nil : escapeQuotes [] = [] := rfl

theorem escapeQuotes_quote (s : List Char) :
    escapeQuotes ('"' :: s) = '\\' :: '"' :: escapeQuotes s := rfl

theorem escapeQuotes_cons {c : Char} (hc : c ≠ '"') (s : List Char) :
    escapeQuotes (c :: s) = c :: escapeQuotes s := by
  rw [escapeQuotes, List.flatMap_cons, if_neg hc]
  rfl

/-- An escaped text does not begin with a quote. -/
theorem escapeQuotes_ne_quote (s rest : List Char) : escapeQuotes s ≠ '"' :: rest := by
  match s with
  | [] => exact nofun
  | c :: s =>
    by_cases hc : c = '"'
    · rw [hc, escapeQuotes_quote]
      exact fun h => absurd (List.cons.inj h).1 (by decide)
    · rw [escapeQuotes_cons hc]
      exact fun h => hc (List.cons.inj h).1

theorem quote_mem_escapeQuotes {s : List Char} : '"' ∈ escapeQuotes s ↔ '"' ∈ s := by
  rw [escapeQuotes, List.mem_flatMap]
  constructor
  · rintro ⟨c, hc, hmem⟩
    split_ifs at hmem with hquote
    · exact hquote ▸ hc
    · exact List.mem_singleton.mp hmem ▸ hc
  · exact fun h => ⟨'"', h, by simp⟩

theorem escapeQuotes_of_not_mem {s : List Char} (h : '"' ∉ s) : escapeQuotes s = s := by
  induction s with
  | nil => rfl
  | cons c s ih =>
    rw [List.mem_cons, not_or] at h
    rw [escapeQuotes_cons (Ne.symm h.1), ih h.2]

theorem escapeQuotes_eq_nil {s : List Char} : escapeQuotes s = [] ↔ s = [] := by
  match s with
  | [] => simp
  | c :: s => by_cases hc : c = '"' <;> simp [escapeQuotes, hc]

theorem escapeQuotes_injective : Function.Injective escapeQuotes := by
  intro s
  induction s with
  | nil => exact fun t h => (escapeQuotes_eq_nil.mp h.symm).symm
  | cons c s ih =>
    intro t h
    match t with
    | [] => exact escapeQuotes_eq_nil.mp h
    | c' :: t =>
      by_cases hc : c = '"' <;> by_cases hc' : c' = '"'
      · rw [hc, hc', escapeQuotes_quote, escapeQuotes_quote] at h
        rw [hc, hc', ih (List.cons.inj (List.cons.inj h).2).2]
      · rw [hc, escapeQuotes_quote, escapeQuotes_cons hc'] at h
        exact absurd (List.cons.inj h).2.symm (escapeQuotes_ne_quote t _)
      · rw [hc', escapeQuotes_quote, escapeQuotes_cons hc] at h
        exact absurd (List.cons.inj h).2 (escapeQuotes_ne_quote s _)
      · rw [escapeQuotes_cons hc, escapeQuotes_cons hc'] at h
        rw [(List.cons.inj h).1, ih (List.cons.inj h).2]

/-- Without a backslash the literal is the text. -/
theorem tokensFrom_escapeQuotes {s rest : List Char} (before : List Char) (h : '\\' ∉ s) :
    tokensFrom (.literal before) (escapeQuotes s ++ '"' :: rest) =
      (tokensFrom (.plain []) rest).map (.literal (before ++ s) :: ·) := by
  induction s generalizing before with
  | nil => rw [escapeQuotes_nil, List.nil_append, tokensFrom, if_pos rfl, List.append_nil]
  | cons c s ih =>
    rw [List.mem_cons, not_or] at h
    by_cases hc : c = '"'
    · subst hc
      rw [escapeQuotes_quote, List.cons_append, List.cons_append, tokensFrom, if_neg (by decide),
        if_pos rfl, tokensFrom, ih _ h.2, List.append_assoc, List.singleton_append]
    · rw [escapeQuotes_cons hc, List.cons_append, tokensFrom, if_neg hc, if_neg (Ne.symm h.1),
        ih _ h.2, List.append_assoc, List.singleton_append]

/-- What is read of any text: a literal no longer than it, and shorter with a backslash in it, or a
literal that goes on behind its end, which a last backslash has taken away. -/
theorem tokensFrom_escapeQuotes_cases {s rest : List Char} {before : List Char} {ts : List Token}
    (h : tokensFrom (.literal before) (escapeQuotes s ++ '"' :: rest) = some ts) :
    (∃ w more, ts = .literal (before ++ w) :: more ∧ w.length ≤ s.length ∧
      ('\\' ∈ s → w.length < s.length)) ∨
    (s.getLast? = some '\\' ∧
      ∃ w, tokensFrom (.literal (before ++ w ++ ['"'])) rest = some ts) := by
  induction hlength : s.length using Nat.strong_induction_on generalizing s before with
  | _ length ih =>
    match s with
    | [] =>
      rw [escapeQuotes_nil, List.nil_append, tokensFrom, if_pos rfl] at h
      obtain ⟨more, -, rfl⟩ := Option.map_eq_some_iff.mp h
      exact .inl ⟨[], more, by rw [List.append_nil], Nat.zero_le _, by simp⟩
    | c :: s =>
      by_cases hslash : c = '\\'
      · subst hslash
        rw [escapeQuotes_cons (by decide), List.cons_append, tokensFrom, if_neg (by decide),
          if_pos rfl] at h
        match s with
        | [] =>
          rw [escapeQuotes_nil, List.nil_append, tokensFrom] at h
          exact .inr ⟨rfl, [], by rwa [List.append_nil]⟩
        | c' :: s =>
          by_cases hquote : c' = '"'
          · subst hquote
            rw [escapeQuotes_quote, List.cons_append, List.cons_append, tokensFrom, tokensFrom,
              if_pos rfl] at h
            obtain ⟨more, -, rfl⟩ := Option.map_eq_some_iff.mp h
            refine .inl ⟨['\\'], more, rfl, ?_, fun _ => ?_⟩ <;>
              simp only [List.length_cons, List.length_nil] at hlength ⊢ <;> omega
          · rw [escapeQuotes_cons hquote, List.cons_append, tokensFrom] at h
            obtain ⟨w, more, hts, hle, -⟩ | ⟨hlast, w, hw⟩ :=
              ih s.length (by simp only [List.length_cons] at hlength; omega) h rfl
            · refine .inl ⟨c' :: w, more, by simpa using hts, ?_, fun _ => ?_⟩ <;>
                simp only [List.length_cons] at hlength ⊢ <;> omega
            · refine .inr ⟨?_, c' :: w, by simpa using hw⟩
              rw [List.getLast?_cons, List.getLast?_cons, hlast]
              rfl
      · have hread : tokensFrom (.literal (before ++ [c])) (escapeQuotes s ++ '"' :: rest) =
            some ts := by
          by_cases hquote : c = '"'
          · subst hquote
            rwa [escapeQuotes_quote, List.cons_append, List.cons_append, tokensFrom,
              if_neg (by decide), if_pos rfl, tokensFrom] at h
          · rwa [escapeQuotes_cons hquote, List.cons_append, tokensFrom, if_neg hquote,
              if_neg hslash] at h
        obtain ⟨w, more, hts, hle, hlt⟩ | ⟨hlast, w, hw⟩ :=
          ih s.length (by simp only [List.length_cons] at hlength; omega) hread rfl
        · refine .inl ⟨c :: w, more, by simpa using hts, ?_, fun hmem => ?_⟩
          · simp only [List.length_cons] at hlength ⊢
            omega
          · have := hlt ((List.mem_cons.mp hmem).resolve_left (Ne.symm hslash))
            simp only [List.length_cons] at hlength ⊢
            omega
        · refine .inr ⟨?_, c :: w, by simpa using hw⟩
          rw [List.getLast?_cons, hlast]
          rfl

/-- With a backslash in it a text is not read as itself, whether its literal closes a list or another
one follows. -/
theorem literal_ne_of_backslash {s rest : List Char} (h : '\\' ∈ s)
    (hrest : rest = [')'] ∨ ∃ more, rest = ',' :: ' ' :: '"' :: more) {ts : List Token}
    (hread : tokensFrom (.literal []) (escapeQuotes s ++ '"' :: rest) = some ts) :
    ∃ w more, ts = .literal w :: more ∧ w ≠ s := by
  obtain ⟨w, more, hts, -, hlt⟩ | ⟨hlast, w, hw⟩ := tokensFrom_escapeQuotes_cases hread
  · refine ⟨w, more, by simpa using hts, ?_⟩
    rintro rfl
    exact absurd (hlt h) (Nat.lt_irrefl _)
  · obtain rfl | ⟨more, rfl⟩ := hrest
    · simp [tokensFrom] at hw
    · rw [tokensFrom, if_neg (by decide), if_neg (by decide), tokensFrom, if_neg (by decide),
        if_neg (by decide), tokensFrom, if_pos rfl] at hw
      obtain ⟨others, -, rfl⟩ := Option.map_eq_some_iff.mp hw
      refine ⟨_, others, rfl, ?_⟩
      rintro rfl
      simp at hlast

end CompanionBackend.FilterGrammar
