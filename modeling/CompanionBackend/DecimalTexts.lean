import Mathlib.Data.List.DropRight
import CompanionBackend.DecimalArithmetic

/-!
# Decimal numbers as texts

Numbers are read from texts with a sign, a point and an exponent, and written with as few zeros as there
can be. What is written that way depends on the value alone, and is read as this value.
-/
namespace CompanionBackend.DecimalTexts

open DecimalRounding DecimalArithmetic

abbrev Text := List Char

/-- The decimal digits and the blanks of the character set. -/
structure Alphabet where
  digit : Char → Option ℕ
  blank : Char → Bool

/-- What holds of the characters of a plain number. -/
structure Alphabet.Lawful (A : Alphabet) : Prop where
  digit_ascii : ∀ c : Char, c.isDigit = true → A.digit c = some (c.toNat - '0'.toNat)
  digit_point : A.digit '.' = none
  blank_ascii : ∀ c : Char, c.isDigit = true → A.blank c = false
  blank_point : A.blank '.' = false

/-! ### Reading -/

def strip (A : Alphabet) (s : Text) : Text := (s.dropWhile A.blank).rdropWhile A.blank

def takeDigits (A : Alphabet) : Text → List ℕ × Text
  | [] => ([], [])
  | c :: rest =>
    match A.digit c with
    | some d => (d :: (takeDigits A rest).1, (takeDigits A rest).2)
    | none => ([], c :: rest)

def natOf (digits : List ℕ) : ℕ := digits.foldl (fun n d => 10 * n + d) 0

def takeSign : Text → Bool × Text
  | '-' :: rest => (true, rest)
  | '+' :: rest => (false, rest)
  | rest => (false, rest)

def takePoint (A : Alphabet) : Text → List ℕ × Text
  | '.' :: rest => takeDigits A rest
  | rest => ([], rest)

/-- The exponent, 0 without one; nothing may follow. -/
def readExponent (A : Alphabet) : Text → Option ℤ
  | [] => some 0
  | c :: rest =>
    if c = 'e' ∨ c = 'E' then
      match takeDigits A (takeSign rest).2 with
      | (d :: digits, []) =>
        some (if (takeSign rest).1 then -(natOf (d :: digits) : ℤ) else natOf (d :: digits))
      | _ => none
    else none

def MAX_EMAX : ℤ := 999999999999999999

def MIN_ETINY : ℤ := -1999999999999999997

/-- The number can be constructed exactly. -/
def constructible (d : Dec) : Bool :=
  MIN_ETINY ≤ d.exponent && (if d.coefficient = 0 then d.exponent else d.adjusted) ≤ MAX_EMAX

/-- A finite number of a text; nothing for an infinity, for a text that is no number, and for one that is
out of range. -/
def parse (A : Alphabet) (s : Text) : Option Dec :=
  let text := (strip A s).filter (· ≠ '_')
  let signed := takeSign text
  let whole := takeDigits A signed.2
  let fraction := takePoint A whole.2
  if whole.1 = [] ∧ fraction.1 = [] then none
  else
    (readExponent A fraction.2).bind fun exp =>
      let d : Dec := ⟨signed.1, natOf (whole.1 ++ fraction.1), exp - fraction.1.length⟩
      if constructible d then some d else none

/-! ### Writing -/

/-- The digits of the coefficient. -/
def digitsOf (n : ℕ) : Text := Nat.toDigits 10 n

def strInt (n : ℤ) : Text := if n < 0 then '-' :: digitsOf n.natAbs else digitsOf n.natAbs

/-- The text of a number, with an exponent where there would be many zeros. -/
def str (d : Dec) : Text :=
  let int := digitsOf d.coefficient
  let leftDigits := d.exponent + int.length
  let dotPlace := if d.exponent ≤ 0 ∧ -6 < leftDigits then leftDigits else 1
  let body :=
    if dotPlace ≤ 0 then '0' :: '.' :: (List.replicate (-dotPlace).toNat '0' ++ int)
    else if int.length ≤ dotPlace then int ++ List.replicate (dotPlace - int.length).toNat '0'
    else int.take dotPlace.toNat ++ '.' :: int.drop dotPlace.toNat
  let exponent :=
    if leftDigits = dotPlace then []
    else 'E' :: (if leftDigits - dotPlace < 0 then [] else ['+']) ++ strInt (leftDigits - dotPlace)
  (if d.negative then ['-'] else []) ++ (body ++ exponent)

/-- The digits before and behind the point, of which `dotPlace` stand before it. -/
def placePoint (int : Text) (dotPlace : ℤ) : Text × Text :=
  if dotPlace < 0 then (['0'], List.replicate (-dotPlace).toNat '0' ++ int)
  else if int.length < dotPlace then (int ++ List.replicate (dotPlace - int.length).toNat '0', [])
  else (if int.take dotPlace.toNat = [] then ['0'] else int.take dotPlace.toNat, int.drop dotPlace.toNat)

/-- Digits with a point before the last ones, if there are such. -/
def numeral (whole fraction : Text) : Text := whole ++ if fraction = [] then [] else '.' :: fraction

/-- `format(d, 'f')` of a number that is not zero: the number without an exponent. -/
def formatF (d : Dec) : Text :=
  let int := digitsOf d.coefficient
  let parts := placePoint int (d.exponent + int.length)
  (if d.negative then ['-'] else []) ++ numeral parts.1 parts.2

/-- The text without the character at its end. -/
def rstrip (c : Char) (s : Text) : Text := s.rdropWhile (· = c)

/-- The shortest text of a number without an exponent. -/
def plain (d : Dec) : Text :=
  let text := if d.coefficient = 0 then ['0'] else formatF d
  if '.' ∈ text then rstrip '.' (rstrip '0' text) else text

/-! ### Digits -/

/-- A text of ASCII digits only. -/
def AllDigits (s : Text) : Prop := ∀ c ∈ s, c.isDigit = true

/-- The number that digits stand for. -/
def valueOf (s : Text) : ℕ := Nat.ofDigitChars 10 s 0

theorem allDigits_digitsOf (n : ℕ) : AllDigits (digitsOf n) := fun _ hc =>
  Nat.isDigit_of_mem_toDigits (by norm_num) (by norm_num) hc

theorem allDigits_zeros (k : ℕ) : AllDigits (List.replicate k '0') := fun c hc => by
  rw [List.eq_of_mem_replicate hc]
  rfl

theorem AllDigits.append {s t : Text} (hs : AllDigits s) (ht : AllDigits t) : AllDigits (s ++ t) :=
  fun c hc => (List.mem_append.mp hc).elim (hs c) (ht c)

theorem AllDigits.of_subset {s t : Text} (h : AllDigits t) (hst : s ⊆ t) : AllDigits s :=
  fun c hc => h c (hst hc)

theorem AllDigits.not_mem {s : Text} (h : AllDigits s) {c : Char} (hc : c.isDigit = false) : c ∉ s :=
  fun hmem => Bool.false_ne_true (hc.symm.trans (h c hmem))

theorem digitsOf_ne_nil (n : ℕ) : digitsOf n ≠ [] := Nat.toDigits_ne_nil

theorem digitsOf_ten_mul {n : ℕ} (hn : n ≠ 0) : digitsOf (10 * n) = digitsOf n ++ ['0'] := by
  have h := Nat.toDigits_append_toDigits (b := 10) (n := n) (d := 0) (by norm_num)
    (Nat.pos_of_ne_zero hn) (by norm_num)
  rw [Nat.toDigits_zero, Nat.add_zero] at h
  exact h.symm

@[simp] theorem valueOf_digitsOf (n : ℕ) : valueOf (digitsOf n) = n :=
  Nat.ofDigitChars_toDigits (by norm_num) (by norm_num)

theorem valueOf_zeros_append (k : ℕ) (s : Text) : valueOf (List.replicate k '0' ++ s) = valueOf s := by
  rw [valueOf, Nat.ofDigitChars_append, Nat.ofDigitChars_replicate_zero, Nat.mul_zero]
  rfl

theorem valueOf_append_zeros (s : Text) (k : ℕ) : valueOf (s ++ List.replicate k '0') = valueOf s * 10 ^ k := by
  rw [valueOf, Nat.ofDigitChars_append, Nat.ofDigitChars_replicate_zero, Nat.mul_comm]
  rfl

/-! ### Stripping -/

theorem rstrip_append_cons {c d : Char} (h : d ≠ c) (s t : Text) :
    rstrip c (s ++ d :: t) = s ++ d :: rstrip c t := by
  have hd : (decide (d = c)) = false := decide_eq_false h
  unfold rstrip List.rdropWhile
  rw [List.reverse_append, List.reverse_cons, List.append_assoc, List.dropWhile_append]
  split_ifs with hempty
  · rw [List.isEmpty_iff.mp hempty]
    simp [hd]
  · simp

theorem rstrip_eq_self {c : Char} {s : Text} (h : c ∉ s) : rstrip c s = s := by
  unfold rstrip
  rw [List.rdropWhile_eq_self_iff]
  intro hne hlast
  exact h (of_decide_eq_true hlast ▸ List.getLast_mem hne)

/-- What is stripped are zeros only. -/
theorem rstrip_append_zeros (s : Text) :
    rstrip '0' s ++ List.replicate (s.length - (rstrip '0' s).length) '0' = s := by
  have hsplit := List.rdropWhile_append_rtakeWhile (p := fun c => decide (c = '0')) (l := s)
  have hzeros : s.rtakeWhile (fun c => decide (c = '0')) =
      List.replicate (s.rtakeWhile fun c => decide (c = '0')).length '0' :=
    List.eq_replicate_of_mem fun c hc =>
      of_decide_eq_true (List.mem_rtakeWhile_imp (p := fun c => decide (c = '0')) hc)
  have hlen : (s.rtakeWhile fun c => decide (c = '0')).length = s.length - (rstrip '0' s).length := by
    have := congrArg List.length hsplit
    rw [List.length_append] at this
    unfold rstrip
    omega
  rw [← hlen, ← hzeros]
  exact hsplit

theorem rstrip_append_zero (s : Text) : rstrip '0' (s ++ ['0']) = rstrip '0' s :=
  List.rdropWhile_concat_pos _ _ _ rfl

theorem rstrip_numeral {whole fraction : Text} (hw : AllDigits whole) (hf : AllDigits fraction) :
    rstrip '.' (rstrip '0' (whole ++ '.' :: fraction)) = numeral whole (rstrip '0' fraction) := by
  have hsub : AllDigits (rstrip '0' fraction) := hf.of_subset (List.rdropWhile_prefix _ _).subset
  rw [rstrip_append_cons (by decide), numeral]
  split_ifs with hempty
  · rw [hempty, List.append_nil]
    have hconcat : rstrip '.' (whole ++ ['.']) = rstrip '.' whole := List.rdropWhile_concat_pos _ _ _ rfl
    rw [hconcat, rstrip_eq_self (hw.not_mem rfl)]
  · -- the last character is a digit
    generalize rstrip '0' fraction = kept at hsub hempty ⊢
    unfold rstrip
    rw [List.rdropWhile_eq_self_iff]
    intro hne hlast
    have hmem : (whole ++ '.' :: kept).getLast hne ∈ kept := by
      rw [List.getLast_append_of_ne_nil _ (List.cons_ne_nil _ _), List.getLast_cons hempty]
      exact List.getLast_mem hempty
    exact hsub.not_mem (c := '.') rfl (of_decide_eq_true hlast ▸ hmem)

/-! ### The shortest text -/

/-- The digits of a coefficient, with a zero before the point if there are no more than `n`. -/
def padded (n c : ℕ) : Text := List.replicate (n + 1 - (digitsOf c).length) '0' ++ digitsOf c

theorem allDigits_padded (n c : ℕ) : AllDigits (padded n c) :=
  (allDigits_zeros _).append (allDigits_digitsOf c)

theorem length_padded (n c : ℕ) : (padded n c).length = max (n + 1) (digitsOf c).length := by
  rw [padded, List.length_append, List.length_replicate]
  omega

theorem formatF_eq_numeral (c : ℕ) (e : ℤ) : formatF ⟨false, c, e⟩ =
    numeral (placePoint (digitsOf c) (e + (digitsOf c).length)).1
      (placePoint (digitsOf c) (e + (digitsOf c).length)).2 := rfl

theorem placePoint_of_nonneg {s : Text} (hs : s ≠ []) {e : ℤ} (he : 0 ≤ e) :
    placePoint s (e + s.length) = (s ++ List.replicate e.toNat '0', []) := by
  have hlen : 0 < s.length := List.length_pos_of_ne_nil hs
  unfold placePoint
  rw [if_neg (by omega)]
  obtain rfl | hpos := eq_or_lt_of_le he
  · have hdot : ((0 : ℤ) + s.length).toNat = s.length := by omega
    rw [if_neg (by omega), hdot]
    simp [hs]
  · have hzeros : (e + (s.length : ℤ) - s.length).toNat = e.toNat := by omega
    rw [if_pos (by omega), hzeros]

/-- With `n` digits behind the point, there is at least one before it. -/
theorem placePoint_of_neg {s : Text} (hs : s ≠ []) {n : ℕ} :
    placePoint s (-(n : ℤ) + s.length) =
      ((List.replicate (n + 1 - s.length) '0' ++ s).take (max (n + 1) s.length - n),
        (List.replicate (n + 1 - s.length) '0' ++ s).drop (max (n + 1) s.length - n)) := by
  have hlen : 0 < s.length := List.length_pos_of_ne_nil hs
  unfold placePoint
  by_cases hshort : s.length < n
  · have hpad : n + 1 - s.length = 1 + (n - s.length) := by omega
    have hmax : max (n + 1) s.length - n = 1 := by omega
    have hdot : (-(-(n : ℤ) + (s.length : ℤ))).toNat = n - s.length := by omega
    rw [if_pos (by omega), hpad, hmax, hdot, List.replicate_add]
    rfl
  · rw [if_neg (by omega), if_neg (by omega)]
    obtain heq | hlt := eq_or_lt_of_le (Nat.le_of_not_lt hshort)
    · have hdot : (-(n : ℤ) + (s.length : ℤ)).toNat = 0 := by omega
      have hpad : n + 1 - s.length = 1 := by omega
      have hmax : max (n + 1) s.length - n = 1 := by omega
      rw [hdot, hpad, hmax]
      rfl
    · have hdot : (-(n : ℤ) + (s.length : ℤ)).toNat = s.length - n := by omega
      have hpad : n + 1 - s.length = 0 := by omega
      have hmax : max (n + 1) s.length - n = s.length - n := by omega
      have htake : s.take (s.length - n) ≠ [] := by
        rw [Ne, List.take_eq_nil_iff, not_or]
        exact ⟨by omega, hs⟩
      rw [hdot, hpad, hmax, if_neg htake]
      rfl

theorem formatF_of_nonneg {c : ℕ} {e : ℤ} (he : 0 ≤ e) :
    formatF ⟨false, c, e⟩ = digitsOf c ++ List.replicate e.toNat '0' := by
  rw [formatF_eq_numeral, placePoint_of_nonneg (digitsOf_ne_nil c) he, numeral, if_pos rfl, List.append_nil]

theorem formatF_of_neg {c n : ℕ} (hn : 0 < n) : formatF ⟨false, c, -(n : ℤ)⟩ =
    (padded n c).take ((padded n c).length - n) ++ '.' :: (padded n c).drop ((padded n c).length - n) := by
  have hdrop : (padded n c).drop ((padded n c).length - n) ≠ [] := by
    rw [Ne, List.drop_eq_nil_iff, length_padded]
    omega
  rw [formatF_eq_numeral, placePoint_of_neg (digitsOf_ne_nil c), ← length_padded]
  rw [show List.replicate (n + 1 - (digitsOf c).length) '0' ++ digitsOf c = padded n c from rfl]
  rw [numeral, if_neg hdrop]

/-- The digits before the point. -/
def wholePart (n c : ℕ) : Text := (padded n c).take ((padded n c).length - n)

/-- The digits behind the point. -/
def fractionPart (n c : ℕ) : Text := (padded n c).drop ((padded n c).length - n)

theorem wholePart_append (n c : ℕ) : wholePart n c ++ fractionPart n c = padded n c := List.take_append_drop _ _

theorem allDigits_wholePart (n c : ℕ) : AllDigits (wholePart n c) :=
  (allDigits_padded n c).of_subset (List.take_subset _ _)

theorem allDigits_fractionPart (n c : ℕ) : AllDigits (fractionPart n c) :=
  (allDigits_padded n c).of_subset (List.drop_subset _ _)

theorem plain_of_nonneg {c : ℕ} {e : ℤ} (hc : c ≠ 0) (he : 0 ≤ e) :
    plain ⟨false, c, e⟩ = digitsOf c ++ List.replicate e.toNat '0' := by
  have hdigits : AllDigits (digitsOf c ++ List.replicate e.toNat '0') :=
    (allDigits_digitsOf c).append (allDigits_zeros _)
  unfold plain
  dsimp only
  rw [if_neg hc, formatF_of_nonneg he, if_neg (hdigits.not_mem rfl)]

theorem padded_zero (c : ℕ) : padded 0 c = digitsOf c := by
  have hlen : 0 < (digitsOf c).length := List.length_pos_of_ne_nil (digitsOf_ne_nil c)
  rw [padded, show 0 + 1 - (digitsOf c).length = 0 by omega]
  rfl

theorem plain_of_nonpos {c : ℕ} (n : ℕ) (hc : c ≠ 0) :
    plain ⟨false, c, -(n : ℤ)⟩ = numeral (wholePart n c) (rstrip '0' (fractionPart n c)) := by
  obtain rfl | hn := Nat.eq_zero_or_pos n
  · rw [plain_of_nonneg hc (by simp), wholePart, fractionPart, padded_zero]
    simp [numeral, rstrip]
  · unfold plain
    dsimp only
    rw [if_neg hc, formatF_of_neg hn, if_pos (List.mem_append_right _ List.mem_cons_self)]
    exact rstrip_numeral (allDigits_wholePart n c) (allDigits_fractionPart n c)

/-! ### Equal numbers -/

theorem padded_ten {c : ℕ} (n : ℕ) (hc : c ≠ 0) : padded (n + 1) (10 * c) = padded n c ++ ['0'] := by
  rw [padded, padded, digitsOf_ten_mul hc, List.length_append, List.length_singleton,
    Nat.add_sub_add_right, List.append_assoc]

theorem parts_ten {c : ℕ} (n : ℕ) (hc : c ≠ 0) : wholePart (n + 1) (10 * c) = wholePart n c ∧
    fractionPart (n + 1) (10 * c) = fractionPart n c ++ ['0'] := by
  have hlen : (padded n c).length + 1 - (n + 1) = (padded n c).length - n := by omega
  rw [wholePart, fractionPart, padded_ten n hc, List.length_append, List.length_singleton, hlen]
  exact ⟨List.take_append_of_le_length (Nat.sub_le _ _), List.drop_append_of_le_length (Nat.sub_le _ _)⟩

/-- A zero moves from the exponent to the coefficient. -/
theorem plain_ten {c : ℕ} (hc : c ≠ 0) (e : ℤ) : plain ⟨false, 10 * c, e - 1⟩ = plain ⟨false, c, e⟩ := by
  have hc' : 10 * c ≠ 0 := by omega
  obtain hpos | hneg := lt_or_ge 0 e
  · rw [plain_of_nonneg hc' (by omega), plain_of_nonneg hc hpos.le, digitsOf_ten_mul hc, List.append_assoc]
    have hsucc : e.toNat = (e - 1).toNat + 1 := by omega
    rw [hsucc, List.replicate_succ]
    rfl
  · obtain ⟨n, hn⟩ := Int.eq_ofNat_of_zero_le (show 0 ≤ -e by omega)
    obtain rfl : e = -(n : ℤ) := by omega
    rw [show -(n : ℤ) - 1 = -((n + 1 : ℕ) : ℤ) by push_cast; ring, plain_of_nonpos _ hc', plain_of_nonpos _ hc,
      (parts_ten n hc).1, (parts_ten n hc).2, rstrip_append_zero]

theorem plain_pow {c : ℕ} (hc : c ≠ 0) (e : ℤ) (k : ℕ) :
    plain ⟨false, c * 10 ^ k, e - k⟩ = plain ⟨false, c, e⟩ := by
  induction k with
  | zero => simp
  | succ k ih =>
    have hck : c * 10 ^ k ≠ 0 := Nat.mul_ne_zero hc (by positivity)
    rw [← ih, ← plain_ten hck, pow_succ, show e - ((k + 1 : ℕ) : ℤ) = e - k - 1 by push_cast; ring,
      show c * (10 ^ k * 10) = 10 * (c * 10 ^ k) by ring]

theorem plain_eq_of_le {c c' : ℕ} {e e' : ℤ} (hc' : c' ≠ 0) (hle : e ≤ e')
    (h : (c : ℚ) * 10 ^ e = c' * 10 ^ e') : plain ⟨false, c, e⟩ = plain ⟨false, c', e'⟩ := by
  obtain ⟨k, hk⟩ := Int.le.dest hle
  have hcoefficient : c = c' * 10 ^ k := by
    rw [← hk, zpow_add₀ (by norm_num), zpow_natCast, mul_left_comm, mul_comm] at h
    have hcast := mul_left_cancel₀ (ten_zpow_pos e).ne' h
    exact_mod_cast hcast
  rw [hcoefficient, ← plain_pow hc' e' k, show e' - k = e by omega]

/-- The shortest text depends on the value alone. -/
theorem plain_eq_of_magnitude {d d' : Dec} (hd : d.negative = false) (hd' : d'.negative = false)
    (hc : d.coefficient ≠ 0) (hc' : d'.coefficient ≠ 0) (h : d.magnitude = d'.magnitude) :
    plain d = plain d' := by
  obtain ⟨_, c, e⟩ := d
  obtain ⟨_, c', e'⟩ := d'
  subst hd hd'
  obtain hle | hle := le_total e e'
  · exact plain_eq_of_le hc' hle h
  · exact (plain_eq_of_le hc hle h.symm).symm

/-! ### Reading what was written -/

section

variable {A : Alphabet}

def digitValue (c : Char) : ℕ := c.toNat - '0'.toNat

theorem natOf_map (s : Text) : natOf (s.map digitValue) = valueOf s := by
  rw [natOf, valueOf, Nat.ofDigitChars_eq_foldl, List.foldl_map]
  rfl

theorem takeDigits_append (hA : A.Lawful) {s rest : Text} (hs : AllDigits s)
    (hrest : ∀ c ∈ rest.head?, A.digit c = none) : takeDigits A (s ++ rest) = (s.map digitValue, rest) := by
  induction s with
  | nil =>
    cases rest with
    | nil => rfl
    | cons c rest =>
      rw [List.nil_append, takeDigits, hrest c rfl]
      rfl
  | cons c s ih =>
    have ih := ih fun x hx => hs x (List.mem_cons_of_mem _ hx)
    rw [List.cons_append, takeDigits, hA.digit_ascii c (hs c List.mem_cons_self)]
    dsimp only
    rw [ih]
    rfl

theorem strip_eq_self {s : Text} (hs : ∀ c ∈ s, A.blank c = false) : strip A s = s := by
  have hdrop : s.dropWhile A.blank = s := List.dropWhile_eq_self_iff.mpr fun hpos => by
    rw [hs _ (List.getElem_mem hpos)]
    exact Bool.false_ne_true
  rw [strip, hdrop, List.rdropWhile_eq_self_iff]
  intro hne
  rw [hs _ (List.getLast_mem hne)]
  exact Bool.false_ne_true

theorem mem_numeral {whole fraction : Text} {c : Char} (h : c ∈ numeral whole fraction) :
    c ∈ whole ∨ c = '.' ∨ c ∈ fraction := by
  obtain h | h := List.mem_append.mp h
  · exact .inl h
  · split_ifs at h
    · cases h
    · exact .inr (List.mem_cons.mp h)

theorem takeSign_digit {c : Char} (hc : c.isDigit = true) (s : Text) : takeSign (c :: s) = (false, c :: s) := by
  unfold takeSign
  split
  next h =>
    obtain rfl := (List.cons.inj h).1
    cases hc
  next h =>
    obtain rfl := (List.cons.inj h).1
    cases hc
  · rfl

/-- Digits with a point are read as their value. -/
theorem parse_numeral (hA : A.Lawful) {whole fraction : Text} (hne : whole ≠ []) (hw : AllDigits whole)
    (hf : AllDigits fraction)
    (hrange : constructible ⟨false, valueOf (whole ++ fraction), -(fraction.length : ℤ)⟩ = true) :
    parse A (numeral whole fraction) = some ⟨false, valueOf (whole ++ fraction), -(fraction.length : ℤ)⟩ := by
  have hstrip : strip A (numeral whole fraction) = numeral whole fraction := strip_eq_self fun c hc => by
    obtain h | rfl | h := mem_numeral hc
    · exact hA.blank_ascii c (hw c h)
    · exact hA.blank_point
    · exact hA.blank_ascii c (hf c h)
  have hfilter : (numeral whole fraction).filter (· ≠ '_') = numeral whole fraction :=
    List.filter_eq_self.mpr fun c hc => by
      rw [decide_eq_true_eq]
      rintro rfl
      obtain h | h | h := mem_numeral hc
      · exact hw.not_mem rfl h
      · exact absurd h (by decide)
      · exact hf.not_mem rfl h
  have hsign : takeSign (numeral whole fraction) = (false, numeral whole fraction) := by
    obtain ⟨c, w, rfl⟩ := List.exists_cons_of_ne_nil hne
    exact takeSign_digit (hw c List.mem_cons_self) _
  have hwhole : takeDigits A (numeral whole fraction) =
      (whole.map digitValue, if fraction = [] then [] else '.' :: fraction) := by
    refine takeDigits_append hA hw fun c hc => ?_
    split_ifs at hc
    · cases hc
    · obtain rfl := Option.some.inj hc
      exact hA.digit_point
  have hpoint : takePoint A (if fraction = [] then [] else '.' :: fraction) = (fraction.map digitValue, []) := by
    split_ifs with hempty
    · rw [hempty]
      rfl
    · have : takeDigits A (fraction ++ []) = (fraction.map digitValue, []) :=
        takeDigits_append hA hf fun _ h => nomatch h
      rwa [List.append_nil] at this
  unfold parse
  rw [hstrip, hfilter]
  dsimp only
  rw [hsign]
  dsimp only
  rw [hwhole]
  dsimp only
  rw [hpoint]
  dsimp only
  rw [if_neg (by simp [hne]), ← List.map_append, natOf_map, List.length_map]
  simp only [readExponent, Option.bind_some, zero_sub]
  rw [if_pos hrange]

end

end CompanionBackend.DecimalTexts
