import Mathlib.Data.Int.Basic
import Mathlib.Data.List.TakeDrop
import Mathlib.Data.List.TakeWhile

/-!
# Objects of one level as JSON

Objects whose values are integers and strings that need no escape, written without blanks. Reading
takes these texts only.
-/
namespace CompanionBackend.FlatJson

abbrev Text := List Char

inductive Scalar
  | int (n : ℤ)
  | str (t : Text)
  deriving DecidableEq, Repr

/-- A character that stands for itself in a string. -/
def plain (c : Char) : Bool := c ≠ '"' && c ≠ '\\' && 32 ≤ c.toNat && c.toNat < 127

/-- A string that needs no escape. -/
def Plain (t : Text) : Prop := ∀ c ∈ t, plain c = true

def quote (t : Text) : Text := '"' :: (t ++ ['"'])

def Scalar.dumps : Scalar → Text
  | .int (.ofNat n) => Nat.toDigits 10 n
  | .int (.negSucc n) => '-' :: Nat.toDigits 10 (n + 1)
  | .str t => quote t

def member (m : Text × Scalar) : Text := quote m.1 ++ ':' :: m.2.dumps

/-- The members after the first one. -/
def tail (ms : List (Text × Scalar)) : Text := ms.flatMap fun m => ',' :: member m

def dumps : List (Text × Scalar) → Text
  | [] => ['{', '}']
  | m :: ms => '{' :: (member m ++ (tail ms ++ ['}']))

/-! ### Reading -/

/-- A string and what follows it. -/
def takeString : Text → Option (Text × Text)
  | '"' :: cs =>
    match cs.span fun c => c ≠ '"' with
    | (t, _ :: rest) => if t.all plain then some (t, rest) else none
    | _ => none
  | _ => none

def takeNat (cs : Text) : Option (ℕ × Text) :=
  match cs.span Char.isDigit with
  | ([], _) => none
  | (ds, rest) => some (Nat.ofDigitChars 10 ds 0, rest)

def takeScalar : Text → Option (Scalar × Text)
  | '"' :: cs => (takeString ('"' :: cs)).map fun p => (.str p.1, p.2)
  | '-' :: cs => (takeNat cs).map fun p => (.int (-p.1), p.2)
  | cs => (takeNat cs).map fun p => (.int p.1, p.2)

def takeMember (cs : Text) : Option ((Text × Scalar) × Text) := do
  let (key, rest) ← takeString cs
  match rest with
  | ':' :: rest =>
    let (v, rest) ← takeScalar rest
    some ((key, v), rest)
  | _ => none

/-- Members up to the end of the text; the number bounds how many there are. -/
def takeMembers : ℕ → Text → Option (List (Text × Scalar))
  | 0, _ => none
  | n + 1, cs => do
    let (m, rest) ← takeMember cs
    match rest with
    | ['}'] => some [m]
    | ',' :: rest => (takeMembers n rest).map (m :: ·)
    | _ => none

def loads : Text → Option (List (Text × Scalar))
  | ['{', '}'] => some []
  | '{' :: cs => takeMembers cs.length cs
  | _ => none

/-! ### What was written is read -/

/-- Keys and strings need no escape. -/
def PlainMember (m : Text × Scalar) : Prop := Plain m.1 ∧ ∀ t, m.2 = .str t → Plain t

/-- What cannot continue a number. -/
def Stops (rest : Text) : Prop := ∀ c ∈ rest.head?, c.isDigit = false

theorem span_append {p : Char → Bool} {t : Text} {c : Char} {rest : Text} (ht : ∀ x ∈ t, p x = true)
    (hc : p c = false) : (t ++ c :: rest).span p = (t, c :: rest) := by
  rw [List.span_eq_takeWhile_dropWhile, List.takeWhile_append_of_pos ht,
    List.dropWhile_append_of_pos ht, List.takeWhile_cons_of_neg (by simp [hc]),
    List.dropWhile_cons_of_neg (by simp [hc]), List.append_nil]

theorem takeString_quote {t rest : Text} (ht : Plain t) :
    takeString (quote t ++ rest) = some (t, rest) := by
  have hspan : (t ++ '"' :: rest).span (fun c => decide (c ≠ '"')) = (t, '"' :: rest) := by
    refine span_append (fun c hc => ?_) (by simp)
    have hplain := ht c hc
    simp only [plain, Bool.and_eq_true, decide_eq_true_eq] at hplain
    exact decide_eq_true hplain.1.1.1
  have hall : t.all plain = true := List.all_eq_true.mpr ht
  simp only [quote, List.cons_append, List.append_assoc, List.nil_append, takeString, hspan, hall,
    if_true]

theorem takeNat_digits {n : ℕ} {rest : Text} (hrest : Stops rest) :
    takeNat (Nat.toDigits 10 n ++ rest) = some (n, rest) := by
  have hdigits : ∀ c ∈ Nat.toDigits 10 n, c.isDigit = true := fun c hc =>
    Nat.isDigit_of_mem_toDigits (by omega) (by omega) hc
  have hspan : (Nat.toDigits 10 n ++ rest).span Char.isDigit = (Nat.toDigits 10 n, rest) := by
    cases rest with
    | nil =>
      rw [List.append_nil, List.span_eq_takeWhile_dropWhile, List.takeWhile_eq_self_iff.mpr hdigits,
        List.dropWhile_eq_nil_iff.mpr hdigits]
    | cons c rest => exact span_append hdigits (hrest c rfl)
  rw [takeNat, hspan]
  cases hcase : Nat.toDigits 10 n with
  | nil => exact absurd hcase Nat.toDigits_ne_nil
  | cons d ds =>
    have hvalue := Nat.ofDigitChars_toDigits (b := 10) (n := n) (by omega) (by omega)
    rw [hcase] at hvalue
    simp only [hvalue]

theorem takeScalar_dumps {v : Scalar} {rest : Text} (hv : ∀ t, v = .str t → Plain t)
    (hrest : Stops rest) : takeScalar (v.dumps ++ rest) = some (v, rest) := by
  cases v with
  | str t =>
    have hstring : takeString (quote t ++ rest) = some (t, rest) := takeString_quote (hv t rfl)
    rw [Scalar.dumps, quote, List.cons_append]
    rw [quote, List.cons_append] at hstring
    rw [takeScalar, hstring]
    rfl
  | int n =>
    cases n with
    | ofNat n =>
      have hnat := takeNat_digits (n := n) hrest
      rw [Scalar.dumps]
      cases hcase : Nat.toDigits 10 n with
      | nil => exact absurd hcase Nat.toDigits_ne_nil
      | cons d ds =>
        have hd : d.isDigit = true :=
          Nat.isDigit_of_mem_toDigits (b := 10) (n := n) (by omega) (by omega) (by simp [hcase])
        have hquote : d ≠ '"' := by
          rintro rfl
          exact absurd hd (by decide)
        have hminus : d ≠ '-' := by
          rintro rfl
          exact absurd hd (by decide)
        rw [hcase, List.cons_append] at hnat
        rw [List.cons_append]
        unfold takeScalar
        split
        · rename_i heq
          exact absurd (List.cons.inj heq).1 hquote
        · rename_i heq
          exact absurd (List.cons.inj heq).1 hminus
        · rw [hnat]
          rfl
    | negSucc n =>
      have hnat := takeNat_digits (n := n + 1) hrest
      rw [Scalar.dumps, List.cons_append, takeScalar, hnat]
      simp [Int.negSucc_eq]

theorem takeMember_member {m : Text × Scalar} {rest : Text} (hm : PlainMember m)
    (hrest : Stops rest) : takeMember (member m ++ rest) = some (m, rest) := by
  have hkey : takeString (quote m.1 ++ ':' :: (m.2.dumps ++ rest)) =
      some (m.1, ':' :: (m.2.dumps ++ rest)) := takeString_quote hm.1
  have hvalue := takeScalar_dumps hm.2 hrest
  rw [member, List.append_assoc, List.cons_append, takeMember, hkey]
  simp only [Option.bind_eq_bind, Option.bind_some, hvalue]

theorem takeMembers_tail {ms : List (Text × Scalar)} {m : Text × Scalar} {n : ℕ}
    (hm : PlainMember m) (hms : ∀ x ∈ ms, PlainMember x) (hn : ms.length < n) :
    takeMembers n (member m ++ (tail ms ++ ['}'])) = some (m :: ms) := by
  induction ms generalizing m n with
  | nil =>
    obtain ⟨n, rfl⟩ := Nat.exists_eq_add_of_lt hn
    have hmember : takeMember (member m ++ ['}']) = some (m, ['}']) :=
      takeMember_member hm (by simp [Stops])
    simp [takeMembers, tail, hmember]
  | cons x ms ih =>
    obtain ⟨n, rfl⟩ : ∃ k, n = k + 1 := ⟨n - 1, by omega⟩
    have hx : PlainMember x := hms x List.mem_cons_self
    have hrest : ∀ y ∈ ms, PlainMember y := fun y hy => hms y (List.mem_cons_of_mem x hy)
    have hmember : takeMember (member m ++ ',' :: (member x ++ (tail ms ++ ['}']))) =
        some (m, ',' :: (member x ++ (tail ms ++ ['}']))) := takeMember_member hm (by simp [Stops])
    have hlength : ms.length < n := by
      rw [List.length_cons] at hn
      omega
    have htail : tail (x :: ms) ++ ['}'] = ',' :: (member x ++ (tail ms ++ ['}'])) := by
      simp [tail]
    rw [htail, takeMembers, hmember]
    simp only [Option.bind_eq_bind, Option.bind_some, ih hx hrest hlength, Option.map_some]

theorem member_length_pos (m : Text × Scalar) : 0 < (member m).length := by
  simp [member, quote]

theorem length_le_tail (ms : List (Text × Scalar)) : ms.length ≤ (tail ms).length := by
  induction ms with
  | nil => exact Nat.le_refl 0
  | cons m ms ih =>
    have htail : tail (m :: ms) = ',' :: (member m ++ tail ms) := by simp [tail]
    rw [htail, List.length_cons, List.length_cons, List.length_append]
    omega

/-- What was written is read. -/
theorem loads_dumps {ms : List (Text × Scalar)} (h : ∀ m ∈ ms, PlainMember m) :
    loads (dumps ms) = some ms := by
  cases ms with
  | nil => rfl
  | cons m ms =>
    have hm : PlainMember m := h m List.mem_cons_self
    have hms : ∀ x ∈ ms, PlainMember x := fun x hx => h x (List.mem_cons_of_mem m hx)
    have hpos := member_length_pos m
    have htail := length_le_tail ms
    rw [dumps]
    unfold loads
    split
    · rename_i heq
      have hlength := congrArg List.length heq
      simp only [List.length_cons, List.length_append, List.length_nil] at hlength
      have hquote : (member m).length ≥ 3 := by simp [member, quote]; omega
      omega
    · rename_i heq
      obtain ⟨-, rfl⟩ := List.cons.inj heq
      refine takeMembers_tail hm hms ?_
      rw [List.length_append, List.length_append]
      omega
    · rename_i hne
      exact absurd rfl (hne _)

theorem digit_ascii {c : Char} {n : ℕ} (h : c ∈ Nat.toDigits 10 n) : c.toNat < 128 := by
  have hdigit := Nat.isDigit_of_mem_toDigits (by omega) (by omega) h
  simp only [Char.isDigit, Bool.and_eq_true, decide_eq_true_eq] at hdigit
  have hle : c.toNat ≤ '9'.toNat := hdigit.2
  have hnine : '9'.toNat = 57 := rfl
  omega

theorem quote_ascii {t : Text} (ht : Plain t) : ∀ c ∈ quote t, c.toNat < 128 := by
  intro c hc
  simp only [quote, List.mem_cons, List.mem_append, List.not_mem_nil, or_false] at hc
  rcases hc with rfl | hc | rfl
  · decide
  · have hplain := ht c hc
    simp only [plain, Bool.and_eq_true, decide_eq_true_eq] at hplain
    omega
  · decide

theorem member_ascii {m : Text × Scalar} (hm : PlainMember m) : ∀ c ∈ member m, c.toNat < 128 := by
  obtain ⟨key, v⟩ := m
  intro c hc
  rcases List.mem_append.mp hc with hc | hc
  · exact quote_ascii hm.1 c hc
  · rcases List.mem_cons.mp hc with rfl | hc
    · decide
    · cases v with
      | str t => exact quote_ascii (hm.2 t rfl) c hc
      | int n =>
        cases n with
        | ofNat n => exact digit_ascii hc
        | negSucc n =>
          rcases List.mem_cons.mp hc with rfl | hc
          · decide
          · exact digit_ascii hc

/-- Written texts are of ASCII characters. -/
theorem dumps_ascii {ms : List (Text × Scalar)} (h : ∀ m ∈ ms, PlainMember m) :
    ∀ c ∈ dumps ms, c.toNat < 128 := by
  have htail : ∀ ms : List (Text × Scalar), (∀ m ∈ ms, PlainMember m) →
      ∀ c ∈ tail ms, c.toNat < 128 := by
    intro ms hms c hc
    obtain ⟨m, hm, hc⟩ := List.mem_flatMap.mp hc
    rcases List.mem_cons.mp hc with rfl | hc
    · decide
    · exact member_ascii (hms m hm) c hc
  cases ms with
  | nil =>
    intro c hc
    simp only [dumps, List.mem_cons, List.not_mem_nil, or_false] at hc
    rcases hc with rfl | rfl <;> decide
  | cons m ms =>
    intro c hc
    simp only [dumps, List.mem_cons, List.mem_append, List.not_mem_nil, or_false] at hc
    rcases hc with rfl | hc | hc | rfl
    · decide
    · exact member_ascii (h m List.mem_cons_self) c hc
    · exact htail ms (fun x hx => h x (List.mem_cons_of_mem m hx)) c hc
    · decide

end CompanionBackend.FlatJson
