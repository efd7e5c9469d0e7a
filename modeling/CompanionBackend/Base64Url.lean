import Mathlib.Data.List.GetD

/-!
# Base64 for URLs

Bytes are numbers below 256. Three of them become four digits of the alphabet, and a rest of one or
two bytes becomes two or three digits, without padding.
-/
namespace CompanionBackend.Base64Url

/-- The digits, in the order of their values. -/
def alphabet : List Char :=
  "ABCDEFGHIJKLMNOPQRSTUVWXYZabcdefghijklmnopqrstuvwxyz0123456789-_".toList

def digit (n : ℕ) : Char := alphabet.getD n 'A'

def value (c : Char) : Option ℕ :=
  if c.isUpper then some (c.toNat - 65)
  else if c.isLower then some (c.toNat - 71)
  else if c.isDigit then some (c.toNat + 4)
  else if c = '-' then some 62 else if c = '_' then some 63 else none

theorem value_digit {n : ℕ} (h : n < 64) : value (digit n) = some n := by
  have hall : ∀ n : Fin 64, value (digit n) = some n.val := by decide +kernel
  exact hall ⟨n, h⟩

theorem digit_mem (n : ℕ) : digit n ∈ alphabet := by
  unfold digit
  by_cases h : n < alphabet.length
  · rw [List.getD_eq_getElem _ _ h]
    exact List.getElem_mem h
  · rw [List.getD_eq_default _ _ (by omega)]
    decide

def encode : List ℕ → List Char
  | a :: b :: c :: rest =>
    digit (a / 4) :: digit (a % 4 * 16 + b / 16) :: digit (b % 16 * 4 + c / 64) ::
      digit (c % 64) :: encode rest
  | [a, b] => [digit (a / 4), digit (a % 4 * 16 + b / 16), digit (b % 16 * 4)]
  | [a] => [digit (a / 4), digit (a % 4 * 16)]
  | [] => []

def decode : List Char → Option (List ℕ)
  | w :: x :: y :: z :: rest => do
    let w ← value w
    let x ← value x
    let y ← value y
    let z ← value z
    let bytes ← decode rest
    some ((w * 4 + x / 16) :: (x % 16 * 16 + y / 4) :: (y % 4 * 64 + z) :: bytes)
  | [w, x, y] => do
    let w ← value w
    let x ← value x
    let y ← value y
    some [w * 4 + x / 16, x % 16 * 16 + y / 4]
  | [w, x] => do
    let w ← value w
    let x ← value x
    some [w * 4 + x / 16]
  | [_] => none
  | [] => some []

/-- What was encoded is decoded. -/
theorem decode_encode {bytes : List ℕ} (h : ∀ b ∈ bytes, b < 256) :
    decode (encode bytes) = some bytes := by
  induction bytes using encode.induct with
  | case1 a b c rest ih =>
    have ha : a < 256 := h a (by simp)
    have hb : b < 256 := h b (by simp)
    have hc : c < 256 := h c (by simp)
    have hrest := ih fun x hx => h x (by simp [hx])
    have hw : a / 4 < 64 := by omega
    have hx : a % 4 * 16 + b / 16 < 64 := by omega
    have hy : b % 16 * 4 + c / 64 < 64 := by omega
    have hz : c % 64 < 64 := by omega
    simp only [encode, decode, value_digit hw, value_digit hx, value_digit hy, value_digit hz, hrest,
      Option.bind_eq_bind, Option.bind_some, Option.some.injEq, List.cons.injEq]
    exact ⟨by omega, by omega, by omega, trivial⟩
  | case2 a b =>
    have ha : a < 256 := h a (by simp)
    have hb : b < 256 := h b (by simp)
    have hw : a / 4 < 64 := by omega
    have hx : a % 4 * 16 + b / 16 < 64 := by omega
    have hy : b % 16 * 4 < 64 := by omega
    simp only [encode, decode, value_digit hw, value_digit hx, value_digit hy, Option.bind_eq_bind,
      Option.bind_some, Option.some.injEq, List.cons.injEq]
    exact ⟨by omega, by omega, trivial⟩
  | case3 a =>
    have ha : a < 256 := h a (by simp)
    have hw : a / 4 < 64 := by omega
    have hx : a % 4 * 16 < 64 := by omega
    simp only [encode, decode, value_digit hw, value_digit hx, Option.bind_eq_bind, Option.bind_some,
      Option.some.injEq, List.cons.injEq]
    exact ⟨by omega, trivial⟩
  | case4 => simp [encode, decode]

theorem length_encode (bytes : List ℕ) : (encode bytes).length = (4 * bytes.length + 2) / 3 := by
  induction bytes using encode.induct with
  | case1 a b c rest ih =>
    simp only [encode, List.length_cons, ih]
    omega
  | case2 a b => simp [encode]
  | case3 a => simp [encode]
  | case4 => rfl

theorem encode_mem {bytes : List ℕ} {c : Char} (h : c ∈ encode bytes) : c ∈ alphabet := by
  induction bytes using encode.induct with
  | case1 a b d rest ih =>
    simp only [encode, List.mem_cons] at h
    rcases h with rfl | rfl | rfl | rfl | h
    · exact digit_mem _
    · exact digit_mem _
    · exact digit_mem _
    · exact digit_mem _
    · exact ih h
  | case2 a b =>
    simp only [encode, List.mem_cons, List.not_mem_nil, or_false] at h
    rcases h with rfl | rfl | rfl <;> exact digit_mem _
  | case3 a =>
    simp only [encode, List.mem_cons, List.not_mem_nil, or_false] at h
    rcases h with rfl | rfl <;> exact digit_mem _
  | case4 => cases h

end CompanionBackend.Base64Url
