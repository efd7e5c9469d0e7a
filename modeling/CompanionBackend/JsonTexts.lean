import Mathlib.Data.List.TakeWhile
import CompanionBackend.Dictionaries

/-!
# Documents as JSON texts

Strings are lists of code points, among them surrogates. A text is read as the decoder does it: an
escaped pair of surrogates becomes one code point, a later member takes the place of an earlier one
with the same key. Numbers are kept as their tokens.
-/
namespace CompanionBackend.JsonTexts

open Dictionaries

/-- A code point. -/
abbrev Point := Fin 1114112

abbrev PyStr := List Point

theorem toNat_lt (c : Char) : c.toNat < 1114112 := by
  have := c.valid
  simp only [UInt32.isValidChar, Nat.isValidChar] at this
  have h : c.toNat = c.val.toNat := rfl
  omega

def pt (c : Char) : Point := ⟨c.toNat, toNat_lt c⟩

def pts (s : String) : PyStr := s.toList.map pt

def isHigh (n : ℕ) : Bool := 0xD800 ≤ n && n < 0xDC00

def isLow (n : ℕ) : Bool := 0xDC00 ≤ n && n < 0xE000

def hexDigit (n : ℕ) : Point :=
  if h : n < 10 then ⟨48 + n, by omega⟩ else ⟨87 + n % 16, by omega⟩

def hexValue (c : Point) : Option ℕ :=
  if 48 ≤ c.val ∧ c.val < 58 then some (c.val - 48)
  else if 97 ≤ c.val ∧ c.val < 103 then some (c.val - 87)
  else if 65 ≤ c.val ∧ c.val < 71 then some (c.val - 55) else none

def hex4 (n : ℕ) : PyStr :=
  [hexDigit (n / 4096 % 16), hexDigit (n / 256 % 16), hexDigit (n / 16 % 16), hexDigit (n % 16)]

def takeHex4 : PyStr → Option (ℕ × PyStr)
  | a :: b :: c :: d :: rest => do
    let a ← hexValue a
    let b ← hexValue b
    let c ← hexValue c
    let d ← hexValue d
    some (((a * 16 + b) * 16 + c) * 16 + d, rest)
  | _ => none

/-- The points with an escape of their own, and its second character. -/
def short : List (Point × Point) :=
  [(pt '"', pt '"'), (pt '\\', pt '\\'), (pt '\n', pt 'n'), (pt '\r', pt 'r'), (pt '\t', pt 't'),
    (8, pt 'b'), (12, pt 'f')]

def unit (n : ℕ) : PyStr := pt '\\' :: pt 'u' :: hex4 n

/-- A point as `ensure_ascii` writes it. -/
def escapePoint (c : Point) : PyStr :=
  match short.find? fun e => e.1 = c with
  | some e => [pt '\\', e.2]
  | none =>
    if 32 ≤ c.val ∧ c.val < 127 then [c]
    else if c.val < 0x10000 then unit c.val
    else unit (0xD800 + (c.val - 0x10000) / 1024) ++ unit (0xDC00 + (c.val - 0x10000) % 1024)

/-- A low surrogate that is written next. -/
def lowAhead : PyStr → Option (ℕ × PyStr)
  | b :: u :: rest =>
    if b = pt '\\' ∧ u = pt 'u' then do
      let (m, rest) ← takeHex4 rest
      if isLow m then some (m, rest) else none
    else none
  | _ => none

def join (hi lo : ℕ) : ℕ := 0x10000 + (hi - 0xD800) * 1024 + (lo - 0xDC00)

/-- What follows a backslash. -/
def takeEscape : PyStr → Option (Point × PyStr)
  | [] => none
  | e :: rest =>
    if e = pt 'u' then do
      let (n, rest) ← takeHex4 rest
      match if isHigh n then lowAhead rest else none with
      | some (m, rest) => some (Fin.ofNat 1114112 (join n m), rest)
      | none => some (Fin.ofNat 1114112 n, rest)
    else
      ((short ++ [(pt '/', pt '/')]).find? fun x => x.2 = e).map fun x => (x.1, rest)

/-- A string behind its first quote; control characters end the reading. -/
def takeString : ℕ → PyStr → Option (PyStr × PyStr)
  | 0, _ | _, [] => none
  | n + 1, c :: rest =>
    if c = pt '"' then some ([], rest)
    else if c = pt '\\' then do
      let (c, rest) ← takeEscape rest
      let (s, rest) ← takeString n rest
      some (c :: s, rest)
    else if c.val < 32 then none
    else do
      let (s, rest) ← takeString n rest
      some (c :: s, rest)

/-! ### Values -/

inductive Value
  | null
  | bool (b : Bool)
  | num (token : PyStr)
  | str (s : PyStr)
  | arr (items : List Value)
  | obj (fields : List (PyStr × Value))

def isBlank (c : Point) : Bool := c = pt ' ' || c = pt '\t' || c = pt '\n' || c = pt '\r'

def skipBlanks (s : PyStr) : PyStr := s.dropWhile isBlank

def isDigit (c : Point) : Bool := 48 ≤ c.val && c.val < 58

/-- Digits behind a point, when there are any. -/
def takeFraction : PyStr → PyStr × PyStr
  | c :: rest =>
    if c = pt '.' ∧ (rest.takeWhile isDigit) ≠ [] then
      (c :: rest.takeWhile isDigit, rest.dropWhile isDigit)
    else ([], c :: rest)
  | [] => ([], [])

def takeExponent : PyStr → PyStr × PyStr
  | c :: rest =>
    let sign := rest.take 1 |>.filter fun s => s = pt '+' || s = pt '-'
    let digits := rest.drop sign.length
    if (c = pt 'e' ∨ c = pt 'E') ∧ digits.takeWhile isDigit ≠ [] then
      (c :: (sign ++ digits.takeWhile isDigit), digits.dropWhile isDigit)
    else ([], c :: rest)
  | [] => ([], [])

/-- A number; integers have at most 4300 digits. -/
def takeNumber (s : PyStr) : Option (PyStr × PyStr) :=
  let sign := s.take 1 |>.filter (· = pt '-')
  let s := s.drop sign.length
  let whole := if s.head? = some (pt '0') then [pt '0'] else s.takeWhile isDigit
  let (fraction, rest) := takeFraction (s.drop whole.length)
  let (exponent, rest) := takeExponent rest
  if whole = [] then none
  else if fraction = [] ∧ exponent = [] ∧ 4300 < whole.length then none
  else some (sign ++ (whole ++ (fraction ++ exponent)), rest)

def constants : List (PyStr × Value) :=
  [(pts "null", .null), (pts "true", .bool true), (pts "false", .bool false),
    (pts "NaN", .num (pts "NaN")), (pts "Infinity", .num (pts "Infinity")),
    (pts "-Infinity", .num (pts "-Infinity"))]

/-- A constant or a number. -/
def takeToken (s : PyStr) : Option (Value × PyStr) :=
  match constants.find? fun x => x.1.isPrefixOf s with
  | some x => some (x.2, s.drop x.1.length)
  | none => (takeNumber s).map fun (token, rest) => (.num token, rest)

/-- The dictionary of the members, in the order of their first places. -/
def dictOf (members : List (PyStr × Value)) : List (PyStr × Value) :=
  members.foldl (fun d m => Dict.set d m.1 m.2) []

mutual

def takeValue : ℕ → PyStr → Option (Value × PyStr)
  | 0, _ | _, [] => none
  | n + 1, c :: rest =>
    if c = pt '"' then (takeString rest.length rest).map fun (s, rest) => (.str s, rest)
    else if c = pt '\x7b' then
      if (skipBlanks rest).head? = some (pt '\x7d') then some (.obj [], (skipBlanks rest).tail)
      else (takeMembers n (skipBlanks rest)).map fun (members, rest) => (.obj (dictOf members), rest)
    else if c = pt '[' then
      if (skipBlanks rest).head? = some (pt ']') then some (.arr [], (skipBlanks rest).tail)
      else (takeItems n (skipBlanks rest)).map fun (items, rest) => (.arr items, rest)
    else takeToken (c :: rest)

def takeItems : ℕ → PyStr → Option (List Value × PyStr)
  | 0, _ => none
  | n + 1, s => do
    let (v, rest) ← takeValue n s
    match skipBlanks rest with
    | c :: rest =>
      if c = pt ']' then some ([v], rest)
      else if c = pt ',' then do
        let (vs, rest) ← takeItems n (skipBlanks rest)
        some (v :: vs, rest)
      else none
    | [] => none

def takeMembers : ℕ → PyStr → Option (List (PyStr × Value) × PyStr)
  | 0, _ | _, [] => none
  | n + 1, q :: s =>
    if q = pt '"' then do
      let (key, rest) ← takeString s.length s
      match skipBlanks rest with
      | colon :: rest =>
        if colon = pt ':' then do
          let (v, rest) ← takeValue n (skipBlanks rest)
          match skipBlanks rest with
          | c :: rest =>
            if c = pt '\x7d' then some ([(key, v)], rest)
            else if c = pt ',' then do
              let (ms, rest) ← takeMembers n (skipBlanks rest)
              some ((key, v) :: ms, rest)
            else none
          | [] => none
        else none
      | [] => none
    else none

end

/-- `json.loads`, up to its limit of nesting. -/
def loads (s : PyStr) : Option Value := do
  let (v, rest) ← takeValue (s.length + 1) (skipBlanks s)
  if skipBlanks rest = [] then some v else none

/-! ### Writing -/

def quote (write : Point → PyStr) (s : PyStr) : PyStr := pt '"' :: (s.flatMap write ++ [pt '"'])

mutual

/-- A document in the layout of `json.dumps`, its strings written by `write`. -/
def layout (write : Point → PyStr) : Value → PyStr
  | .null => pts "null"
  | .bool b => if b then pts "true" else pts "false"
  | .num token => token
  | .str s => quote write s
  | .arr items => pt '[' :: layoutItems write items
  | .obj fields => pt '\x7b' :: layoutFields write fields

def layoutItems (write : Point → PyStr) : List Value → PyStr
  | [] => [pt ']']
  | [v] => layout write v ++ [pt ']']
  | v :: w :: vs => layout write v ++ pt ',' :: pt ' ' :: layoutItems write (w :: vs)

def layoutFields (write : Point → PyStr) : List (PyStr × Value) → PyStr
  | [] => [pt '\x7d']
  | [(k, v)] => quote write k ++ pt ':' :: pt ' ' :: (layout write v ++ [pt '\x7d'])
  | (k, v) :: m :: ms =>
    quote write k ++ pt ':' :: pt ' ' :: (layout write v ++ pt ',' :: pt ' ' ::
      layoutFields write (m :: ms))

end

/-- `json.dumps`. -/
def dumps (v : Value) : PyStr := layout escapePoint v

end CompanionBackend.JsonTexts
