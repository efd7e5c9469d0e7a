import CompanionBackend.MemoryKeys
import CompanionBackend.VectorFilters

/-!
# Identities of memories

The id of a vector document names the type of a memory, a digest of its key and the user it belongs to.
The types contain the character that separates the three. What an administrator or a user may edit is
decided by reading the id back.
-/
namespace CompanionBackend.MemoryIdentities

open JsonTexts Separators MemoryItems VectorFilters

/-- What is used of the interpreter. -/
structure Library where
  /-- `hashlib.sha256(..).hexdigest()`. -/
  sha256 : List UInt8 → PyStr
  /-- `str.isdigit` of one point. -/
  isDigit : Point → Bool
  /-- `int` of a text, nothing if it raises. -/
  int : PyStr → Option ℤ

/-- `[0-9a-f]`. -/
def isHexDigit (c : Point) : Bool := (48 ≤ c.val && c.val ≤ 57) || (97 ≤ c.val && c.val ≤ 102)

structure Library.Lawful (lib : Library) : Prop where
  sha256_length : ∀ bytes, (lib.sha256 bytes).length = 64
  sha256_hex : ∀ bytes, (lib.sha256 bytes).all isHexDigit = true
  isDigit_ascii : ∀ c : Point, 48 ≤ c.val → c.val ≤ 57 → lib.isDigit c = true

/-! ### Ids -/

def utf8Point (c : Point) : List UInt8 :=
  let n := c.val
  if n < 0x80 then [.ofNat n]
  else if n < 0x800 then [.ofNat (0xC0 + n / 64), .ofNat (0x80 + n % 64)]
  else if n < 0x10000 then
    [.ofNat (0xE0 + n / 4096), .ofNat (0x80 + n / 64 % 64), .ofNat (0x80 + n % 64)]
  else
    [.ofNat (0xF0 + n / 262144), .ofNat (0x80 + n / 4096 % 64), .ofNat (0x80 + n / 64 % 64),
      .ofNat (0x80 + n % 64)]

/-- `str.encode("utf-8")`, which raises at a surrogate. -/
def encodeUtf8 (s : PyStr) : Option (List UInt8) :=
  if s.any (fun c => isHigh c || isLow c) then none else some (s.flatMap utf8Point)

/-- `hash_key`. -/
def hashKey (lib : Library) (key : PyStr) : Option PyStr :=
  (encodeUtf8 (strip key)).map fun bytes => (lib.sha256 bytes).take 12

/-- The value of a type. -/
def typeName (memoryType : MemoryType) : PyStr := memoryType.name.map pt

/-- `str(user_id)`. -/
def strInt (n : ℤ) : PyStr := (str n).map pt

def userSuffix (userId : Option ℤ) : PyStr :=
  match userId with
  | some id => strInt id
  | none => pts "0"

/-- `build_doc_id`, nothing if the key cannot be encoded. -/
def buildDocId (lib : Library) (memoryType : MemoryType) (key : PyStr) (userId : Option ℤ) :
    Option PyStr :=
  (hashKey lib key).map fun keyHash =>
    typeName memoryType ++ pt '_' :: (keyHash ++ pt '_' :: userSuffix userId)

def VALID_MEMORY_TYPES : List PyStr :=
  [.characterGlobal, .characterPrivate, .characterKnowledge, .user].map typeName

def ADMIN_CHARACTER_KNOWLEDGE_TYPES : List PyStr :=
  [.characterGlobal, .characterKnowledge].map typeName

def USER_MANAGEABLE_TYPES : List PyStr := [.user, .characterPrivate].map typeName

/-- `str.isdigit`. -/
def isDigits (lib : Library) (s : PyStr) : Bool := s ≠ [] && s.all lib.isDigit

/-- `parse_doc_id`. -/
def parseDocId (lib : Library) (docId : PyStr) : Option (PyStr × PyStr) :=
  if docId = [] then none
  else
    match rsplit (pt '_') 2 docId with
    | [memoryType, keyHash, suffix] =>
      if memoryType ∉ VALID_MEMORY_TYPES then none
      else if keyHash = [] ∨ keyHash.length ≠ 12 then none
      else if !(keyHash.length == 12 && keyHash.all isHexDigit) then none
      else if suffix ≠ pts "0" ∧ isDigits lib suffix = false then none
      else some (memoryType, suffix)
    | _ => none

def isAdminManageableDocId (lib : Library) (docId : PyStr) : Bool :=
  match parseDocId lib docId with
  | none => false
  | some (memoryType, suffix) => memoryType ∈ ADMIN_CHARACTER_KNOWLEDGE_TYPES && suffix = pts "0"

def isUserManageableDocId (lib : Library) (docId : PyStr) (userId : ℤ) (expectedType : PyStr) : Bool :=
  if expectedType ∉ USER_MANAGEABLE_TYPES then false
  else
    match parseDocId lib docId with
    | none => false
    | some (memoryType, suffix) => memoryType = expectedType && suffix = strInt userId

/-! ### Contents -/

def buildContent (key value : PyStr) : PyStr := key ++ FULLWIDTH_COLON :: value

/-- `parse_key_from_content`. -/
def parseKeyFromContent (content : PyStr) : PyStr :=
  if content = [] then []
  else
    match partition FULLWIDTH_COLON content with
    | none => strip content
    | some (key, _) => strip key

/-- `parse_value_from_content`, whose second argument is not read. -/
def parseValueFromContent (content : PyStr) (_key : PyStr) : PyStr :=
  if content = [] then []
  else
    match partition FULLWIDTH_COLON content with
    | none => strip content
    | some (_, value) => strip value

/-- The fields of a document as they are written. -/
structure Fields where
  content : PyStr
  stableKey : PyStr
  keyL1 : PyStr
  keyL2 : PyStr
  userId : Option ℤ
  lastWriteSource : Option PyStr
  deriving DecidableEq

/-- `_build_user_fields`, nothing if the key has no second segment. -/
def buildUserFields (key content : PyStr) (userId : ℤ) (lastWriteSource : PyStr) : Option Fields :=
  match key.splitOn (pt '-') with
  | first :: second :: _ =>
    some ⟨content, key, first, first ++ pt '-' :: second, some userId, some lastWriteSource⟩
  | _ => none

/-- What a document holds of the two fields that an entry reads: nothing for a stable key that is no
string. -/
structure Stored where
  stableKey : Option PyStr
  userId : Option ℤ

def Fields.stored (fields : Fields) : Stored := ⟨some fields.stableKey, fields.userId⟩

/-- `_resolve_stable_key`. -/
def resolveStableKey (fields : Stored) (content : PyStr) : PyStr :=
  match fields.stableKey with
  | some key => if strip key ≠ [] then strip key else parseKeyFromContent content
  | none => parseKeyFromContent content

structure Entry where
  docId : PyStr
  key : PyStr
  value : PyStr
  content : PyStr
  userId : Option ℤ
  deriving DecidableEq

/-- The user of an entry: that of its fields, else the one its id names. -/
def entryUser (lib : Library) (docId : PyStr) (fields : Stored) : Option (Option ℤ) :=
  match fields.userId, parseDocId lib docId with
  | some id, _ => some (some id)
  | none, some (_, suffix) => if isDigits lib suffix then (lib.int suffix).map some else some none
  | none, none => some none

/-- `_entry_from_doc`. -/
def entryFromDoc (lib : Library) (docId content : PyStr) (fields : Stored) : Option Entry :=
  let key := resolveStableKey fields content
  (entryUser lib docId fields).map fun userId =>
    ⟨docId, key, parseValueFromContent content key, content, userId⟩

/-! ### Lines of an output -/

/-- A line of an output, if it has a key and a value. -/
def parseKvLine (line : PyStr) : Option (PyStr × PyStr) :=
  let line := strip line
  if line = [] then none
  else
    match partition FULLWIDTH_COLON line with
    | none => none
    | some (key, value) =>
      if strip key = [] ∨ strip value = [] then none else some (strip key, strip value)

/-- `parse_kv_lines`. -/
def parseKvLines (text : PyStr) : List (PyStr × PyStr) :=
  (text.splitOn (pt '\n')).filterMap parseKvLine

/-- `_TYPES_WITH_USER_ID`. -/
def withUserId : MemoryType → Bool
  | .characterPrivate | .user => true
  | .characterGlobal | .characterKnowledge => false

/-- What a pair of the loop is written as; the key is the one of the line. -/
def step6Document (lib : Library) (memoryType : MemoryType) (userId : ℤ) (pair : PyStr × PyStr) :
    Option (PyStr × Fields) :=
  if validateKey pair.1 ≠ none then none
  else
    match buildDocId lib memoryType pair.1 (if withUserId memoryType then some userId else none),
      pair.1.splitOn (pt '-') with
    | some docId, first :: second :: _ =>
      some (docId, ⟨buildContent pair.1 pair.2, pair.1, first, first ++ pt '-' :: second,
        if withUserId memoryType then some userId else none,
        if withUserId memoryType then some (pts "text") else none⟩)
    | _, _ => none

/-! ### Reading an id back -/

section

variable {lib : Library}

theorem pt_injective : Function.Injective pt := fun a b h => by
  have hval : (pt a).val = (pt b).val := congrArg Fin.val h
  exact Char.ext (UInt32.toNat_inj.mp hval)

theorem strInt_ofNat (n : ℕ) : strInt n = (Nat.toDigits 10 n).map pt := rfl

theorem strInt_digits {n : ℕ} {c : Point} (hc : c ∈ strInt n) : 48 ≤ c.val ∧ c.val ≤ 57 := by
  obtain ⟨d, hd, rfl⟩ := List.mem_map.mp hc
  have hdigit := Nat.isDigit_of_mem_toDigits (by omega) (by omega) hd
  simp only [Char.isDigit, Bool.and_eq_true, decide_eq_true_eq] at hdigit
  exact ⟨UInt32.le_iff_toNat_le.mp hdigit.1, UInt32.le_iff_toNat_le.mp hdigit.2⟩

theorem strInt_ne_nil (n : ℕ) : strInt n ≠ [] := by
  rw [strInt_ofNat, Ne, List.map_eq_nil_iff]
  exact Nat.toDigits_ne_nil

theorem strInt_inj {m n : ℕ} : strInt m = strInt n ↔ m = n := by
  constructor
  · intro h
    have hdigits := List.map_injective_iff.mpr pt_injective h
    rw [← Nat.ofDigitChars_ten_toDigits (n := m), show Nat.toDigits 10 m = Nat.toDigits 10 n from hdigits,
      Nat.ofDigitChars_ten_toDigits]
  · rintro rfl
    rfl

theorem strInt_zero : strInt 0 = pts "0" := by decide

/-- Users are told apart by their suffixes, and from the suffix of no user. -/
theorem userSuffix_eq_strInt {userId : Option ℤ} (huser : ∀ id ∈ userId, 1 ≤ id) {id : ℤ}
    (hid : 1 ≤ id) : userSuffix userId = strInt id ↔ userId = some id := by
  lift id to ℕ using by omega
  cases userId with
  | none =>
    rw [userSuffix, ← strInt_zero]
    refine ⟨fun h => ?_, fun h => nomatch h⟩
    have hid0 : 0 = id := strInt_inj.mp h
    rw [← hid0] at hid
    exact absurd hid (by decide)
  | some own =>
    have hown := huser own rfl
    lift own to ℕ using by omega
    rw [userSuffix, Option.some.injEq, strInt_inj, Int.natCast_inj]

theorem userSuffix_eq_zero {userId : Option ℤ} (huser : ∀ id ∈ userId, 1 ≤ id) :
    userSuffix userId = pts "0" ↔ userId = none := by
  cases userId with
  | none => exact iff_of_true rfl rfl
  | some own =>
    have hown := huser own rfl
    lift own to ℕ using by omega
    rw [userSuffix, ← strInt_zero]
    refine ⟨fun h => ?_, fun h => nomatch h⟩
    have hown0 : own = 0 := strInt_inj.mp h
    rw [hown0] at hown
    exact absurd hown (by decide)

theorem userSuffix_digits {userId : Option ℤ} (huser : ∀ id ∈ userId, 1 ≤ id) :
    ∃ n : ℕ, userSuffix userId = strInt n := by
  cases userId with
  | none => exact ⟨0, strInt_zero.symm⟩
  | some own =>
    have hown := huser own rfl
    exact ⟨own.toNat, by rw [userSuffix, Int.toNat_of_nonneg (by omega)]⟩

theorem isDigits_strInt (hlib : lib.Lawful) (n : ℕ) : isDigits lib (strInt n) = true := by
  rw [isDigits, Bool.and_eq_true, decide_eq_true_eq, List.all_eq_true]
  exact ⟨strInt_ne_nil n, fun c hc => hlib.isDigit_ascii c (strInt_digits hc).1 (strInt_digits hc).2⟩

theorem typeName_valid (memoryType : MemoryType) : typeName memoryType ∈ VALID_MEMORY_TYPES := by
  cases memoryType <;> decide

/-- An id names its type and its user, although the types contain the separator. -/
theorem parseDocId_buildDocId (hlib : lib.Lawful) {memoryType : MemoryType} {key docId : PyStr}
    {userId : Option ℤ} (huser : ∀ id ∈ userId, 1 ≤ id)
    (h : buildDocId lib memoryType key userId = some docId) :
    parseDocId lib docId = some (typeName memoryType, userSuffix userId) := by
  obtain ⟨keyHash, hhash, rfl⟩ := Option.map_eq_some_iff.mp h
  obtain ⟨bytes, -, rfl⟩ := Option.map_eq_some_iff.mp hhash
  obtain ⟨n, hsuffix⟩ := userSuffix_digits huser
  have hlen : ((lib.sha256 bytes).take 12).length = 12 := by
    rw [List.length_take, hlib.sha256_length]
    rfl
  have hhex : ((lib.sha256 bytes).take 12).all isHexDigit = true :=
    List.all_eq_true.mpr fun c hc => List.all_eq_true.mp (hlib.sha256_hex bytes) c (List.mem_of_mem_take hc)
  have hhashSep : pt '_' ∉ (lib.sha256 bytes).take 12 := fun hmem =>
    absurd (List.all_eq_true.mp hhex _ hmem) (by decide)
  have hsuffixSep : pt '_' ∉ userSuffix userId := fun hmem => by
    rw [hsuffix] at hmem
    exact absurd (strInt_digits hmem).2 (by decide)
  have hsplit := rsplit_two (a := typeName memoryType) hhashSep hsuffixSep
  have hne : (lib.sha256 bytes).take 12 ≠ [] := fun hnil => by rw [hnil] at hlen; cases hlen
  have hdigits : isDigits lib (userSuffix userId) = true := hsuffix ▸ isDigits_strInt hlib n
  rw [parseDocId, if_neg (by simp), hsplit]
  dsimp only
  rw [if_neg (not_not.mpr (typeName_valid memoryType)), if_neg (by simp [hne, hlen]),
    if_neg (by rw [hlen, hhex]; decide), if_neg (by simp [hdigits])]

end

end CompanionBackend.MemoryIdentities
