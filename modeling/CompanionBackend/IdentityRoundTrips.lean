import CompanionBackend.MemoryIdentities

/-!
# Identities that are read back

An id, a content and the fields of a document give back what they were built from, for every key and
value that is accepted, and the second level of the key is written as a search will ask for it.
-/
namespace CompanionBackend.MemoryIdentities

open JsonTexts Separators MemoryItems VectorFilters FilterGrammar ProviderEvents

variable {lib : Library} {memoryType : MemoryType} {key value : PyStr} {userId : Option ℤ}

/-! ### Ids -/

theorem encodeUtf8_strip (hkey : validateKey key = none) : ∃ bytes, encodeUtf8 (strip key) = some bytes := by
  obtain ⟨a, m, b, n, c, ha, hb, hc, hm, hn, hjoined, -⟩ := validateKey_eq_none.mp hkey
  have hpart : ∀ {part rest : PyStr}, Proper part → Unread rest → ∀ p ∈ part ++ rest,
      (isHigh p || isLow p) = false := by
    intro part rest hpart hrest p hp
    obtain hp | hp := List.mem_append.mp hp
    · obtain ⟨-, -, -, -, hhigh, hlow⟩ := isKeyPoint_spec (hpart.points p hp)
      rw [hhigh, hlow]
      rfl
    · obtain rfl | rfl := hrest
      · cases hp
      · rw [List.mem_singleton.mp hp]
        decide
  refine ⟨_, if_neg (Bool.not_eq_true _ ▸ List.any_eq_false.mpr fun p hp => ?_)⟩
  rw [Bool.not_eq_true]
  rw [hjoined] at hp
  obtain hp | hp := List.mem_append.mp hp
  · exact hpart ha hm p hp
  obtain rfl | hp := List.mem_cons.mp hp
  · decide
  obtain hp | hp := List.mem_append.mp hp
  · exact hpart hb hn p hp
  obtain rfl | hp := List.mem_cons.mp hp
  · decide
  · exact hpart hc (.inl rfl) p (List.mem_append_left _ hp)

theorem buildDocId_of_valid (lib : Library) (memoryType : MemoryType) (userId : Option ℤ)
    (hkey : validateKey key = none) : ∃ docId, buildDocId lib memoryType key userId = some docId := by
  obtain ⟨bytes, hbytes⟩ := encodeUtf8_strip hkey
  exact ⟨_, by rw [buildDocId, hashKey, hbytes, Option.map_some, Option.map_some]⟩

/-- The id of an accepted key, which tells its user and its type. -/
def IdKept (lib : Library) (memoryType : MemoryType) (userId : Option ℤ) (docId : PyStr) : Prop :=
  parseDocId lib docId = some (typeName memoryType, userSuffix userId) ∧
    (∀ id : ℤ, 1 ≤ id → ∀ expectedType : PyStr,
      isUserManageableDocId lib docId id expectedType = true ↔
        userId = some id ∧ expectedType = typeName memoryType ∧
          typeName memoryType ∈ USER_MANAGEABLE_TYPES) ∧
    (isAdminManageableDocId lib docId = true ↔
      userId = none ∧ typeName memoryType ∈ ADMIN_CHARACTER_KNOWLEDGE_TYPES)

theorem idKept_of_build (hlib : lib.Lawful) (huser : ∀ id ∈ userId, 1 ≤ id) {docId : PyStr}
    (h : buildDocId lib memoryType key userId = some docId) : IdKept lib memoryType userId docId := by
  have hparse := parseDocId_buildDocId hlib huser h
  refine ⟨hparse, fun id hid expectedType => ?_, ?_⟩
  · have hsuffix := userSuffix_eq_strInt huser hid
    unfold isUserManageableDocId
    rw [hparse]
    split_ifs with hexpected
    · simp only [Bool.and_eq_true, decide_eq_true_eq, hsuffix]
      constructor
      · rintro ⟨rfl, rfl⟩
        exact ⟨rfl, rfl, hexpected⟩
      · rintro ⟨rfl, rfl, -⟩
        exact ⟨rfl, rfl⟩
    · refine iff_of_false (by simp) ?_
      rintro ⟨-, rfl, hmem⟩
      exact hexpected hmem
  · unfold isAdminManageableDocId
    rw [hparse]
    simp only [Bool.and_eq_true, decide_eq_true_eq, userSuffix_eq_zero huser]
    exact and_comm

/-! ### Contents -/

theorem colon_not_mem (hkey : validateKey key = none) : FULLWIDTH_COLON ∉ key := by
  obtain ⟨a, m, b, n, c, ha, hb, hc, hm, hn, hjoined, -⟩ := validateKey_eq_none.mp hkey
  have hstripped : FULLWIDTH_COLON ∉ strip key := hjoined ▸ colon_not_mem_joined ha hm hb hn hc
  exact fun hmem => hstripped (mem_strip hmem (by decide))

theorem partition_buildContent (hkey : validateKey key = none) :
    partition FULLWIDTH_COLON (buildContent key value) = some (key, value) :=
  partition_append (colon_not_mem hkey)

theorem parseKeyFromContent_buildContent (hkey : validateKey key = none) :
    parseKeyFromContent (buildContent key value) = strip key := by
  rw [parseKeyFromContent, if_neg (by simp [buildContent]), partition_buildContent hkey]

theorem parseValueFromContent_buildContent (hkey : validateKey key = none) (k : PyStr) :
    parseValueFromContent (buildContent key value) k = strip value := by
  rw [parseValueFromContent, if_neg (by simp [buildContent]), partition_buildContent hkey]

/-! ### Second levels -/

/-- The first two segments of a key that has two. -/
def twoSegments (key : PyStr) : Option PyStr :=
  match key.splitOn (pt '-') with
  | first :: second :: _ => some (first ++ pt '-' :: second)
  | _ => none

/-- The filter for these candidates asks for a second level. -/
def Searched (candidateKeys : List Text) (l2 : PyStr) : Prop :=
  ∃ found ∈ secondLevelKeys candidateKeys, found.map pt = l2

theorem twoSegments_map (t : Text) : twoSegments (t.map pt) = (secondLevelKey t).map (List.map pt) := by
  rw [twoSegments, secondLevelKey, splitOn_map pt_injective]
  match t.splitOn '-' with
  | [] => rfl
  | [_] => rfl
  | first :: second :: _ => simp

/-- Without quotes in it, a second level is searched exactly for the keys that have it. -/
theorem searched_iff {candidateKeys : List Text} {l2 : PyStr} (hquote : pt '"' ∉ l2) :
    Searched candidateKeys l2 ↔
      ∃ candidate ∈ candidateKeys, twoSegments (candidate.map pt) = some l2 := by
  have hmap : ∀ t : Text, t.map pt = l2 → '"' ∉ t := fun t ht hmem =>
    hquote (ht ▸ List.mem_map_of_mem hmem)
  simp only [Searched, secondLevelKeys_eq, List.mem_map, twoSegments_map, Option.map_eq_some_iff]
  constructor
  · rintro ⟨_, ⟨t, ht, rfl⟩, hl2⟩
    obtain ⟨candidate, hmem, hprefix⟩ := mem_distinctPrefixes.mp ht
    have hplain : '"' ∉ t := quote_mem_escapeQuotes.not.mp (hmap _ hl2)
    rw [escapeQuotes_of_not_mem hplain] at hl2
    exact ⟨candidate, hmem, t, hprefix, hl2⟩
  · rintro ⟨candidate, hmem, t, hprefix, hl2⟩
    exact ⟨t, ⟨t, mem_distinctPrefixes.mpr ⟨candidate, hmem, hprefix⟩,
      escapeQuotes_of_not_mem (hmap t hl2)⟩, hl2⟩

theorem quote_not_mem_twoSegments {a m b n : PyStr} (ha : Proper a) (hm : Unread m) (hb : Proper b)
    (hn : Unread n) : pt '"' ∉ (a ++ m) ++ pt '-' :: (b ++ n) := by
  rw [List.mem_append, List.mem_cons]
  rintro (h | h | h)
  · exact ha.not_mem hm (by decide) (by decide) h
  · exact absurd h (by decide)
  · exact hb.not_mem hn (by decide) (by decide) h

/-- The second level that was written is that of the key, and is searched for the keys that have it. -/
def Prefixed (key : PyStr) (fields : Fields) : Prop :=
  twoSegments key = some fields.keyL2 ∧ ∀ candidateKeys : List Text,
    Searched candidateKeys fields.keyL2 ↔
      ∃ candidate ∈ candidateKeys, twoSegments (candidate.map pt) = some fields.keyL2

theorem segments_strip (hkey : validateKey key = none) : ∃ first second third,
    (strip key).splitOn (pt '-') = [first, second, third] ∧ pt '"' ∉ first ++ pt '-' :: second := by
  obtain ⟨a, m, b, n, c, ha, hb, hc, hm, hn, hjoined, -⟩ := validateKey_eq_none.mp hkey
  exact ⟨a ++ m, b ++ n, c, hjoined ▸ segments_joined ha hm hb hn hc,
    quote_not_mem_twoSegments ha hm hb hn⟩

theorem prefixed_of_segments {first second third : PyStr} {fields : Fields}
    (hsegments : key.splitOn (pt '-') = [first, second, third]) (hquote : pt '"' ∉ first ++ pt '-' :: second)
    (hl2 : fields.keyL2 = first ++ pt '-' :: second) : Prefixed key fields := by
  refine ⟨?_, fun _ => searched_iff (hl2 ▸ hquote)⟩
  rw [twoSegments, hsegments, hl2]

theorem strip_ne_nil (hkey : validateKey key = none) : strip key ≠ [] := by
  intro hnil
  rw [validateKey, hnil, if_pos rfl] at hkey
  cases hkey

/-! ### Documents -/

/-- What is written for a user is read back, under any id. -/
def WrittenBack (lib : Library) (key value : PyStr) : Prop :=
  ∀ (id : ℤ) (lastWriteSource : PyStr), ∃ fields,
    buildUserFields (strip key) (buildContent (strip key) (strip value)) id lastWriteSource = some fields ∧
      Prefixed (strip key) fields ∧
      ∀ docId, entryFromDoc lib docId fields.content fields.stored =
        some ⟨docId, strip key, strip value, fields.content, some id⟩

theorem writtenBack_of_valid (hkey : validateKey key = none) : WrittenBack lib key value := by
  intro id lastWriteSource
  obtain ⟨first, second, third, hsegments, hquote⟩ := segments_strip hkey
  have hstripped : validateKey (strip key) = none := (validateKey_strip key).trans hkey
  refine ⟨⟨buildContent (strip key) (strip value), strip key, first, first ++ pt '-' :: second, some id,
    some lastWriteSource⟩, ?_, prefixed_of_segments hsegments hquote rfl, fun docId => ?_⟩
  · rw [buildUserFields, hsegments]
  · simp only [entryFromDoc, entryUser, Fields.stored, resolveStableKey, Option.map_some, strip_strip,
      parseValueFromContent_buildContent hstripped]
    rw [if_pos (strip_ne_nil hkey)]

/-! ### Lines -/

theorem strip_of_mem_parseKvLines {text : PyStr} {pair : PyStr × PyStr} (h : pair ∈ parseKvLines text) :
    strip pair.1 = pair.1 := by
  obtain ⟨line, -, hline⟩ := List.mem_filterMap.mp h
  simp only [parseKvLine] at hline
  split_ifs at hline
  split at hline
  · cases hline
  · split_ifs at hline
    obtain rfl := Option.some.inj hline
    exact strip_strip _

/-- A line whose key is accepted is written with the second level of this key. -/
theorem step6Document_of_mem {text : PyStr} {pair : PyStr × PyStr} (h : pair ∈ parseKvLines text)
    (hkey : validateKey pair.1 = none) (memoryType : MemoryType) (id : ℤ) :
    ∃ docId fields, step6Document lib memoryType id pair = some (docId, fields) ∧
      buildDocId lib memoryType pair.1 (if withUserId memoryType then some id else none) = some docId ∧
      Prefixed pair.1 fields := by
  obtain ⟨first, second, third, hsegments, hquote⟩ := segments_strip hkey
  rw [strip_of_mem_parseKvLines h] at hsegments
  obtain ⟨docId, hdoc⟩ := buildDocId_of_valid lib memoryType
    (if withUserId memoryType then some id else none) hkey
  let fields : Fields := ⟨buildContent pair.1 pair.2, pair.1, first, first ++ pt '-' :: second,
    if withUserId memoryType then some id else none,
    if withUserId memoryType then some (pts "text") else none⟩
  have hprefixed : Prefixed pair.1 fields := prefixed_of_segments hsegments hquote rfl
  refine ⟨docId, fields, ?_, hdoc, hprefixed⟩
  rw [step6Document, if_neg (not_not.mpr hkey), hdoc, hsegments]

/-! ### Everything together -/

/-- A memory of a type and a user with this key and value is found again. -/
structure Kept (lib : Library) (memoryType : MemoryType) (key value : PyStr) (userId : Option ℤ) :
    Prop where
  docId : ∃ docId, buildDocId lib memoryType key userId = some docId ∧ IdKept lib memoryType userId docId
  parseKey : parseKeyFromContent (buildContent key value) = strip key
  parseValue : ∀ k, parseValueFromContent (buildContent key value) k = strip value
  written : WrittenBack lib key value

/-- Every accepted key and value is read back and written under its second level, and exactly the keys
that are as they should be are accepted, apart from those with a newline before a hyphen. -/
theorem memory_identities (lib : Library) (hlib : lib.Lawful) :
    (∀ memoryType key value userId, validateKey key = none → validateValue value = none →
      (∀ id ∈ userId, 1 ≤ id) → Kept lib memoryType key value userId) ∧
    (∀ memoryType id text, ∀ pair ∈ parseKvLines text, validateKey pair.1 = none →
      ∃ docId fields, step6Document lib memoryType id pair = some (docId, fields) ∧
        buildDocId lib memoryType pair.1 (if withUserId memoryType then some id else none) = some docId ∧
        Prefixed pair.1 fields) ∧
    ∀ key, (validateKey key = none ↔ WellFormed (strip key)) ↔ ¬ NewlineBeforeHyphen (strip key) := by
  refine ⟨fun memoryType key value userId hkey _ huser => ?_,
    fun memoryType id text pair hpair hkey => step6Document_of_mem hpair hkey memoryType id,
    fun key => validateKey_exact_iff⟩
  obtain ⟨docId, hdoc⟩ := buildDocId_of_valid lib memoryType userId hkey
  exact ⟨⟨docId, hdoc, idKept_of_build hlib huser hdoc⟩, parseKeyFromContent_buildContent hkey,
    parseValueFromContent_buildContent hkey, writtenBack_of_valid hkey⟩

/-- The digest of `外貌-体态-细节`. -/
def sampleDigest : PyStr := pts "fee4f4292c0ff5db04bd0bc551acdb81407f1d0d20103f83917e9f93a932caf2"

/-- ASCII digits, and the digest of one key. -/
def sampleLibrary : Library where
  sha256 _ := sampleDigest
  isDigit c := 48 ≤ c.val && c.val ≤ 57
  int s := if s = pts "42" then some 42 else none

theorem sampleLibrary_lawful : sampleLibrary.Lawful where
  sha256_length _ := (by decide : sampleDigest.length = 64)
  sha256_hex _ := (by decide : sampleDigest.all isHexDigit = true)
  isDigit_ascii c hlow hhigh := by simp [sampleLibrary, hlow, hhigh]

theorem posture_kept : Kept sampleLibrary .user (pts "外貌-体态-细节") (pts "高挑") (some 42) :=
  (memory_identities sampleLibrary sampleLibrary_lawful).1 _ _ _ _ (by decide)
    (by decide) (by decide)

/-- A newline at the end of the first segment is accepted. -/
theorem newline_accepted : validateKey (pts "外貌\n-体态-细节") = none ∧
    ¬ WellFormed (strip (pts "外貌\n-体态-细节")) := by
  have hstrip : strip (pts "外貌\n-体态-细节") =
      joined (pts "外貌" ++ [pt '\n']) (pts "体态" ++ []) (pts "细节") := by decide
  refine ⟨by decide, not_wellFormed_of_newline ⟨pts "外貌", [pt '\n'], pts "体态", [], pts "细节",
    ?_, ?_, ?_, .inr rfl, .inl rfl, .inl (List.cons_ne_nil _ _), hstrip, ?_⟩⟩
  · exact ⟨by decide, by decide⟩
  · exact ⟨by decide, by decide⟩
  · exact ⟨by decide, by decide⟩
  · decide

end CompanionBackend.MemoryIdentities
