import Mathlib.Data.List.Nodup
import CompanionBackend.FilterGrammar
import CompanionBackend.ProviderEvents

/-!
# Filters of the vector store

A search names the type of the memories, the user they belong to, and the second level of the keys that
a model proposed. Quotes of a key are escaped, backslashes are not: a key with a backslash is read as
another text, and can end its literal.
-/
namespace CompanionBackend.VectorFilters

open ProviderEvents FilterGrammar

/-- `VALID_MEMORY_TYPES`. -/
inductive MemoryType
  | characterGlobal | characterPrivate | characterKnowledge | user
  deriving DecidableEq, Repr

def MemoryType.name : MemoryType → Text
  | characterGlobal => "character_global".toList
  | characterPrivate => "character_private".toList
  | characterKnowledge => "character_knowledge".toList
  | user => "user".toList

/-- `str(n)`. -/
def str : ℤ → Text
  | .ofNat n => Nat.toDigits 10 n
  | .negSucc n => '-' :: Nat.toDigits 10 (n + 1)

/-- The first two segments of a key that has two. -/
def secondLevelKey (key : Text) : Option Text :=
  match key.splitOn '-' with
  | a :: b :: _ => some (a ++ '-' :: b)
  | _ => none

/-- `if l2 not in l2_keys: l2_keys.append(l2)`. -/
def addNew (found : List Text) (l2 : Text) : List Text := if l2 ∈ found then found else found ++ [l2]

/-- The loop over the candidate keys. -/
def secondLevelKeys (candidateKeys : List Text) : List Text :=
  candidateKeys.foldl (fun found key =>
    match secondLevelKey key with
    | some l2 => addNew found (escapeQuotes l2)
    | none => found) []

def quoted (l2 : Text) : Text := '"' :: l2 ++ ['"']

/-- `build_filter`. -/
def buildFilter (memoryType : MemoryType) (userId : Option ℤ) (candidateKeys : List Text) : Text :=
  let base := "type = \"".toList ++ memoryType.name ++ ['"']
  let base := match userId with
    | some id => base ++ (" AND user_id = ".toList ++ str id)
    | none => base
  match secondLevelKeys candidateKeys with
  | [] => base
  | l2Keys => base ++ (" AND key_l2 IN (".toList ++
      (", ".toList.intercalate (l2Keys.map quoted) ++ [')']))

/-! ### What a filter should say -/

/-- The different second level keys of the candidates, in the order of their first occurrence. -/
def distinctPrefixes (candidateKeys : List Text) : List Text :=
  (candidateKeys.filterMap secondLevelKey).foldl addNew []

/-- The type, the user if there is one, and the second level keys if there are any. -/
def intended (memoryType : MemoryType) (userId : Option ℤ) (candidateKeys : List Text) :
    List Conjunct :=
  .equals "type".toList (.text memoryType.name) ::
    ((userId.map fun id => .equals "user_id".toList (.number (str id))).toList ++
      match distinctPrefixes candidateKeys with
      | [] => []
      | l2Keys => [.isIn "key_l2".toList l2Keys])

theorem mem_addNew {found : List Text} {l2 x : Text} : x ∈ addNew found l2 ↔ x ∈ found ∨ x = l2 := by
  unfold addNew
  split_ifs with h
  · exact ⟨Or.inl, fun hx => hx.elim id (· ▸ h)⟩
  · rw [List.mem_append, List.mem_singleton]

theorem mem_foldl_addNew {xs found : List Text} {x : Text} :
    x ∈ xs.foldl addNew found ↔ x ∈ found ∨ x ∈ xs := by
  induction xs generalizing found with
  | nil => simp
  | cons l2 xs ih => rw [List.foldl_cons, ih, mem_addNew, List.mem_cons, or_assoc]

theorem mem_distinctPrefixes {keys : List Text} {l2 : Text} :
    l2 ∈ distinctPrefixes keys ↔ ∃ key ∈ keys, secondLevelKey key = some l2 := by
  rw [distinctPrefixes, mem_foldl_addNew, List.mem_filterMap]
  simp

/-- Escaping keeps different keys apart, so the loop finds the same keys as without it. -/
theorem secondLevelKeys_eq (keys : List Text) :
    secondLevelKeys keys = (distinctPrefixes keys).map escapeQuotes := by
  have hloop : ∀ found : List Text, keys.foldl (fun found key =>
      match secondLevelKey key with
      | some l2 => addNew found (escapeQuotes l2)
      | none => found) (found.map escapeQuotes) =
        ((keys.filterMap secondLevelKey).foldl addNew found).map escapeQuotes := by
    induction keys with
    | nil => exact fun _ => rfl
    | cons key keys ih =>
      intro found
      rw [List.foldl_cons]
      cases hkey : secondLevelKey key with
      | none => rw [List.filterMap_cons_none hkey, ← ih]
      | some l2 =>
        have hadd : addNew (found.map escapeQuotes) (escapeQuotes l2) =
            (addNew found l2).map escapeQuotes := by
          have hmem := List.mem_map_of_injective (a := l2) (l := found) escapeQuotes_injective
          unfold addNew
          by_cases h : l2 ∈ found
          · rw [if_pos h, if_pos (hmem.mpr h)]
          · rw [if_neg h, if_neg (mt hmem.mp h), List.map_append, List.map_singleton]
        rw [List.filterMap_cons_some hkey, List.foldl_cons, ← ih]
        dsimp only
        rw [hadd]
  exact hloop []

/-! ### Reading it -/

theorem str_word (n : ℤ) : (str n).all isWordChar = true ∧ str n ≠ [] := by
  have hdigits : ∀ m : ℕ, (Nat.toDigits 10 m).all isWordChar = true := fun m =>
    List.all_eq_true.mpr fun c hc => by
      have hdigit := Nat.isDigit_of_mem_toDigits (by omega) (by omega) hc
      simp only [isWordChar, isSign, Bool.and_eq_true, decide_eq_true_eq, Bool.not_eq_true',
        decide_eq_false_iff_not, List.mem_cons, List.not_mem_nil, or_false, not_or]
      refine ⟨⟨?_, ?_⟩, ?_, ?_, ?_, ?_⟩ <;> rintro rfl <;> exact absurd hdigit (by decide)
  cases n with
  | ofNat m => exact ⟨hdigits m, Nat.toDigits_ne_nil⟩
  | negSucc m =>
    refine ⟨?_, List.cons_ne_nil _ _⟩
    rw [str, List.all_cons, hdigits, Bool.and_true]
    decide

def baseText (memoryType : MemoryType) (userId : Option ℤ) : Text :=
  "type = \"".toList ++ (memoryType.name ++ '"' ::
    (userId.map fun id => " AND user_id = ".toList ++ str id).getD [])

def baseTokens (memoryType : MemoryType) (userId : Option ℤ) : List Token :=
  [.word "type".toList, .sign '=', .literal memoryType.name] ++
    (userId.map fun id => [.word "AND".toList, .word "user_id".toList, .sign '=', .word (str id)]).getD []

theorem name_escaped (memoryType : MemoryType) :
    escapeQuotes memoryType.name = memoryType.name ∧ '\\' ∉ memoryType.name := by
  cases memoryType <;> decide

/-- The words of the user, at the end or before a blank. -/
theorem tokensFrom_user (id : ℤ) {rest : Text} (hrest : rest = [] ∨ ∃ more, rest = ' ' :: more) :
    tokensFrom (.plain []) (" AND user_id = ".toList ++ (str id ++ rest)) =
      (tokensFrom (.plain []) rest).map ([.word "AND".toList, .word "user_id".toList, .sign '=',
        .word (str id)] ++ ·) := by
  have hblank : " AND user_id = ".toList ++ (str id ++ rest) =
      ' ' :: ("AND".toList ++ ' ' :: ("user_id".toList ++ ' ' :: '=' :: ' ' :: (str id ++ rest))) := rfl
  have hword : tokensFrom (.plain []) (str id ++ rest) =
      (tokensFrom (.plain []) rest).map (.word (str id) :: ·) := by
    obtain rfl | ⟨more, rfl⟩ := hrest
    · rw [List.append_nil, tokensFrom_word_end (str_word id).1 (str_word id).2]
      rfl
    · rw [tokensFrom_word_blank (str_word id).1 (str_word id).2, tokensFrom_blank]
  rw [hblank, tokensFrom_blank, tokensFrom_word_blank (by decide) (by decide),
    tokensFrom_word_blank (by decide) (by decide), tokensFrom_sign (by decide), tokensFrom_blank, hword]
  simp only [Option.map_map]
  rfl

/-- The type and the user are read as they were meant. -/
theorem tokensFrom_base (memoryType : MemoryType) (userId : Option ℤ) {rest : Text}
    (hrest : rest = [] ∨ ∃ more, rest = ' ' :: more) :
    tokensFrom (.plain []) (baseText memoryType userId ++ rest) =
      (tokensFrom (.plain []) rest).map (baseTokens memoryType userId ++ ·) := by
  obtain ⟨hname, hslash⟩ := name_escaped memoryType
  have hliteral := fun more : Text => @tokensFrom_escapeQuotes memoryType.name more [] hslash
  rw [hname] at hliteral
  have hstart : baseText memoryType userId ++ rest = "type".toList ++ ' ' :: '=' :: ' ' :: '"' ::
      (memoryType.name ++ '"' ::
        ((userId.map fun id => " AND user_id = ".toList ++ str id).getD [] ++ rest)) := by
    have hprefix : "type = \"".toList = "type".toList ++ [' ', '=', ' ', '"'] := by decide
    unfold baseText
    generalize "type = \"".toList = front at hprefix
    subst hprefix
    simp only [List.append_assoc, List.cons_append, List.nil_append]
  rw [hstart, tokensFrom_word_blank (by decide) (by decide), tokensFrom_sign (by decide),
    tokensFrom_blank, tokensFrom_quote, hliteral]
  cases userId with
  | none =>
    simp only [Option.map_map, Option.map_none, Option.getD_none, List.nil_append, baseTokens]
    rfl
  | some id =>
    simp only [Option.map_some, Option.getD_some, List.append_assoc]
    rw [tokensFrom_user id hrest]
    simp only [Option.map_map, baseTokens, Option.map_some, Option.getD_some]
    rfl

/-- The list of the keys with its closing bracket. -/
def listText (l2Keys : List Text) : Text :=
  ", ".toList.intercalate ((l2Keys.map escapeQuotes).map quoted) ++ [')']

theorem listText_single (l2 : Text) : listText [l2] = '"' :: (escapeQuotes l2 ++ '"' :: [')']) := by
  simp [listText, quoted, List.intercalate]

theorem listText_cons (l2 next : Text) (more : List Text) :
    listText (l2 :: next :: more) =
      '"' :: (escapeQuotes l2 ++ '"' :: ',' :: ' ' :: listText (next :: more)) := by
  simp [listText, quoted, List.intercalate]

theorem listText_quote (l2 : Text) (more : List Text) : ∃ rest, listText (l2 :: more) = '"' :: rest := by
  cases more with
  | nil => exact ⟨_, listText_single l2⟩
  | cons next more => exact ⟨_, listText_cons l2 next more⟩

/-- Keys without backslashes are read as themselves. -/
theorem readLiterals_listText {l2Keys : List Text} (hkeys : l2Keys ≠ [])
    (h : ∀ l2 ∈ l2Keys, '\\' ∉ l2) :
    ∃ ts, tokensFrom (.plain []) (listText l2Keys) = some ts ∧ readLiterals ts = some (l2Keys, []) := by
  induction l2Keys with
  | nil => exact absurd rfl hkeys
  | cons l2 more ih =>
    have hl2 := h l2 List.mem_cons_self
    cases more with
    | nil =>
      refine ⟨[.literal l2, .sign ')'], ?_, rfl⟩
      rw [listText_single, tokensFrom_quote, tokensFrom_escapeQuotes [] hl2,
        tokensFrom_sign (by decide)]
      rfl
    | cons next more =>
      obtain ⟨ts, hts, hread⟩ := ih (List.cons_ne_nil _ _) fun x hx => h x (List.mem_cons_of_mem _ hx)
      refine ⟨.literal l2 :: .sign ',' :: ts, ?_, ?_⟩
      · rw [listText_cons, tokensFrom_quote, tokensFrom_escapeQuotes [] hl2,
          tokensFrom_sign (by decide), tokensFrom_blank, hts]
        rfl
      · rw [readLiterals, hread]
        rfl

/-- The literals that are read begin with the first literal. -/
theorem readLiterals_literal {w : Text} {more ts' : List Token} {values : List Text}
    (h : readLiterals (.literal w :: more) = some (values, ts')) : values.head? = some w := by
  unfold readLiterals at h
  split at h
  · rename_i heq
    obtain ⟨hw, -⟩ := List.cons.inj heq
    cases hw
    cases h
    rfl
  · rename_i heq
    obtain ⟨hw, -⟩ := List.cons.inj heq
    cases hw
    obtain ⟨r, -, hr⟩ := Option.map_eq_some_iff.mp h
    cases hr
    rfl
  · cases h

/-- With a backslash in one of the keys other keys are read, if any. -/
theorem readLiterals_backslash {l2Keys : List Text} (h : ∃ l2 ∈ l2Keys, '\\' ∈ l2) {ts : List Token}
    (hts : tokensFrom (.plain []) (listText l2Keys) = some ts) (rest : List Token) :
    readLiterals ts ≠ some (l2Keys, rest) := by
  induction l2Keys generalizing ts with
  | nil => simp at h
  | cons l2 more ih =>
    intro hread
    by_cases hl2 : '\\' ∈ l2
    · have hliteral : ∃ w others, ts = .literal w :: others ∧ w ≠ l2 := by
        cases more with
        | nil =>
          rw [listText_single, tokensFrom_quote] at hts
          exact literal_ne_of_backslash hl2 (.inl rfl) hts
        | cons next more =>
          obtain ⟨behind, hbehind⟩ := listText_quote next more
          rw [listText_cons, tokensFrom_quote, hbehind] at hts
          exact literal_ne_of_backslash hl2 (.inr ⟨_, rfl⟩) hts
      obtain ⟨w, others, rfl, hw⟩ := hliteral
      exact hw (Option.some.inj (readLiterals_literal hread)).symm
    · cases more with
      | nil =>
        obtain ⟨x, hx, hslash⟩ := h
        exact hl2 (List.mem_singleton.mp hx ▸ hslash)
      | cons next more =>
        have hmore : ∃ x ∈ next :: more, '\\' ∈ x := by
          obtain ⟨x, hx, hslash⟩ := h
          obtain rfl | hx := List.mem_cons.mp hx
          · exact absurd hslash hl2
          · exact ⟨x, hx, hslash⟩
        rw [listText_cons, tokensFrom_quote, tokensFrom_escapeQuotes [] hl2,
          tokensFrom_sign (by decide), tokensFrom_blank] at hts
        obtain ⟨ts', hts', rfl⟩ := Option.map_eq_some_iff.mp hts
        obtain ⟨ts'', hts'', rfl⟩ := Option.map_eq_some_iff.mp hts'
        rw [List.nil_append, readLiterals] at hread
        obtain ⟨r, hr, hsame⟩ := Option.map_eq_some_iff.mp hread
        obtain ⟨hkeys, rfl⟩ := Prod.mk.inj hsame
        refine ih hmore hts'' (hr.trans ?_)
        rw [← (List.cons.inj hkeys).2]

def listTokens : List Token :=
  [.word "AND".toList, .word "key_l2".toList, .word "IN".toList, .sign '(']

theorem tokensFrom_list (text : Text) :
    tokensFrom (.plain []) (" AND key_l2 IN (".toList ++ text) =
      (tokensFrom (.plain []) text).map (listTokens ++ ·) := by
  have hblank : " AND key_l2 IN (".toList ++ text =
      ' ' :: ("AND".toList ++ ' ' :: ("key_l2".toList ++ ' ' :: ("IN".toList ++ ' ' :: '(' :: text))) :=
    rfl
  rw [hblank, tokensFrom_blank, tokensFrom_word_blank (by decide) (by decide),
    tokensFrom_word_blank (by decide) (by decide), tokensFrom_word_blank (by decide) (by decide),
    tokensFrom_sign (by decide)]
  simp only [Option.map_map]
  rfl

/-- The conjuncts of the type and the user. -/
def baseConjuncts (memoryType : MemoryType) (userId : Option ℤ) : List Conjunct :=
  .equals "type".toList (.text memoryType.name) ::
    (userId.map fun id => .equals "user_id".toList (.number (str id))).toList

theorem readConjuncts_base (memoryType : MemoryType) (userId : Option ℤ) (n : ℕ) :
    readConjuncts (n + 2) (baseTokens memoryType userId) = some (baseConjuncts memoryType userId) := by
  cases userId <;> rfl

/-- Behind the type and the user the conjunct of the keys is read for itself. -/
theorem readConjuncts_list (memoryType : MemoryType) (userId : Option ℤ) (n : ℕ) (ts : List Token) :
    ∃ m, readConjuncts (n + 3) (baseTokens memoryType userId ++ (listTokens ++ ts)) =
      (readConjuncts (m + 1) (listTokens.tail ++ ts)).map (baseConjuncts memoryType userId ++ ·) := by
  cases userId with
  | none => exact ⟨n + 1, rfl⟩
  | some id =>
    refine ⟨n, ?_⟩
    have hstep : readConjuncts (n + 3) (baseTokens memoryType (some id) ++ (listTokens ++ ts)) =
        ((readConjuncts (n + 1) (listTokens.tail ++ ts)).map
          (.equals "user_id".toList (.number (str id)) :: ·)).map
            (.equals "type".toList (.text memoryType.name) :: ·) := rfl
    rw [hstep, Option.map_map]
    rfl

/-- The conjunct of the keys lists the literals that are read. -/
theorem readConjuncts_keys {n : ℕ} {ts : List Token} {cs : List Conjunct}
    (h : readConjuncts (n + 1) (listTokens.tail ++ ts) = some cs) :
    ∃ values rest, readLiterals ts = some (values, rest) ∧
      cs.head? = some (.isIn "key_l2".toList values) := by
  have hconjunct : readConjunct (listTokens.tail ++ ts) =
      (readLiterals ts).map fun r => (.isIn "key_l2".toList r.1, r.2) := rfl
  rw [readConjuncts, hconjunct] at h
  cases hread : readLiterals ts with
  | none =>
    rw [hread] at h
    cases h
  | some r =>
    obtain ⟨values, rest⟩ := r
    refine ⟨values, rest, rfl, ?_⟩
    rw [hread, Option.map_some] at h
    split at h
    · rename_i heq
      cases heq
      cases h
      rfl
    · rename_i heq
      cases heq
      obtain ⟨more, -, rfl⟩ := Option.map_eq_some_iff.mp h
      rfl
    · cases h

theorem readConjuncts_only_keys (n : ℕ) {ts : List Token} {values : List Text}
    (h : readLiterals ts = some (values, [])) :
    readConjuncts (n + 1) (listTokens.tail ++ ts) = some [.isIn "key_l2".toList values] := by
  have hconjunct : readConjunct (listTokens.tail ++ ts) =
      (readLiterals ts).map fun r => (.isIn "key_l2".toList r.1, r.2) := rfl
  rw [readConjuncts, hconjunct, h]
  rfl

theorem buildFilter_eq (memoryType : MemoryType) (userId : Option ℤ) (keys : List Text) :
    buildFilter memoryType userId keys = baseText memoryType userId ++
      if distinctPrefixes keys = [] then []
      else " AND key_l2 IN (".toList ++ listText (distinctPrefixes keys) := by
  have hbase : ∀ rest : Text, (match userId with
      | some id => "type = \"".toList ++ memoryType.name ++ ['"'] ++ (" AND user_id = ".toList ++ str id)
      | none => "type = \"".toList ++ memoryType.name ++ ['"']) ++ rest =
        baseText memoryType userId ++ rest := by
    intro rest
    unfold baseText
    cases userId <;> simp only [List.append_assoc, List.cons_append, List.nil_append, Option.map_none,
      Option.map_some, Option.getD_none, Option.getD_some]
  unfold buildFilter
  rw [secondLevelKeys_eq]
  cases hkeys : distinctPrefixes keys with
  | nil =>
    rw [if_pos rfl]
    exact (List.append_nil _).symm.trans (hbase [])
  | cons l2 more =>
    rw [if_neg (List.cons_ne_nil _ _)]
    exact hbase _

/-- A filter says what it should if and only if no candidate has a backslash in its first two
segments. -/
theorem filter_intended_iff (memoryType : MemoryType) (userId : Option ℤ) (keys : List Text) :
    readFilter (buildFilter memoryType userId keys) = some (intended memoryType userId keys) ↔
      ∀ key ∈ keys, ∀ l2, secondLevelKey key = some l2 → '\\' ∉ l2 := by
  have hcondition : (∀ key ∈ keys, ∀ l2, secondLevelKey key = some l2 → '\\' ∉ l2) ↔
      ∀ l2 ∈ distinctPrefixes keys, '\\' ∉ l2 := by
    simp only [mem_distinctPrefixes]
    refine ⟨fun h l2 hprefix => ?_, fun h key hkey l2 hl2 => h l2 ⟨key, hkey, hl2⟩⟩
    obtain ⟨key, hkey, hl2⟩ := hprefix
    exact h key hkey l2 hl2
  have hintended : intended memoryType userId keys = baseConjuncts memoryType userId ++
      if distinctPrefixes keys = [] then [] else [.isIn "key_l2".toList (distinctPrefixes keys)] := by
    unfold intended
    cases hkeys : distinctPrefixes keys with
    | nil => rfl
    | cons l2 more => rw [if_neg (List.cons_ne_nil _ _)]; rfl
  rw [hcondition, buildFilter_eq, hintended, readFilter, tokens]
  by_cases hkeys : distinctPrefixes keys = []
  · rw [if_pos hkeys, if_pos hkeys, tokensFrom_base memoryType userId (.inl rfl), hkeys]
    refine iff_of_true ?_ (by simp)
    have hread := readConjuncts_base memoryType userId ((baseTokens memoryType userId).length - 2)
    rw [show (baseTokens memoryType userId).length - 2 + 2 = (baseTokens memoryType userId).length by
      cases userId <;> rfl] at hread
    simpa [tokensFrom, endWord] using hread
  · rw [if_neg hkeys, if_neg hkeys]
    have hbase := @tokensFrom_base memoryType userId
      (" AND key_l2 IN (".toList ++ listText (distinctPrefixes keys)) (.inr ⟨_, rfl⟩)
    rw [hbase, tokensFrom_list]
    cases hts : tokensFrom (.plain []) (listText (distinctPrefixes keys)) with
    | none =>
      refine iff_of_false (by simp) fun hclean => ?_
      obtain ⟨ts, hread, -⟩ := readLiterals_listText hkeys hclean
      cases hts.symm.trans hread
    | some ts =>
      rw [Option.map_some, Option.map_some, Option.bind_eq_bind, Option.bind_some]
      obtain ⟨n, hn⟩ : ∃ n, (baseTokens memoryType userId ++ (listTokens ++ ts)).length = n + 3 :=
        ⟨(baseTokens memoryType userId ++ (listTokens ++ ts)).length - 3, by
          simp only [List.length_append, listTokens, List.length_cons]
          omega⟩
      obtain ⟨m, hm⟩ := readConjuncts_list memoryType userId n ts
      rw [hn, hm]
      constructor
      · intro hread
        obtain ⟨cs, hcs, hsame⟩ := Option.map_eq_some_iff.mp hread
        obtain rfl := List.append_cancel_left hsame
        obtain ⟨values, rest, hvalues, hhead⟩ := readConjuncts_keys hcs
        obtain ⟨-, rfl⟩ := Conjunct.isIn.inj (Option.some.inj hhead)
        intro l2 hl2 hslash
        exact readLiterals_backslash ⟨l2, hl2, hslash⟩ hts rest hvalues
      · intro hclean
        obtain ⟨ts', hts', hvalues⟩ := readLiterals_listText hkeys hclean
        obtain rfl : ts = ts' := Option.some.inj (hts.symm.trans hts')
        rw [readConjuncts_only_keys m hvalues]
        rfl

/-- A key whose second segment ends with a backslash. -/
def sampleKey : Text := "a-b\\".toList

/-- A key that goes on behind such a literal. -/
def sampleIntruder : Text := ") OR user_id = 2 OR key_l2 IN (\"x-y".toList

/-- The literal of the first key does not end with it, and the second adds an operator. -/
theorem filter_broken :
    readFilter (buildFilter .user (some 1) [sampleKey]) = none ∧
      (tokens (buildFilter .user (some 1) [sampleKey, sampleIntruder])).any
        (fun ts => decide (.word "OR".toList ∈ ts)) = true := by
  decide

end CompanionBackend.VectorFilters
