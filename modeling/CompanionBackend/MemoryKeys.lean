import CompanionBackend.Separators
import CompanionBackend.SnapshotReload

/-!
# Keys of memories

A key names a memory by three segments. The pattern of a segment ends with `$`, which also matches
before a newline at the end, so the first two segments of a key that is accepted may end with a newline:
apart from that, exactly the keys of three proper segments are accepted.
-/
namespace CompanionBackend.MemoryItems

open JsonTexts Separators

/-- A Chinese character, an ASCII digit or letter, or an underscore. -/
def isKeyPoint (c : Point) : Bool :=
  isCjk c || (48 ≤ c.val && c.val ≤ 57) || (65 ≤ c.val && c.val ≤ 90) ||
    (97 ≤ c.val && c.val ≤ 122) || c == pt '_'

/-- A segment as it should be. -/
def Proper (segment : PyStr) : Prop := segment ≠ [] ∧ segment.all isKeyPoint = true

/-- Three segments joined by single hyphens. -/
def joined (a b c : PyStr) : PyStr := a ++ pt '-' :: (b ++ pt '-' :: c)

/-- A key as it should be. -/
def WellFormed (key : PyStr) : Prop :=
  ∃ a b c, Proper a ∧ Proper b ∧ Proper c ∧ key = joined a b c ∧ countCjk key ≤ MAX_KEY_CJK

/-- Nothing or a newline, which the end of the pattern leaves unread. -/
def Unread (m : PyStr) : Prop := m = [] ∨ m = [pt '\n']

/-- A key as it should be, but for a newline at the end of its first or its second segment. -/
def NewlineBeforeHyphen (key : PyStr) : Prop :=
  ∃ a m b n c, Proper a ∧ Proper b ∧ Proper c ∧ Unread m ∧ Unread n ∧ (m ≠ [] ∨ n ≠ []) ∧
    key = joined (a ++ m) (b ++ n) c ∧ countCjk key ≤ MAX_KEY_CJK

/-! ### Points -/

/-- The points of a key, a hyphen and a newline among them, are neither separators of a content nor
surrogates. -/
theorem isKeyPoint_spec {c : Point} (h : isKeyPoint c = true) :
    c ≠ pt '-' ∧ isSpace c = false ∧ c ≠ FULLWIDTH_COLON ∧ c ≠ pt '"' ∧
      isHigh c = false ∧ isLow c = false := by
  have hdash : (pt '-').val = 45 := rfl
  have hunder : (pt '_').val = 95 := rfl
  have hquote : (pt '"').val = 34 := rfl
  have hcolon : FULLWIDTH_COLON.val = 0xFF1A := rfl
  simp only [isKeyPoint, isCjk, Bool.or_eq_true, Bool.and_eq_true, decide_eq_true_eq, beq_iff_eq,
    Fin.ext_iff, hunder] at h
  simp only [ne_eq, Fin.ext_iff, hdash, hquote, hcolon, isSpace, isHigh, isLow, Bool.or_eq_false_iff,
    Bool.and_eq_false_iff, decide_eq_false_iff_not, beq_eq_false_iff_ne]
  omega

theorem segmentPoint_iff {c : Point} : segmentPoint c = true ↔ isKeyPoint c = true ∨ c = pt '-' := by
  simp only [segmentPoint, isKeyPoint, Bool.or_eq_true, beq_iff_eq]
  tauto

theorem Proper.points {a : PyStr} (h : Proper a) : ∀ c ∈ a, isKeyPoint c = true :=
  List.all_eq_true.mp h.2

theorem Proper.dash {a : PyStr} (h : Proper a) : pt '-' ∉ a := fun hmem =>
  (isKeyPoint_spec (h.points _ hmem)).1 rfl

/-! ### Segments -/

theorem strip_eq_nil {s : PyStr} : strip s = [] ↔ ∀ c ∈ s, isSpace c = true := by
  rw [strip, List.rdropWhile_eq_nil_iff]
  constructor
  · intro h c hc
    by_contra hspace
    have hne : s.dropWhile isSpace ≠ [] := fun hnil => hspace (List.dropWhile_eq_nil_iff.mp hnil c hc)
    have hhead := List.head_dropWhile_not isSpace hne
    rw [h _ (List.head_mem hne)] at hhead
    cases hhead
  · exact fun h c hc => h c ((List.dropWhile_suffix _).subset hc)

theorem Proper.strip_append {a : PyStr} (h : Proper a) (m : PyStr) : strip (a ++ m) ≠ [] := by
  intro hnil
  obtain ⟨c, hc⟩ := List.exists_mem_of_ne_nil a h.1
  have hspace := strip_eq_nil.mp hnil c (List.mem_append_left _ hc)
  rw [(isKeyPoint_spec (h.points c hc)).2.1] at hspace
  cases hspace

theorem Proper.getLast?_ne {a : PyStr} (h : Proper a) {c : Point} (hc : isSpace c = true) :
    a.getLast? ≠ some c := by
  intro hlast
  rw [(isKeyPoint_spec (h.points c (List.mem_of_getLast? hlast))).2.1] at hc
  cases hc

theorem matchesSegment_iff {s : PyStr} (hdash : pt '-' ∉ s) :
    matchesSegment s = true ↔ ∃ a m, Proper a ∧ Unread m ∧ s = a ++ m := by
  have hpoints : ∀ body : PyStr, body ⊆ s →
      (body.all segmentPoint = true ↔ body.all isKeyPoint = true) := by
    intro body hsub
    simp only [List.all_eq_true, segmentPoint_iff]
    exact forall₂_congr fun c hc => or_iff_left fun h => hdash (h ▸ hsub hc)
  simp only [matchesSegment, Bool.and_eq_true, decide_eq_true_eq]
  constructor
  · split_ifs with hlast
    · rintro ⟨hne, hall⟩
      have hs : s.dropLast ++ [pt '\n'] = s := List.dropLast_append_getLast? _ hlast
      exact ⟨s.dropLast, [pt '\n'], ⟨hne, (hpoints _ (List.dropLast_subset s)).mp hall⟩, .inr rfl,
        hs.symm⟩
    · rintro ⟨hne, hall⟩
      exact ⟨s, [], ⟨hne, (hpoints s (List.Subset.refl s)).mp hall⟩, .inl rfl,
        (List.append_nil s).symm⟩
  · rintro ⟨a, m, ha, rfl | rfl, rfl⟩
    · rw [List.append_nil] at hpoints ⊢
      rw [if_neg (ha.getLast?_ne (by decide))]
      exact ⟨ha.1, (hpoints a (List.Subset.refl a)).mpr ha.2⟩
    · rw [if_pos (List.getLast?_concat), List.dropLast_concat]
      exact ⟨ha.1, (hpoints a (List.subset_append_left a _)).mpr ha.2⟩

theorem mem_dropWhile_isSpace {s : PyStr} {c : Point} (hc : c ∈ s) (hspace : isSpace c = false) :
    c ∈ s.dropWhile isSpace := by
  rw [← List.takeWhile_append_dropWhile (p := isSpace) (l := s)] at hc
  refine (List.mem_append.mp hc).resolve_left fun htake => ?_
  rw [List.mem_takeWhile_imp htake] at hspace
  cases hspace

theorem mem_strip {s : PyStr} {c : Point} (hc : c ∈ s) (hspace : isSpace c = false) : c ∈ strip s := by
  have hdrop := mem_dropWhile_isSpace hc hspace
  rw [strip, List.rdropWhile, List.mem_reverse]
  exact mem_dropWhile_isSpace (List.mem_reverse.mpr hdrop) hspace

/-- A segment without hyphens passes its checks exactly if it is proper, but for one newline. -/
theorem checkSegment_eq_none {s : PyStr} (hdash : pt '-' ∉ s) :
    checkSegment s = none ↔ ∃ a m, Proper a ∧ Unread m ∧ s = a ++ m := by
  rw [← matchesSegment_iff hdash, checkSegment]
  constructor
  · intro h
    split_ifs at h with _ hmatch
    simpa using hmatch
  · intro h
    obtain ⟨a, m, ha, -, rfl⟩ := (matchesSegment_iff hdash).mp h
    rw [if_neg (ha.strip_append m), if_neg (by rw [h]; decide)]

/-! ### Keys -/

/-- The last segment of a stripped text does not end with a newline. -/
theorem unread_last {a c m : PyStr} {key : PyStr} (hkey : strip key = a ++ (c ++ m)) (hm : Unread m) :
    m = [] := by
  obtain rfl | rfl := hm
  · rfl
  · have hlast : (strip key).getLast? = some (pt '\n') := by
      rw [hkey, ← List.append_assoc, List.getLast?_concat]
    have hne : strip key ≠ [] := fun h => by rw [h] at hlast; cases hlast
    have hstop := List.rdropWhile_last_not isSpace (key.dropWhile isSpace) hne
    rw [List.getLast?_eq_some_getLast hne, Option.some.injEq] at hlast
    rw [show ((key.dropWhile isSpace).rdropWhile isSpace).getLast hne = pt '\n' from hlast] at hstop
    exact absurd (by decide) hstop

theorem Unread.not_mem {m : PyStr} (hm : Unread m) {c : Point} (hc : c ≠ pt '\n') : c ∉ m := by
  obtain rfl | rfl := hm
  · exact List.not_mem_nil
  · exact List.mem_singleton.not.mpr hc

theorem Proper.not_mem {a m : PyStr} (ha : Proper a) (hm : Unread m) {c : Point}
    (hc : isKeyPoint c = false) (hnewline : c ≠ pt '\n') : c ∉ a ++ m := by
  rw [List.mem_append, not_or]
  exact ⟨fun hmem => Bool.false_ne_true (hc.symm.trans (ha.points c hmem)), hm.not_mem hnewline⟩

theorem segments_joined {a m b n c : PyStr} (ha : Proper a) (hm : Unread m) (hb : Proper b)
    (hn : Unread n) (hc : Proper c) :
    (joined (a ++ m) (b ++ n) c).splitOn (pt '-') = [a ++ m, b ++ n, c] :=
  splitOn_eq_three.mpr ⟨rfl, ha.not_mem hm (by decide) (by decide), hb.not_mem hn (by decide) (by decide),
    hc.dash⟩

theorem colon_not_mem_joined {a m b n c : PyStr} (ha : Proper a) (hm : Unread m) (hb : Proper b)
    (hn : Unread n) (hc : Proper c) : FULLWIDTH_COLON ∉ joined (a ++ m) (b ++ n) c := by
  have hlast := hc.not_mem (.inl rfl : Unread []) (c := FULLWIDTH_COLON) (by decide) (by decide)
  rw [List.append_nil] at hlast
  simp only [joined, List.mem_append (s := a ++ m), List.mem_append (s := b ++ n), List.mem_cons, not_or]
  exact ⟨ha.not_mem hm (by decide) (by decide), by decide,
    hb.not_mem hn (by decide) (by decide), by decide, hlast⟩

/-- What is accepted: three segments, proper but for newlines at the end of the first two. -/
theorem validateKey_eq_none {key : PyStr} : validateKey key = none ↔
    ∃ a m b n c, Proper a ∧ Proper b ∧ Proper c ∧ Unread m ∧ Unread n ∧
      strip key = joined (a ++ m) (b ++ n) c ∧ countCjk (strip key) ≤ MAX_KEY_CJK := by
  constructor
  · intro h
    simp only [validateKey] at h
    split_ifs at h with hne hcolon hlayers hlong
    · rw [Option.or_eq_none_iff] at h
      exact absurd h.2 (by simp)
    rw [Option.or_none] at h
    obtain ⟨s, t, u, hsegments⟩ := List.length_eq_three.mp (not_not.mp hlayers)
    rw [hsegments] at h
    obtain ⟨hkey, hs, ht, hu⟩ := splitOn_eq_three.mp hsegments
    have hnone := List.findSome?_eq_none_iff.mp h
    obtain ⟨a, m, ha, hm, rfl⟩ := (checkSegment_eq_none hs).mp (hnone s (by simp))
    obtain ⟨b, n, hb, hn, rfl⟩ := (checkSegment_eq_none ht).mp (hnone t (by simp))
    obtain ⟨c, l, hc, hl, rfl⟩ := (checkSegment_eq_none hu).mp (hnone u (by simp))
    obtain rfl : l = [] := unread_last
      (a := (a ++ m) ++ pt '-' :: ((b ++ n) ++ [pt '-'])) (c := c) (by rw [hkey]; simp) hl
    rw [List.append_nil] at hkey
    exact ⟨a, m, b, n, c, ha, hb, hc, hm, hn, hkey, not_lt.mp hlong⟩
  · rintro ⟨a, m, b, n, c, ha, hb, hc, hm, hn, hkey, hcount⟩
    have hne : joined (a ++ m) (b ++ n) c ≠ [] := by simp [joined]
    have hchecks : [a ++ m, b ++ n, c].findSome? checkSegment = none := by
      rw [List.findSome?_eq_none_iff]
      intro segment hsegment
      simp only [List.mem_cons, List.not_mem_nil, or_false] at hsegment
      obtain rfl | rfl | rfl := hsegment
      · exact (checkSegment_eq_none (ha.not_mem hm (by decide) (by decide))).mpr ⟨a, m, ha, hm, rfl⟩
      · exact (checkSegment_eq_none (hb.not_mem hn (by decide) (by decide))).mpr ⟨b, n, hb, hn, rfl⟩
      · exact (checkSegment_eq_none hc.dash).mpr ⟨_, [], hc, .inl rfl, (List.append_nil _).symm⟩
    have hlayers : ¬ [a ++ m, b ++ n, c].length ≠ KEY_LAYER_COUNT := not_not.mpr rfl
    simp only [validateKey]
    rw [if_neg (not_lt.mpr hcount), hkey, if_neg hne, if_neg (colon_not_mem_joined ha hm hb hn hc),
      segments_joined ha hm hb hn hc, if_neg hlayers, hchecks, Option.or_none]

/-- A proper segment shows where its newline begins. -/
theorem proper_append_inj {a b m n : PyStr} (ha : Proper a) (hm : Unread m) (hb : Proper b)
    (hn : Unread n) (h : a ++ m = b ++ n) : m = n := by
  obtain rfl | rfl := hm <;> obtain rfl | rfl := hn
  · rfl
  · rw [List.append_nil] at h
    exact absurd (by rw [h, List.getLast?_concat]) (ha.getLast?_ne (c := pt '\n') (by decide))
  · rw [List.append_nil] at h
    exact absurd (by rw [← h, List.getLast?_concat]) (hb.getLast?_ne (c := pt '\n') (by decide))
  · rfl

theorem not_wellFormed_of_newline {key : PyStr} (h : NewlineBeforeHyphen key) : ¬ WellFormed key := by
  rintro ⟨a', b', c', ha', hb', hc', hkey', -⟩
  obtain ⟨a, m, b, n, c, ha, hb, hc, hm, hn, hmn, hkey, -⟩ := h
  have hempty : Unread [] := .inl rfl
  have hsame := segments_joined ha hm hb hn hc
  rw [← hkey, hkey', ← List.append_nil a', ← List.append_nil b',
    segments_joined ha' hempty hb' hempty hc'] at hsame
  simp only [List.cons.injEq, and_true] at hsame
  obtain rfl := proper_append_inj ha' hempty ha hm hsame.1
  obtain rfl := proper_append_inj hb' hempty hb hn hsame.2.1
  exact hmn.elim (· rfl) (· rfl)

/-- A key is accepted exactly if it is as it should be or has such a newline. -/
theorem validateKey_iff {key : PyStr} : validateKey key = none ↔
    WellFormed (strip key) ∨ NewlineBeforeHyphen (strip key) := by
  rw [validateKey_eq_none]
  constructor
  · rintro ⟨a, m, b, n, c, ha, hb, hc, hm, hn, hkey, hcount⟩
    by_cases hmn : m = [] ∧ n = []
    · obtain ⟨rfl, rfl⟩ := hmn
      rw [List.append_nil, List.append_nil] at hkey
      exact .inl ⟨a, b, c, ha, hb, hc, hkey, hcount⟩
    · exact .inr ⟨a, m, b, n, c, ha, hb, hc, hm, hn, not_and_or.mp hmn, hkey, hcount⟩
  · rintro (⟨a, b, c, ha, hb, hc, hkey, hcount⟩ | ⟨a, m, b, n, c, ha, hb, hc, hm, hn, -, hkey, hcount⟩)
    · exact ⟨a, [], b, [], c, ha, hb, hc, .inl rfl, .inl rfl, by rw [List.append_nil, List.append_nil, hkey],
        hcount⟩
    · exact ⟨a, m, b, n, c, ha, hb, hc, hm, hn, hkey, hcount⟩

/-- `validate_key` accepts just the keys that are as they should be, apart from those with a newline. -/
theorem validateKey_exact_iff {key : PyStr} :
    (validateKey key = none ↔ WellFormed (strip key)) ↔ ¬ NewlineBeforeHyphen (strip key) := by
  rw [validateKey_iff]
  constructor
  · exact fun h hnewline => not_wellFormed_of_newline hnewline (h.mp (.inr hnewline))
  · exact fun h => or_iff_left h

end CompanionBackend.MemoryItems
