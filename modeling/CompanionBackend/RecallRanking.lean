import Mathlib.Algebra.Order.Ring.Unbundled.Rat
import Mathlib.Data.Char
import Mathlib.Data.List.Lex
import Mathlib.Data.Prod.Lex
import CompanionBackend.CapabilityEvidence
import CompanionBackend.Rankings

/-!
# Ranking of recalled memories

`rank_results` ranks what the channels of a recall have found, and `select_memories` what is known
before a call. Rows that cannot be read are dropped. Both keep one entry for each id: the first one
keeps the best and leaves out repeated contents, the second one keeps whichever comes first. The
statistics of what was cropped are left out.
-/
namespace CompanionBackend.RecallRanking

open ProviderEvents Dictionaries Rankings
open CapabilityRules (nonBlank isTrue)
open CapabilityEvidence (Instant PyDatetime replaceZ)

/-- What is used of the language. -/
structure Library where
  /-- `float(value)`, unless it raises. -/
  float : Json → Option PyFloat
  str : Json → Text
  /-- `datetime.fromisoformat`, unless it raises. -/
  fromisoformat : Text → Option PyDatetime
  /-- `.timestamp()` as a float. -/
  timestamp : Instant → ℚ

/-- Score, quality and time, compared in this order. -/
abbrev Rank := ℚ ×ₗ ℚ ×ₗ ℚ

def rankOf (score quality updated : ℚ) : Rank := toLex (score, toLex (quality, updated))

/-- The instant of a time with an offset. -/
def aware (t : PyDatetime) : Option Instant := t.utcoffset.map fun offset => t.wall - offset

def textAt (row : Json) (key : String) : Option Text :=
  match row.get key with
  | some (.str t) => some t
  | _ => none

def finite : PyFloat → Option ℚ
  | .finite q => some q
  | _ => none

/-- `float(row[key])`, when it is a finite number. -/
def numberAt (L : Library) (row : Json) (key : String) : Option ℚ :=
  ((row.get key).bind L.float).bind finite

/-! ### Recall -/

structure Recalled where
  id : Text
  content : Text
  rank : Rank
  deriving DecidableEq

/-- `row.get('fields') or {}`. -/
def fieldsOf (row : Json) : Json :=
  if (row.field "fields").truthy then row.field "fields" else .obj []

/-- The time of the last change, 0 without one; not in the future. -/
def updatedAt (L : Library) (now : Instant) (fields : Json) : Option ℚ :=
  if (fields.field "updated_at").truthy then do
    let t ← L.fromisoformat (replaceZ (L.str (fields.field "updated_at")))
    let updated ← aware t
    if now < updated then none else some (L.timestamp updated)
  else some 0

/-- The row has not expired. -/
def lasts (L : Library) (now : Instant) (fields : Json) : Option Unit :=
  if (fields.field "expires_at").truthy then do
    let t ← L.fromisoformat (replaceZ (L.str (fields.field "expires_at")))
    let expiry ← aware t
    if expiry ≤ now then none else some ()
  else some ()

/-- `float(fields.get('quality', 0))`, from 0 to 1. -/
def qualityOf (L : Library) (fields : Json) : Option ℚ := do
  let q ← (L.float ((fields.get "quality").getD (.int 0))).bind finite
  if 0 ≤ q ∧ q ≤ 1 then some q else none

/-- The entry of a row that is not skipped. -/
def recalled (L : Library) (now : Instant) (threshold : ℚ) (row : Json) : Option Recalled := do
  let id ← textAt row "id"
  let content ← textAt row "content"
  let score ← numberAt L row "score"
  let fields := fieldsOf row
  if fields.isObj ∧ 0 < id.length ∧ id.length ≤ 256 ∧ nonBlank content ∧ threshold ≤ score ∧
      score ≤ 1 ∧ ¬isTrue (fields.field "is_deleted") then
    let quality ← qualityOf L fields
    let updated ← updatedAt L now fields
    lasts L now fields
    some ⟨id, content.take 600, rankOf score quality updated⟩
  else none

/-- An entry replaces one of the same id only with a better rank. -/
def choose (selected : Dict Text Recalled) (item : Recalled) : Dict Text Recalled :=
  match Dict.get selected item.id with
  | some old => if old.rank < item.rank then Dict.set selected item.id item else selected
  | none => Dict.set selected item.id item

/-- Better ranks first, then ids in their order. -/
def recalledKey (item : Recalled) : Rankᵒᵈ ×ₗ Text := toLex (OrderDual.toDual item.rank, item.id)

def selected (items : List Recalled) : List Recalled := (items.foldl choose []).map Prod.snd

/-- `rank_results`. -/
def rankResults (L : Library) (now : Instant) (limit : ℕ) (threshold : ℚ) (rows : List Json) :
    List Recalled :=
  takeDistinct (·.content) limit [] (sortBy recalledKey (selected (rows.filterMap (recalled L now threshold))))

/-! ### Memories before a call -/

structure Memory where
  id : Text
  content : Text
  rank : Rank
  sourceChannel : Json

inductive ContextPackError
  | sourceCandidateLimit | compileTimeout
  deriving DecidableEq, Repr

/-- `now - timedelta(days=lookback_days)`, unless it overflows. -/
def lookback (now : Instant) (days : ℤ) : Option Instant :=
  if days.natAbs ≤ 999999999 ∧ -62135596800000000 ≤ now - days * 86400000000 then
    some (now - days * 86400000000)
  else none

/-- The expiry is a text of at most 64 characters, or nothing. -/
def stillValid (L : Library) (now : Instant) (item : Json) : Option Unit :=
  match item.field "expires_at" with
  | .null => some ()
  | .str [] => some ()
  | .str t => do
    if 64 < t.length then none
    else
      let expiry ← (L.fromisoformat (replaceZ t)).bind aware
      if expiry ≤ now then none else some ()
  | _ => none

/-- The entry of an item that is not skipped for what it says. -/
def memoryOf (L : Library) (now : Instant) (lookbackDays : ℤ) (item : Json) : Option Memory := do
  let id ← (item.get "id").map L.str
  let content ← textAt item "content"
  let text ← textAt item "updated_at"
  if 64 < text.length then none
  else
    let updated ← (L.fromisoformat (replaceZ text)).bind aware
    let relevance ← numberAt L item "score"
    let quality ← numberAt L item "quality"
    let earliest ← lookback now lookbackDays
    if nonBlank content ∧ 0 ≤ relevance ∧ relevance ≤ 1 ∧ 0 ≤ quality ∧ quality ≤ 1 ∧ updated ≤ now ∧
        earliest ≤ updated ∧ ¬isTrue (item.field "is_deleted") then
      stillValid L now item
      some ⟨id, content.take 400, rankOf relevance quality (L.timestamp updated), item.field "source_channel"⟩
    else none

/-- The first entry of each id; ids that are too long are seen, but not kept. -/
def gather : List Text → List Memory → List Memory
  | _, [] => []
  | seen, m :: rest =>
    if m.id ∈ seen then gather seen rest
    else if 128 < m.id.length then gather (m.id :: seen) rest
    else m :: gather (m.id :: seen) rest

def memoryKey (m : Memory) : Rankᵒᵈ ×ₗ Text := toLex (OrderDual.toDual m.rank, m.id)

/-- `select_memories`; the deadline may pass after some of the rows. -/
def selectMemories (L : Library) (now : Instant) (limit : ℕ) (lookbackDays : ℤ) (deadline : Option ℕ)
    (rows : List Json) : Except ContextPackError (List Memory) :=
  if 200 < rows.length then .error .sourceCandidateLimit
  else if deadline.any (· < rows.length) then .error .compileTimeout
  else .ok ((sortBy memoryKey (gather [] (rows.filterMap (memoryOf L now lookbackDays)))).take limit)

end CompanionBackend.RecallRanking

/-!
## Rankings do not depend on the order of arrival

The entry that is kept of an id is determined by the rows when no two rows of the id tie. Everything
else is sorted by a key that ends with the id.
-/
namespace CompanionBackend.RankingOrder

open ProviderEvents Dictionaries Rankings RecallRanking
open CapabilityEvidence (Instant)

/-! ### The best entry of each id -/

/-- Entries of one id that tie have the same content. -/
def TiesAgree (items : List Recalled) : Prop :=
  ∀ a ∈ items, ∀ b ∈ items, a.id = b.id → a.rank = b.rank → a.content = b.content

/-- What the dictionary holds after the entries. -/
structure Holds (items : List Recalled) (d : Dict Text Recalled) : Prop where
  distinct : (d.map Prod.fst).Nodup
  found : ∀ k a, Dict.get d k = some a → a ∈ items ∧ a.id = k
  best : ∀ a ∈ items, ∃ b, Dict.get d a.id = some b ∧ a.rank ≤ b.rank

theorem holds_nil : Holds [] [] where
  distinct := List.nodup_nil
  found _ _ h := by simp at h
  best _ h := by simp at h

theorem holds_choose {items : List Recalled} {d : Dict Text Recalled} (h : Holds items d) (a : Recalled) :
    Holds (items ++ [a]) (choose d a) := by
  have hset : (∀ b, Dict.get d a.id = some b → b.rank ≤ a.rank) →
      Holds (items ++ [a]) (Dict.set d a.id a) := by
    intro hbetter
    refine ⟨Dict.nodup_set h.distinct a.id a, fun k b hget => ?_, fun b hb => ?_⟩
    · rw [Dict.get_set] at hget
      split_ifs at hget with hk
      · obtain rfl := Option.some.inj hget
        exact ⟨List.mem_append_right _ (List.mem_singleton_self _), hk⟩
      · obtain ⟨hb, hid⟩ := h.found k b hget
        exact ⟨List.mem_append_left _ hb, hid⟩
    · rw [Dict.get_set]
      rcases List.mem_append.mp hb with hb | hb
      · obtain ⟨c, hget, hle⟩ := h.best b hb
        split_ifs with hid
        · exact ⟨a, rfl, hle.trans (hbetter c (hid ▸ hget))⟩
        · exact ⟨c, hget, hle⟩
      · rw [List.mem_singleton.mp hb, if_pos rfl]
        exact ⟨a, rfl, le_rfl⟩
  rw [choose]
  cases hget : Dict.get d a.id with
  | none => exact hset fun b hb => by simp [hget] at hb
  | some old =>
    simp only
    split_ifs with hlt
    · exact hset fun b hb => by
        rw [hget] at hb
        rw [← Option.some.inj hb]
        exact hlt.le
    · refine ⟨h.distinct, fun k b hb => ?_, fun b hb => ?_⟩
      · obtain ⟨hmem, hid⟩ := h.found k b hb
        exact ⟨List.mem_append_left _ hmem, hid⟩
      · rcases List.mem_append.mp hb with hb | hb
        · exact h.best b hb
        · rw [List.mem_singleton.mp hb]
          exact ⟨old, hget, not_lt.mp hlt⟩

theorem holds_selected (items : List Recalled) : Holds items (items.foldl choose []) := by
  induction items using List.reverseRecOn with
  | nil => exact holds_nil
  | append_singleton items a ih =>
    rw [List.foldl_append]
    exact holds_choose ih a

theorem mem_selected {items : List Recalled} {a : Recalled} :
    a ∈ selected items ↔ Dict.get (items.foldl choose []) a.id = some a := by
  have h := holds_selected items
  constructor
  · intro ha
    obtain ⟨⟨k, b⟩, hmem, rfl⟩ := List.mem_map.mp ha
    have hget := Dict.get_of_mem h.distinct hmem
    obtain ⟨-, rfl⟩ := h.found k b hget
    exact hget
  · intro hget
    exact List.mem_map.mpr ⟨(a.id, a), Dict.mem_of_get hget, rfl⟩

/-- Every entry is matched by one of its id that is at least as good. -/
theorem selected_best {items : List Recalled} {a : Recalled} (ha : a ∈ items) :
    ∃ b ∈ selected items, b.id = a.id ∧ a.rank ≤ b.rank := by
  have h := holds_selected items
  obtain ⟨b, hget, hle⟩ := h.best a ha
  obtain ⟨-, hid⟩ := h.found a.id b hget
  exact ⟨b, mem_selected.mpr (hid ▸ hget), hid, hle⟩

theorem mem_of_selected {items : List Recalled} {a : Recalled} (ha : a ∈ selected items) : a ∈ items :=
  ((holds_selected items).found a.id a (mem_selected.mp ha)).1

theorem eq_of_selected {items : List Recalled} {a b : Recalled} (ha : a ∈ selected items)
    (hb : b ∈ selected items) (hid : a.id = b.id) : a = b := by
  have hget := mem_selected.mp ha
  rw [hid, mem_selected.mp hb] at hget
  exact (Option.some.inj hget).symm

theorem nodup_selected (items : List Recalled) : ((selected items).map (·.id)).Nodup := by
  have h := holds_selected items
  have hkeys : (selected items).map (·.id) = (items.foldl choose []).map Prod.fst := by
    rw [selected, List.map_map]
    refine List.map_congr_left fun e he => ?_
    exact (h.found e.1 e.2 (Dict.get_of_mem h.distinct he)).2
  rw [hkeys]
  exact h.distinct

/-- When ties agree, the kept entries do not depend on the order. -/
theorem selected_perm {items items' : List Recalled} (hperm : items.Perm items') (h : TiesAgree items) :
    (selected items).Perm (selected items') := by
  have hsub : ∀ {xs ys : List Recalled}, xs.Perm ys → TiesAgree xs →
      ∀ a ∈ selected xs, a ∈ selected ys := by
    intro xs ys hxy hties a ha
    have hax := mem_of_selected ha
    obtain ⟨b, hb, hid, hle⟩ := selected_best (hxy.mem_iff.mp hax)
    have hbx := hxy.mem_iff.mpr (mem_of_selected hb)
    obtain ⟨c, hc, hcid, hcle⟩ := selected_best hbx
    obtain rfl : c = a := eq_of_selected hc ha (hcid.trans hid)
    have hrank : c.rank = b.rank := le_antisymm hle hcle
    have hsame : c = b := by
      have hcontent := hties c hax b hbx hid.symm hrank
      cases c
      cases b
      simp_all
    rw [hsame]
    exact hb
  have hties' : TiesAgree items' := fun a ha b hb =>
    h a (hperm.mem_iff.mpr ha) b (hperm.mem_iff.mpr hb)
  refine (List.perm_ext_iff_of_nodup (nodup_selected items).of_map (nodup_selected items').of_map).mpr ?_
  exact fun a => ⟨hsub hperm h a, hsub hperm.symm hties' a⟩

/-! ### Recall -/

theorem recalledKey_le {a b : Recalled} (h : b.rank < a.rank ∨ a.rank = b.rank ∧ a.id ≤ b.id) :
    recalledKey a ≤ recalledKey b := by
  rw [recalledKey, recalledKey, Prod.Lex.toLex_le_toLex]
  rcases h with hlt | ⟨heq, hid⟩
  · exact .inl (OrderDual.toDual_lt_toDual.mpr hlt)
  · exact .inr ⟨congrArg OrderDual.toDual heq, hid⟩

theorem id_of_recalledKey {a b : Recalled} (h : recalledKey a = recalledKey b) : a.id = b.id :=
  (Prod.mk.inj (toLex.injective h)).2

/-- The entries that a recall ranks. -/
def candidates (L : Library) (now : Instant) (threshold : ℚ) (rows : List Json) : List Recalled :=
  rows.filterMap (recalled L now threshold)

theorem rankResults_eq (L : Library) (now : Instant) (limit : ℕ) (threshold : ℚ) (rows : List Json) :
    rankResults L now limit threshold rows = takeDistinct (·.content) limit []
      (sortBy recalledKey (selected (candidates L now threshold rows))) := rfl

theorem rankResults_perm {L : Library} {now : Instant} {limit : ℕ} {threshold : ℚ} {rows rows' : List Json}
    (hperm : rows.Perm rows') (h : TiesAgree (candidates L now threshold rows)) :
    rankResults L now limit threshold rows = rankResults L now limit threshold rows' := by
  have hselected : (selected (candidates L now threshold rows)).Perm
      (selected (candidates L now threshold rows')) :=
    selected_perm (hperm.filterMap (recalled L now threshold)) h
  have hsort : sortBy recalledKey (selected (candidates L now threshold rows)) =
      sortBy recalledKey (selected (candidates L now threshold rows')) :=
    sortBy_eq hselected fun a ha b hb hkey => eq_of_selected ha hb (id_of_recalledKey hkey)
  rw [rankResults_eq, rankResults_eq, hsort]

/-- The list has no more entries than asked for, and no id and no content twice. -/
theorem rankResults_distinct (L : Library) (now : Instant) {limit : ℕ} (hlimit : 0 < limit) (threshold : ℚ)
    (rows : List Json) : (rankResults L now limit threshold rows).length ≤ limit ∧
      ((rankResults L now limit threshold rows).map (·.id)).Nodup ∧
      ((rankResults L now limit threshold rows).map (·.content)).Nodup := by
  have hcontents : ((rankResults L now limit threshold rows).map (·.content)).Nodup :=
    nodup_takeDistinct hlimit
  refine ⟨length_takeDistinct hlimit, hcontents.of_map.map_on fun a ha b hb hid => ?_, hcontents⟩
  have ha' := mem_sortBy.mp (mem_of_takeDistinct hlimit a ha)
  have hb' := mem_sortBy.mp (mem_of_takeDistinct hlimit b hb)
  exact eq_of_selected ha' hb' hid

/-- A candidate that is left out has an entry of its id, at least as good, which repeats the content of
one that is returned and at least as good, or is no better than any that is returned. -/
theorem rankResults_best {L : Library} {now : Instant} {limit : ℕ} {threshold : ℚ} {rows : List Json}
    {c : Recalled} (hc : c ∈ candidates L now threshold rows) :
    ∃ b ∈ candidates L now threshold rows, b.id = c.id ∧ recalledKey b ≤ recalledKey c ∧
      ((∃ a ∈ rankResults L now limit threshold rows, a.content = b.content ∧
          recalledKey a ≤ recalledKey b) ∨
        ∀ a ∈ rankResults L now limit threshold rows, recalledKey a ≤ recalledKey b) := by
  obtain ⟨b, hb, hid, hle⟩ := selected_best hc
  refine ⟨b, mem_of_selected hb, hid, recalledKey_le ?_, ?_⟩
  · rcases lt_or_eq_of_le hle with hlt | heq
    · exact .inl hlt
    · exact .inr ⟨heq.symm, hid.le⟩
  · have hsorted : Sorted recalledKey
        ([] ++ sortBy recalledKey (selected (candidates L now threshold rows))) :=
      sorted_sortBy recalledKey _
    exact takeDistinct_best hsorted (mem_sortBy.mpr hb)

/-! ### Memories before a call -/

/-- Entries of one id are the same. -/
def SameById (ms : List Memory) : Prop := ∀ a ∈ ms, ∀ b ∈ ms, a.id = b.id → a = b

theorem gather_mem {seen : List Text} {ms : List Memory} {m : Memory} (h : m ∈ gather seen ms) :
    m ∈ ms ∧ m.id ∉ seen ∧ m.id.length ≤ 128 := by
  induction ms generalizing seen with
  | nil => simp [gather] at h
  | cons x ms ih =>
    rw [gather] at h
    split_ifs at h with hseen hlong
    · obtain ⟨hmem, hnew, hlength⟩ := ih h
      exact ⟨List.mem_cons_of_mem x hmem, hnew, hlength⟩
    · obtain ⟨hmem, hnew, hlength⟩ := ih h
      exact ⟨List.mem_cons_of_mem x hmem, fun hin => hnew (List.mem_cons_of_mem _ hin), hlength⟩
    · rcases List.mem_cons.mp h with rfl | h
      · exact ⟨List.mem_cons_self, hseen, not_lt.mp hlong⟩
      · obtain ⟨hmem, hnew, hlength⟩ := ih h
        exact ⟨List.mem_cons_of_mem x hmem, fun hin => hnew (List.mem_cons_of_mem _ hin), hlength⟩

theorem nodup_gather (seen : List Text) (ms : List Memory) : ((gather seen ms).map (·.id)).Nodup := by
  induction ms generalizing seen with
  | nil => exact List.nodup_nil
  | cons x ms ih =>
    rw [gather]
    split_ifs
    · exact ih seen
    · exact ih (x.id :: seen)
    · rw [List.map_cons, List.nodup_cons]
      refine ⟨fun hmem => ?_, ih (x.id :: seen)⟩
      obtain ⟨m, hm, hid⟩ := List.mem_map.mp hmem
      exact (gather_mem hm).2.1 (hid ▸ List.mem_cons_self)

/-- Of each id that is not too long an entry is kept. -/
theorem exists_gather {seen : List Text} {ms : List Memory} {m : Memory} (hm : m ∈ ms)
    (hnew : m.id ∉ seen) (hlength : m.id.length ≤ 128) : ∃ a ∈ gather seen ms, a.id = m.id := by
  induction ms generalizing seen with
  | nil => simp at hm
  | cons x ms ih =>
    rw [gather]
    by_cases hid : x.id = m.id
    · rw [if_neg (hid ▸ hnew), if_neg (by rw [hid]; omega)]
      exact ⟨x, List.mem_cons_self, hid⟩
    · have hrest : m ∈ ms := (List.mem_cons.mp hm).resolve_left fun heq => hid (heq ▸ rfl)
      have hnew' : m.id ∉ x.id :: seen := by
        rw [List.mem_cons, not_or]
        exact ⟨fun heq => hid heq.symm, hnew⟩
      split_ifs
      · exact ih hrest hnew
      · exact ih hrest hnew'
      · obtain ⟨a, ha, heq⟩ := ih hrest hnew'
        exact ⟨a, List.mem_cons_of_mem x ha, heq⟩

theorem mem_gather_iff {ms : List Memory} (h : SameById ms) {m : Memory} :
    m ∈ gather [] ms ↔ m ∈ ms ∧ m.id.length ≤ 128 := by
  constructor
  · intro hm
    obtain ⟨hmem, -, hlength⟩ := gather_mem hm
    exact ⟨hmem, hlength⟩
  · rintro ⟨hmem, hlength⟩
    obtain ⟨a, ha, hid⟩ := exists_gather hmem List.not_mem_nil hlength
    rwa [h a (gather_mem ha).1 m hmem hid] at ha

/-- The entries that memories are selected from. -/
def memories (L : Library) (now : Instant) (lookbackDays : ℤ) (rows : List Json) : List Memory :=
  rows.filterMap (memoryOf L now lookbackDays)

theorem id_of_memoryKey {a b : Memory} (h : memoryKey a = memoryKey b) : a.id = b.id :=
  (Prod.mk.inj (toLex.injective h)).2

theorem gather_perm {ms ms' : List Memory} (hperm : ms.Perm ms') (h : SameById ms) :
    (gather [] ms).Perm (gather [] ms') := by
  have h' : SameById ms' := fun a ha b hb => h a (hperm.mem_iff.mpr ha) b (hperm.mem_iff.mpr hb)
  refine (List.perm_ext_iff_of_nodup (nodup_gather [] ms).of_map (nodup_gather [] ms').of_map).mpr fun m => ?_
  rw [mem_gather_iff h, mem_gather_iff h', hperm.mem_iff]

theorem selectMemories_perm {L : Library} {now : Instant} {limit : ℕ} {lookbackDays : ℤ} {deadline : Option ℕ}
    {rows rows' : List Json} (hperm : rows.Perm rows') (h : SameById (memories L now lookbackDays rows)) :
    selectMemories L now limit lookbackDays deadline rows =
      selectMemories L now limit lookbackDays deadline rows' := by
  have hgather := gather_perm (hperm.filterMap (memoryOf L now lookbackDays)) h
  have hsort : sortBy memoryKey (gather [] (rows.filterMap (memoryOf L now lookbackDays))) =
      sortBy memoryKey (gather [] (rows'.filterMap (memoryOf L now lookbackDays))) :=
    sortBy_eq hgather fun a ha b hb hkey =>
      List.inj_on_of_nodup_map (nodup_gather [] _) ha hb (id_of_memoryKey hkey)
  rw [selectMemories, selectMemories, hperm.length_eq, hsort]

theorem selectMemories_eq {L : Library} {now : Instant} {limit : ℕ} {lookbackDays : ℤ} {deadline : Option ℕ}
    {rows : List Json} {ms : List Memory}
    (h : selectMemories L now limit lookbackDays deadline rows = .ok ms) :
    ms = (sortBy memoryKey (gather [] (memories L now lookbackDays rows))).take limit := by
  rw [selectMemories] at h
  split_ifs at h
  exact (Except.ok.inj h).symm

/-- The list has no more entries than asked for, and no id twice. -/
theorem selectMemories_distinct {L : Library} {now : Instant} {limit : ℕ} {lookbackDays : ℤ}
    {deadline : Option ℕ} {rows : List Json} {ms : List Memory}
    (h : selectMemories L now limit lookbackDays deadline rows = .ok ms) :
    ms.length ≤ limit ∧ (ms.map (·.id)).Nodup := by
  obtain rfl := selectMemories_eq h
  refine ⟨List.length_take_le _ _, ?_⟩
  have hsorted := ((sortBy_perm memoryKey _).map (·.id)).nodup_iff.mpr
    (nodup_gather [] (memories L now lookbackDays rows))
  exact hsorted.sublist ((List.take_sublist limit _).map _)

/-- What is left out is no better than what is selected. -/
theorem selectMemories_best {L : Library} {now : Instant} {limit : ℕ} {lookbackDays : ℤ}
    {deadline : Option ℕ} {rows : List Json} {ms : List Memory}
    (h : selectMemories L now limit lookbackDays deadline rows = .ok ms)
    (hsame : SameById (memories L now lookbackDays rows)) {c : Memory}
    (hc : c ∈ memories L now lookbackDays rows) (hlength : c.id.length ≤ 128) (hleft : c ∉ ms) :
    ∀ a ∈ ms, memoryKey a ≤ memoryKey c := by
  obtain rfl := selectMemories_eq h
  intro a ha
  refine le_of_mem_take (sorted_sortBy memoryKey _) ha ?_ hleft
  exact mem_sortBy.mpr ((mem_gather_iff hsame).mpr ⟨hc, hlength⟩)

/-! ### Rankings -/

/-- A ranking of a recall is one of its candidates, as many and as good as they are. -/
structure RecallRanked (candidates : List Recalled) (limit : ℕ) (result : List Recalled) : Prop where
  length : result.length ≤ limit
  ids : (result.map (·.id)).Nodup
  contents : (result.map (·.content)).Nodup
  best : ∀ c ∈ candidates, ∃ b ∈ candidates, b.id = c.id ∧ recalledKey b ≤ recalledKey c ∧
    ((∃ a ∈ result, a.content = b.content ∧ recalledKey a ≤ recalledKey b) ∨
      ∀ a ∈ result, recalledKey a ≤ recalledKey b)

structure MemoriesRanked (candidates : List Memory) (limit : ℕ) (result : List Memory) : Prop where
  length : result.length ≤ limit
  ids : (result.map (·.id)).Nodup
  best : ∀ c ∈ candidates, c.id.length ≤ 128 → c ∉ result → ∀ a ∈ result, memoryKey a ≤ memoryKey c

/-- Rankings do not depend on the order of the rows, and keep the best of them. -/
theorem rankings_agree (L : Library) (now : Instant) {limit : ℕ} (hlimit : 0 < limit) :
    (∀ (threshold : ℚ) (rows : List Json), TiesAgree (candidates L now threshold rows) →
      (∀ rows', rows.Perm rows' →
        rankResults L now limit threshold rows' = rankResults L now limit threshold rows) ∧
      RecallRanked (candidates L now threshold rows) limit (rankResults L now limit threshold rows)) ∧
    ∀ (lookbackDays : ℤ) (deadline : Option ℕ) (rows : List Json),
      SameById (memories L now lookbackDays rows) →
      (∀ rows', rows.Perm rows' → selectMemories L now limit lookbackDays deadline rows' =
        selectMemories L now limit lookbackDays deadline rows) ∧
      ∀ ms, selectMemories L now limit lookbackDays deadline rows = .ok ms →
        MemoriesRanked (memories L now lookbackDays rows) limit ms := by
  constructor
  · intro threshold rows hties
    obtain ⟨hlength, hids, hcontents⟩ := rankResults_distinct L now hlimit threshold rows
    exact ⟨fun rows' hperm => (rankResults_perm hperm hties).symm, hlength, hids, hcontents,
      fun c hc => rankResults_best hc⟩
  · intro lookbackDays deadline rows hsame
    refine ⟨fun rows' hperm => (selectMemories_perm hperm hsame).symm, fun ms hms => ?_⟩
    obtain ⟨hlength, hids⟩ := selectMemories_distinct hms
    exact ⟨hlength, hids, fun c hc hshort hleft => selectMemories_best hms hsame hc hshort hleft⟩

/-! ### A few rows -/

/-- The library on numbers and one time. -/
def fewValues : Library where
  float j :=
    match j with
    | .int n => some (.finite n)
    | .float x => some x
    | _ => none
  str j :=
    match j with
    | .str t => t
    | _ => []
  fromisoformat t := if t = "1970-01-02T00:00:00+00:00".toList then some ⟨86400000000, some 0⟩ else none
  timestamp t := t / 1000000

def noon : Instant := 129600000000

def found (id content : Char) (score : ℚ) : Json :=
  .obj [("id".toList, .str [id]), ("content".toList, .str [content]), ("score".toList, .float (.finite score))]

def known (id content : Char) (score : ℚ) : Json :=
  .obj [("id".toList, .str [id]), ("content".toList, .str [content]), ("score".toList, .float (.finite score)),
    ("quality".toList, .int 1), ("updated_at".toList, .str "1970-01-02T00:00:00Z".toList)]

def threeFound : List Json := [found 'a' 'x' (7 / 10), found 'b' 'y' (8 / 10), found 'c' 'x' (9 / 10)]

/-- The repeated content is left out, whatever comes first. -/
theorem rankings_agree_three :
    rankResults fewValues noon 2 (1 / 2) threeFound.reverse = rankResults fewValues noon 2 (1 / 2) threeFound ∧
      (rankResults fewValues noon 2 (1 / 2) threeFound).map (·.id) = [['c'], ['b']] := by
  have hties : TiesAgree (candidates fewValues noon (1 / 2) threeFound) := by
    unfold TiesAgree
    decide +kernel
  obtain ⟨horder, -⟩ := (rankings_agree fewValues noon (by decide : 0 < 2)).1 (1 / 2) threeFound hties
  exact ⟨horder _ (List.reverse_perm _).symm, by decide +kernel⟩

def contentsOf : Except ContextPackError (List Memory) → List Text
  | .ok ms => ms.map (·.content)
  | .error _ => []

/-- Two contents of one id: which one is kept depends on the order. Contents may be repeated in the
memories before a call, and there the first entry of an id is kept although the second is better. -/
theorem rankings_can_differ :
    rankResults fewValues noon 2 (1 / 2) [found 'a' 'x' 1, found 'a' 'y' 1] ≠
        rankResults fewValues noon 2 (1 / 2) [found 'a' 'y' 1, found 'a' 'x' 1] ∧
      contentsOf (selectMemories fewValues noon 2 30 none [known 'a' 'x' 1, known 'b' 'x' 1]) = [['x'], ['x']] ∧
      contentsOf (selectMemories fewValues noon 2 30 none [known 'a' 'x' 0, known 'a' 'y' 1]) = [['x']] ∧
      contentsOf (selectMemories fewValues noon 2 30 none [known 'a' 'y' 1, known 'a' 'x' 0]) = [['y']] := by
  decide +kernel

end CompanionBackend.RankingOrder
