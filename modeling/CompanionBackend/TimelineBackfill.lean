import Mathlib.Data.List.Perm.Subperm
import Mathlib.Data.List.Sort
import CompanionBackend.TimelineSequence
import CompanionBackend.VoiceModels

/-!
# Backfill of timeline numbers

`backfill_user` renumbers the conversation and agent rows of a user from one, in
time order, and resets the counter behind them. Call cards draw their numbers
from the same counter, but the backfill does not read their table.
-/
namespace CompanionBackend.TimelineBackfill

open Runs VoiceModels TimelineSequence

/-- The timeline columns of `conversation_log` and of `agent_message`. -/
structure MessageRow where
  id : ℕ
  userId : UserId
  createdAt : ℤ
  sortSeq : ℤ
  deriving DecidableEq, Repr

/-- A message table; `id` is its primary key. -/
structure MessageTable where
  rows : List MessageRow
  ids_nodup : (rows.map (·.id)).Nodup

/-- The tables behind a timeline. -/
structure TimelineDb where
  conversations : MessageTable
  agentMessages : MessageTable
  calls : Table CallId VoiceCall
  /-- `user_timeline_seq.next_seq`. -/
  counters : Table UserId ℤ

/-- The `table` entry of a backfill item. -/
inductive ItemTable
  | conv | agent
  deriving DecidableEq, Repr

structure BackfillItem where
  table : ItemTable
  id : ℕ
  createdAt : ℤ
  deriving DecidableEq, Repr

/-- `table_order`. -/
def tableOrder : ItemTable → ℕ
  | .conv => 0
  | .agent => 1

/-- Comparison of `sort_key`s: creation, table, id. -/
def itemLe (a b : BackfillItem) : Prop :=
  a.createdAt < b.createdAt ∨ a.createdAt = b.createdAt ∧
    (tableOrder a.table < tableOrder b.table ∨ tableOrder a.table = tableOrder b.table ∧ a.id ≤ b.id)

instance : DecidableRel itemLe := fun _ _ => inferInstanceAs (Decidable (_ ∨ _ ∧ (_ ∨ _ ∧ _)))

namespace MessageTable

/-- The rows of one user. -/
def ofUser (t : MessageTable) (user : UserId) : List MessageRow :=
  t.rows.filter fun row => decide (row.userId = user)

/-- The rows of one user as backfill items. -/
def items (t : MessageTable) (table : ItemTable) (user : UserId) : List BackfillItem :=
  (t.ofUser user).map fun row => ⟨table, row.id, row.createdAt⟩

end MessageTable

/-- `UPDATE … SET sort_seq = … WHERE id = …` on one row. -/
def setSortSeq (row : MessageRow) (update : ℕ × ℤ) : MessageRow :=
  if row.id = update.1 then { row with sortSeq := update.2 } else row

@[simp] theorem setSortSeq_id (row : MessageRow) (update : ℕ × ℤ) :
    (setSortSeq row update).id = row.id := by
  simp only [setSortSeq, apply_ite MessageRow.id, ite_self]

@[simp] theorem setSortSeq_userId (row : MessageRow) (update : ℕ × ℤ) :
    (setSortSeq row update).userId = row.userId := by
  simp only [setSortSeq, apply_ite MessageRow.userId, ite_self]

namespace MessageTable

def update (t : MessageTable) (u : ℕ × ℤ) : MessageTable where
  rows := t.rows.map fun row => setSortSeq row u
  ids_nodup := by simpa [Function.comp_def] using t.ids_nodup

/-- The updates of one table, one statement each. -/
def updateAll (t : MessageTable) (us : List (ℕ × ℤ)) : MessageTable := us.foldl update t

end MessageTable

/-- `all_items`, sorted. -/
def allItems (db : TimelineDb) (user : UserId) : List BackfillItem :=
  (db.conversations.items .conv user ++ db.agentMessages.items .agent user).insertionSort itemLe

/-- The items with their numbers from one on. -/
def numbered (db : TimelineDb) (user : UserId) : List (BackfillItem × ℕ) :=
  (allItems db user).zipIdx 1

/-- `conv_updates` and `agent_updates`. -/
def updatesFor (table : ItemTable) (numbered : List (BackfillItem × ℕ)) : List (ℕ × ℤ) :=
  (numbered.filter fun p => decide (p.1.table = table)).map fun p => (p.1.id, (p.2 : ℤ))

/-- `backfill_user`. -/
def backfillUser (user : UserId) (db : TimelineDb) : TimelineDb :=
  if allItems db user = [] then
    { db with counters := db.counters.insert user (nextSeq (db.counters.lookup user)) }
  else
    { db with
      conversations := db.conversations.updateAll (updatesFor .conv (numbered db user))
      agentMessages := db.agentMessages.updateAll (updatesFor .agent (numbered db user))
      counters := db.counters.insert user ((allItems db user).length + 1) }

/-! ### The timeline of a user -/

/-- The call filter of `get_timeline`. -/
def shownCall (user : UserId) (call : VoiceCall) : Bool :=
  decide (call.userId = user) && decide (call.status = .ended ∨ call.status = .missed) &&
    call.deletionFenceAt.isNone && call.deletedAt.isNone

/-- Numbers of the call cards `get_timeline` shows. -/
def callSeqs (db : TimelineDb) (user : UserId) : List ℤ :=
  ((db.calls.entries.map (·.2)).filter (shownCall user)).filterMap (·.sortSeq)

/-- Numbers of the conversation and agent rows `get_timeline` shows. -/
def messageSeqs (db : TimelineDb) (user : UserId) : List ℤ :=
  (db.conversations.ofUser user).map (·.sortSeq) ++ (db.agentMessages.ofUser user).map (·.sortSeq)

/-- Numbers of all rows `get_timeline` shows. -/
def shownSeqs (db : TimelineDb) (user : UserId) : List ℤ := messageSeqs db user ++ callSeqs db user

/-- Later calls of `allocate_sort_seq`, one after another. -/
def allocateAll (counter : Option ℤ) : List ℤ → Except TimelineError (List ℤ)
  | [] => pure []
  | count :: counts => do
    let (seqs, next) ← allocateSortSeq counter count
    let rest ← allocateAll (some next) counts
    pure (seqs ++ rest)

/-- The shown rows have distinct numbers below the counter, and whatever is allocated later is
distinct from them and among itself. -/
structure Numbered (db : TimelineDb) (user : UserId) : Prop where
  nodup : (shownSeqs db user).Nodup
  lt_next : ∀ s ∈ shownSeqs db user, s < nextSeq (db.counters.lookup user)
  fresh : ∀ counts seqs, allocateAll (db.counters.lookup user) counts = .ok seqs →
    (shownSeqs db user ++ seqs).Nodup

/-! ### Later allocations -/

/-- Later numbers are distinct and not below the counter. -/
theorem allocateAll_spec {counter : Option ℤ} {counts seqs : List ℤ}
    (h : allocateAll counter counts = .ok seqs) :
    seqs.Nodup ∧ ∀ s ∈ seqs, nextSeq counter ≤ s := by
  induction counts generalizing counter seqs with
  | nil =>
    obtain rfl := pure_eq_ok.mp h
    simp
  | cons count counts ih =>
    obtain ⟨⟨first, next⟩, hfirst, h⟩ := bind_eq_ok.mp h
    obtain ⟨rest, hrest, h⟩ := bind_eq_ok.mp h
    obtain rfl := pure_eq_ok.mp h
    obtain ⟨hnodup, hbounds, hnext⟩ := allocateSortSeq_spec hfirst
    have hcount := (allocateSortSeq_eq_ok.mp hfirst).1
    obtain ⟨hnodup', hlower⟩ := ih hrest
    have hlower' : ∀ s ∈ rest, next ≤ s := hlower
    constructor
    · refine List.nodup_append.mpr ⟨hnodup, hnodup', ?_⟩
      intro a ha b hb
      have := (hbounds a ha).2
      have := hlower' b hb
      omega
    · intro s hs
      rcases List.mem_append.mp hs with hs | hs
      · exact (hbounds s hs).1
      · have := hlower' s hs
        omega

/-- Distinct numbers below the counter are all it takes. -/
theorem numbered_iff {db : TimelineDb} {user : UserId} :
    Numbered db user ↔ (shownSeqs db user).Nodup ∧
      ∀ s ∈ shownSeqs db user, s < nextSeq (db.counters.lookup user) := by
  constructor
  · intro h
    exact ⟨h.nodup, h.lt_next⟩
  · rintro ⟨hnodup, hlt⟩
    refine ⟨hnodup, hlt, fun counts seqs hseqs => ?_⟩
    obtain ⟨hnodup', hlower⟩ := allocateAll_spec hseqs
    refine List.nodup_append.mpr ⟨hnodup, hnodup', ?_⟩
    intro a ha b hb
    have := hlt a ha
    have := hlower b hb
    omega

/-! ### What the updates write -/

namespace MessageTable

/-- The statements of one table act on each row by itself. -/
theorem updateAll_rows (t : MessageTable) (us : List (ℕ × ℤ)) :
    (t.updateAll us).rows = t.rows.map fun row => us.foldl setSortSeq row := by
  induction us generalizing t with
  | nil => simp [updateAll]
  | cons u us ih =>
    have hstep : t.updateAll (u :: us) = (t.update u).updateAll us := rfl
    rw [hstep, ih, update, List.map_map]
    rfl

end MessageTable

@[simp] theorem foldl_setSortSeq_userId (us : List (ℕ × ℤ)) (row : MessageRow) :
    (us.foldl setSortSeq row).userId = row.userId := by
  induction us generalizing row with
  | nil => rfl
  | cons u us ih => rw [List.foldl_cons, ih, setSortSeq_userId]

theorem foldl_setSortSeq_of_not_mem {us : List (ℕ × ℤ)} {row : MessageRow}
    (h : row.id ∉ us.map (·.1)) : us.foldl setSortSeq row = row := by
  induction us with
  | nil => rfl
  | cons u us ih =>
    rw [List.map_cons, List.mem_cons, not_or] at h
    rw [List.foldl_cons, setSortSeq, if_neg h.1, ih h.2]

/-- A row gets the number of its only update. -/
theorem foldl_setSortSeq_of_mem {us : List (ℕ × ℤ)} {row : MessageRow} {seq : ℤ}
    (hkeys : (us.map (·.1)).Nodup) (h : (row.id, seq) ∈ us) :
    (us.foldl setSortSeq row).sortSeq = seq := by
  induction us generalizing row with
  | nil => exact absurd h List.not_mem_nil
  | cons u us ih =>
    rw [List.map_cons, List.nodup_cons] at hkeys
    rw [List.foldl_cons]
    rcases List.mem_cons.mp h with rfl | hrest
    · rw [foldl_setSortSeq_of_not_mem]
      · simp [setSortSeq]
      · rw [setSortSeq_id]
        exact hkeys.1
    · apply ih hkeys.2
      rwa [setSortSeq_id]

namespace MessageTable

theorem ofUser_updateAll (t : MessageTable) (us : List (ℕ × ℤ)) (user : UserId) :
    (t.updateAll us).ofUser user = (t.ofUser user).map fun row => us.foldl setSortSeq row := by
  simp only [ofUser, updateAll_rows, List.filter_map, Function.comp_def, foldl_setSortSeq_userId]

theorem ofUser_ids_nodup (t : MessageTable) (user : UserId) :
    ((t.ofUser user).map (·.id)).Nodup :=
  t.ids_nodup.sublist (List.filter_sublist.map _)

/-- When the updates are about the rows of a user, these rows carry exactly the new numbers. -/
theorem sortSeqs_updateAll {t : MessageTable} {us : List (ℕ × ℤ)} {user : UserId}
    (hids : (us.map (·.1)).Perm ((t.ofUser user).map (·.id))) :
    (((t.updateAll us).ofUser user).map (·.sortSeq)).Perm (us.map (·.2)) := by
  have hkeys : (us.map (·.1)).Nodup := hids.nodup_iff.mpr (t.ofUser_ids_nodup user)
  have hpairs : ((t.ofUser user).map fun row => (row.id, (us.foldl setSortSeq row).sortSeq)).Perm
      us := by
    apply List.Subperm.perm_of_length_le
    · apply List.subperm_of_subset
      · apply List.Nodup.of_map Prod.fst
        simpa [Function.comp_def] using t.ofUser_ids_nodup user
      · intro p hp
        obtain ⟨row, hrow, rfl⟩ := List.mem_map.mp hp
        have hmem : row.id ∈ us.map (·.1) := hids.mem_iff.mpr (List.mem_map_of_mem hrow)
        obtain ⟨⟨id, seq⟩, hu, rfl⟩ := List.mem_map.mp hmem
        rwa [foldl_setSortSeq_of_mem hkeys hu]
    · have := hids.length_eq
      simp only [List.length_map] at this ⊢
      exact this.le
  rw [ofUser_updateAll, List.map_map]
  simpa [Function.comp_def] using hpairs.map (·.2)

end MessageTable

/-! ### The numbers after a backfill -/

theorem allItems_perm (db : TimelineDb) (user : UserId) : (allItems db user).Perm
    (db.conversations.items .conv user ++ db.agentMessages.items .agent user) :=
  List.perm_insertionSort itemLe _

/-- The table an item comes from. -/
def sourceOf (db : TimelineDb) : ItemTable → MessageTable
  | .conv => db.conversations
  | .agent => db.agentMessages

/-- The updates of a table are about its own rows of the user. -/
theorem updatesFor_ids (db : TimelineDb) (user : UserId) (table : ItemTable) :
    ((updatesFor table (numbered db user)).map (·.1)).Perm
      (((sourceOf db table).ofUser user).map (·.id)) := by
  have hfst : (updatesFor table (numbered db user)).map (·.1) =
      ((allItems db user).filter fun item => decide (item.table = table)).map (·.id) := by
    rw [← List.zipIdx_map_fst 1 (allItems db user), List.filter_map, List.map_map]
    simp only [updatesFor, List.map_map]
    rfl
  rw [hfst]
  refine (((allItems_perm db user).filter _).map _).trans ?_
  cases table <;>
    simp [sourceOf, MessageTable.items, List.filter_append, List.filter_map, Function.comp_def]

/-- Together the two tables receive the numbers from one to the number of rows. -/
theorem updatesFor_seqs (db : TimelineDb) (user : UserId) :
    ((updatesFor .conv (numbered db user)).map (·.2) ++
      (updatesFor .agent (numbered db user)).map (·.2)).Perm
      ((List.range' 1 (allItems db user).length).map fun i : ℕ => (i : ℤ)) := by
  have hsplit := List.filter_append_perm (fun p : BackfillItem × ℕ => decide (p.1.table = .conv))
    (numbered db user)
  have hagent : (numbered db user).filter (fun p => !decide (p.1.table = .conv)) =
      (numbered db user).filter fun p => decide (p.1.table = .agent) := by
    apply List.filter_congr
    intro p _
    cases p.1.table <;> rfl
  rw [hagent] at hsplit
  have hseqs := hsplit.map fun p => (p.2 : ℤ)
  rw [List.map_append] at hseqs
  simp only [updatesFor, List.map_map, Function.comp_def]
  refine hseqs.trans (List.Perm.of_eq ?_)
  rw [numbered, ← List.zipIdx_map_snd 1 (allItems db user), List.map_map]
  rfl

/-- After a backfill of existing rows they are numbered from one on. -/
theorem messageSeqs_backfillUser {db : TimelineDb} {user : UserId} (h : allItems db user ≠ []) :
    (messageSeqs (backfillUser user db) user).Perm
      ((List.range' 1 (allItems db user).length).map fun i : ℕ => (i : ℤ)) := by
  rw [backfillUser, if_neg h]
  refine List.Perm.trans ?_ (updatesFor_seqs db user)
  apply List.Perm.append
  · exact MessageTable.sortSeqs_updateAll (updatesFor_ids db user .conv)
  · exact MessageTable.sortSeqs_updateAll (updatesFor_ids db user .agent)

theorem messageSeqs_of_no_items {db : TimelineDb} {user : UserId} (h : allItems db user = []) :
    messageSeqs db user = [] := by
  have hitems := (allItems_perm db user).symm
  rw [h, List.perm_nil, List.append_eq_nil_iff] at hitems
  simp only [MessageTable.items, List.map_eq_nil_iff] at hitems
  simp [messageSeqs, hitems]

/-- The cards the backfill leaves where they are must lie below what it hands out. -/
structure CardsClear (db : TimelineDb) (user : UserId) : Prop where
  nodup : (callSeqs db user).Nodup
  below : ∀ s ∈ callSeqs db user,
    if allItems db user = [] then s < nextSeq (db.counters.lookup user) else s < 1

theorem mem_range'_cast {n : ℕ} {s : ℤ} :
    s ∈ (List.range' 1 n).map (fun i : ℕ => (i : ℤ)) ↔ 1 ≤ s ∧ s < n + 1 := by
  simp only [List.mem_map, List.mem_range'_1]
  constructor
  · rintro ⟨i, hi, rfl⟩
    omega
  · rintro ⟨hlower, hupper⟩
    exact ⟨s.toNat, by omega, by omega⟩

/-- After a backfill the timeline of the user is numbered soundly exactly when the call cards it
shows have distinct numbers that are out of the way of the renumbered rows. -/
theorem backfillUser_numbered_iff (db : TimelineDb) (user : UserId) :
    Numbered (backfillUser user db) user ↔ CardsClear db user := by
  rw [numbered_iff]
  by_cases hitems : allItems db user = []
  · have hdb : backfillUser user db = { db with
        counters := db.counters.insert user (nextSeq (db.counters.lookup user)) } := by
      rw [backfillUser, if_pos hitems]
    have hshown : shownSeqs (backfillUser user db) user = callSeqs db user := by
      rw [shownSeqs, hdb]
      exact congrArg (· ++ callSeqs db user) (messageSeqs_of_no_items hitems)
    have hnext : nextSeq ((backfillUser user db).counters.lookup user) =
        nextSeq (db.counters.lookup user) := by
      simp [hdb, nextSeq]
    rw [hshown, hnext]
    constructor
    · rintro ⟨hnodup, hbelow⟩
      refine ⟨hnodup, fun s hs => ?_⟩
      rw [if_pos hitems]
      exact hbelow s hs
    · intro h
      refine ⟨h.nodup, fun s hs => ?_⟩
      simpa only [if_pos hitems] using h.below s hs
  · have hperm := messageSeqs_backfillUser hitems
    have hcalls : callSeqs (backfillUser user db) user = callSeqs db user := by
      rw [backfillUser, if_neg hitems]
      rfl
    have hnext : nextSeq ((backfillUser user db).counters.lookup user) =
        (allItems db user).length + 1 := by
      rw [backfillUser, if_neg hitems]
      simp [nextSeq]
    rw [shownSeqs, hcalls, (hperm.append_right _).nodup_iff, List.nodup_append, hnext]
    constructor
    · rintro ⟨⟨-, hnodup, hdisjoint⟩, hbelow⟩
      refine ⟨hnodup, fun s hs => ?_⟩
      rw [if_neg hitems]
      by_contra hlow
      have hupper := hbelow s (List.mem_append_right _ hs)
      exact hdisjoint s (mem_range'_cast.mpr ⟨by omega, hupper⟩) s hs rfl
    · intro h
      have hlow : ∀ s ∈ callSeqs db user, s < 1 := by
        intro s hs
        simpa only [if_neg hitems] using h.below s hs
      refine ⟨⟨?_, h.nodup, ?_⟩, ?_⟩
      · refine List.Nodup.map (fun i j hij => ?_) (List.nodup_range' 1)
        simpa using hij
      · intro a ha b hb
        have := (mem_range'_cast.mp ha).1
        have := hlow b hb
        omega
      · intro s hs
        rcases List.mem_append.mp hs with hs | hs
        · exact (mem_range'_cast.mp (hperm.mem_iff.mp hs)).2
        · have := hlow s hs
          omega

/-- A message numbered 2 after the card of an ended call, numbered 1; a row of another user is
still without a number, which is what starts a backfill of all users. -/
def cardFirst : TimelineDb where
  conversations := ⟨[⟨1, 1, 100, 2⟩], List.nodup_singleton _⟩
  agentMessages := ⟨[⟨1, 2, 50, 0⟩], List.nodup_singleton _⟩
  calls := (∅ : Table CallId VoiceCall).insert 7 ⟨1, .ended, none, some .userHangup, some 0, some 40,
    40, 0, 40, 0, 40, 0, some 1, .pending, none, none, none⟩
  counters := (∅ : Table UserId ℤ).insert 1 3

/-- Distinct numbers below the counter before, the card and the message both numbered 1 after. -/
theorem cardFirst_backfill :
    Numbered cardFirst 1 ∧ shownSeqs (backfillUser 1 cardFirst) 1 = [1, 1] ∧
      ¬ Numbered (backfillUser 1 cardFirst) 1 := by
  have hshown : shownSeqs (backfillUser 1 cardFirst) 1 = [1, 1] := by decide
  refine ⟨numbered_iff.mpr ⟨by decide, by decide⟩, hshown, fun h => ?_⟩
  have hnodup := h.nodup
  rw [hshown] at hnodup
  exact absurd hnodup (by decide)

end CompanionBackend.TimelineBackfill
