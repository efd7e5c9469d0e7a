import Mathlib.Data.List.Nodup
import Mathlib.Data.List.Range
import Mathlib.Algebra.Ring.Int.Defs
import CompanionBackend.Runs

/-!
# Allocation of timeline numbers

`user_timeline_seq` holds one counter for each user. Conversation rows, agent
messages and call cards take their `sort_seq` from it under its row lock.
-/
namespace CompanionBackend.TimelineSequence

open Runs

inductive TimelineError
  | countInvalid
  deriving DecidableEq, Repr

/-- `next_seq`, which is one for a user without a row. -/
def nextSeq (counter : Option ℤ) : ℤ := counter.getD 1

/-- `allocate_sort_seq`: the allocated numbers, and the counter afterwards. -/
def allocateSortSeq (counter : Option ℤ) (count : ℤ) : Except TimelineError (List ℤ × ℤ) := do
  require (1 ≤ count) .countInvalid
  pure ((List.range count.toNat).map fun i : ℕ => nextSeq counter + (i : ℤ), nextSeq counter + count)

theorem allocateSortSeq_eq_ok {counter : Option ℤ} {count next : ℤ} {seqs : List ℤ} :
    allocateSortSeq counter count = .ok (seqs, next) ↔
      1 ≤ count ∧ seqs = (List.range count.toNat).map (fun i : ℕ => nextSeq counter + (i : ℤ)) ∧
        next = nextSeq counter + count := by
  simp only [allocateSortSeq, bind_eq_ok, require_eq_ok, exists_const, pure_eq_ok, Prod.mk.injEq]
  constructor
  · rintro ⟨h, rfl, rfl⟩
    exact ⟨h, rfl, rfl⟩
  · rintro ⟨h, rfl, rfl⟩
    exact ⟨h, rfl, rfl⟩

/-- Allocated numbers are distinct and lie between the old counter and the new one. -/
theorem allocateSortSeq_spec {counter : Option ℤ} {count next : ℤ} {seqs : List ℤ}
    (h : allocateSortSeq counter count = .ok (seqs, next)) :
    seqs.Nodup ∧ (∀ s ∈ seqs, nextSeq counter ≤ s ∧ s < next) ∧ next = nextSeq counter + count := by
  obtain ⟨hcount, rfl, rfl⟩ := allocateSortSeq_eq_ok.mp h
  refine ⟨List.nodup_range.map fun i j hij => ?_, ?_, rfl⟩
  · simpa using hij
  · intro s hs
    obtain ⟨i, hi, rfl⟩ := List.mem_map.mp hs
    have := List.mem_range.mp hi
    omega

/-- One number is the counter itself. -/
theorem allocateSortSeq_one (counter : Option ℤ) :
    allocateSortSeq counter 1 = .ok ([nextSeq counter], nextSeq counter + 1) := by
  rw [allocateSortSeq_eq_ok]
  simp

end CompanionBackend.TimelineSequence
