import Mathlib.Data.List.Basic
import Mathlib.Data.Rat.Defs
import CompanionBackend.ProviderEvents

/-!
# Dictionaries and JSON values

A dictionary keeps its entries in the order in which their keys were first set. A
JSON value is what the decoder makes of a document.
-/
namespace CompanionBackend.Dictionaries

open ProviderEvents

abbrev Dict (α β : Type*) := List (α × β)

namespace Dict

variable {α β : Type*} [DecidableEq α]

@[grind =] def get : Dict α β → α → Option β
  | [], _ => none
  | (k', v) :: d, k => if k' = k then some v else get d k

@[grind =] def set : Dict α β → α → β → Dict α β
  | [], k, v => [(k, v)]
  | (k', v') :: d, k, v => if k' = k then (k', v) :: d else (k', v') :: set d k v

/-- The dictionary and the value found or put under the key. -/
def setDefault (d : Dict α β) (k : α) (v : β) : Dict α β × β :=
  match get d k with
  | some found => (d, found)
  | none => (set d k v, v)

def pop (d : Dict α β) (k : α) : Dict α β := d.filter fun e => decide (e.1 ≠ k)

@[simp] theorem get_nil (k : α) : get ([] : Dict α β) k = none := rfl

theorem get_set (d : Dict α β) (k k' : α) (v : β) :
    get (set d k v) k' = if k = k' then some v else get d k' := by
  induction d with
  | nil => simp [set, get]
  | cons e d ih =>
    obtain ⟨k₁, v₁⟩ := e
    by_cases h₁ : k₁ = k
    · subst h₁
      by_cases h : k₁ = k' <;> simp [set, get, h]
    · by_cases h : k₁ = k'
      · subst h
        simp [set, get, h₁, Ne.symm h₁]
      · simp [set, get, h₁, h, ih]

@[simp] theorem get_set_self (d : Dict α β) (k : α) (v : β) : get (set d k v) k = some v := by
  simp [get_set]

theorem get_set_ne {d : Dict α β} {k k' : α} {v : β} (h : k ≠ k') :
    get (set d k v) k' = get d k' := by
  simp [get_set, h]

theorem set_set (d : Dict α β) (k : α) (v w : β) : set (set d k v) k w = set d k w := by
  induction d with
  | nil => simp [set]
  | cons e d ih =>
    obtain ⟨k₁, v₁⟩ := e
    by_cases h : k₁ = k
    · simp [set, h]
    · simp [set, h, ih]

/-- What `setDefault` returns is what the key has afterwards. -/
theorem get_setDefault_self (d : Dict α β) (k : α) (v : β) :
    get (setDefault d k v).1 k = some (setDefault d k v).2 := by
  unfold setDefault
  split
  · assumption
  · simp

/-- A key that was there keeps its value. -/
theorem get_setDefault_of_some {d : Dict α β} {k k' : α} {v w : β} (h : get d k' = some w) :
    get (setDefault d k v).1 k' = some w := by
  unfold setDefault
  split
  · exact h
  · rename_i hnone
    have hne : k ≠ k' := by
      rintro rfl
      simp [hnone] at h
    rw [get_set_ne hne, h]

/-- A key that was not there has the default under its own key. -/
theorem get_setDefault_of_none {d : Dict α β} {k k' : α} {v : β} (h : get d k' = none) :
    get (setDefault d k v).1 k' = if k = k' then some v else none := by
  by_cases hk : k = k'
  · subst hk
    rw [if_pos rfl, get_setDefault_self, setDefault, h]
  · rw [if_neg hk, setDefault]
    split
    · exact h
    · rw [get_set_ne hk, h]

theorem mem_of_get {d : Dict α β} {k : α} {v : β} (h : get d k = some v) : (k, v) ∈ d := by
  induction d with
  | nil => simp at h
  | cons e d ih =>
    rw [get] at h
    split_ifs at h with hk
    · rw [← hk, ← Option.some.inj h]
      exact List.mem_cons_self
    · exact List.mem_cons_of_mem e (ih h)

theorem get_of_mem {d : Dict α β} (hd : (d.map Prod.fst).Nodup) {k : α} {v : β} (h : (k, v) ∈ d) :
    get d k = some v := by
  induction d with
  | nil => simp at h
  | cons e d ih =>
    rw [List.map_cons, List.nodup_cons] at hd
    rw [get]
    rcases List.mem_cons.mp h with rfl | h
    · rw [if_pos rfl]
    · have hne : e.1 ≠ k := fun hk => hd.1 (hk ▸ List.mem_map.mpr ⟨(k, v), h, rfl⟩)
      rw [if_neg hne, ih hd.2 h]

theorem mem_keys_set {d : Dict α β} {k k' : α} {v : β} :
    k' ∈ (set d k v).map Prod.fst ↔ k' = k ∨ k' ∈ d.map Prod.fst := by
  induction d with
  | nil => simp [set]
  | cons e d ih =>
    rw [set]
    split_ifs with hk
    · subst hk
      simp
    · rw [List.map_cons, List.mem_cons, ih, List.map_cons, List.mem_cons]
      tauto

theorem nodup_set {d : Dict α β} (hd : (d.map Prod.fst).Nodup) (k : α) (v : β) :
    ((set d k v).map Prod.fst).Nodup := by
  induction d with
  | nil => simp [set]
  | cons e d ih =>
    rw [List.map_cons, List.nodup_cons] at hd
    rw [set]
    split_ifs with hk
    · rw [List.map_cons, List.nodup_cons]
      exact hd
    · rw [List.map_cons, List.nodup_cons, mem_keys_set, not_or]
      exact ⟨⟨hk, hd.1⟩, ih hd.2⟩

/-- Of defaults set one after another, the first of a key stays. -/
theorem get_foldl_setDefault {γ : Type*} (key : γ → α) (value : γ → β) (xs : List γ) (k : α) :
    get (xs.foldl (fun d x => (setDefault d (key x) (value x)).1) []) k =
      (xs.find? fun x => decide (key x = k)).map value := by
  have hfold : ∀ d : Dict α β,
      get (xs.foldl (fun d x => (setDefault d (key x) (value x)).1) d) k =
        (get d k).or ((xs.find? fun x => decide (key x = k)).map value) := by
    induction xs with
    | nil => simp
    | cons x xs ih =>
      intro d
      rw [List.foldl_cons, ih]
      cases hget : get d k with
      | some a => rw [get_setDefault_of_some hget, Option.some_or, Option.some_or]
      | none =>
        rw [get_setDefault_of_none hget, Option.none_or]
        by_cases hk : key x = k <;> simp [hk]
  simpa [get] using hfold []

end Dict

/-- A float of the decoder. -/
inductive PyFloat
  | finite (q : ℚ)
  | infinity
  | negInfinity
  | nan
  deriving DecidableEq

inductive Json
  | null
  | bool (b : Bool)
  | int (n : ℤ)
  | float (x : PyFloat)
  | str (s : Text)
  | arr (items : List Json)
  | obj (fields : List (Text × Json))

namespace Json

/-- The value of a key, of an object only. -/
def get (j : Json) (key : String) : Option Json :=
  match j with
  | .obj fields => Dict.get fields key.toList
  | _ => none

/-- Truth of a value in a condition. -/
def truthy : Json → Bool
  | .null => false
  | .bool b => b
  | .int n => decide (n ≠ 0)
  | .float x => decide (x ≠ .finite 0)
  | .str s => !s.isEmpty
  | .arr items => !items.isEmpty
  | .obj fields => !fields.isEmpty

def isObj : Json → Bool
  | .obj _ => true
  | _ => false

end Json

end CompanionBackend.Dictionaries
