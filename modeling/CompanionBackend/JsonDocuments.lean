import CompanionBackend.Dictionaries

/-!
# Reading, changing and comparing documents

Readers of a document take a missing key and a null for the same. Two values are equal
as values of the language: numbers compare across their types and truth values are
numbers, the order of keys does not count, and a NaN equals nothing.
-/
namespace CompanionBackend.Dictionaries

open ProviderEvents

namespace Dict

variable {α β : Type*} [DecidableEq α]

theorem get_map (keys : List α) (f : α → β) (k : α) :
    get (keys.map fun k => (k, f k)) k = if k ∈ keys then some (f k) else none := by
  induction keys with
  | nil => rfl
  | cons k' keys ih =>
    by_cases h : k' = k
    · subst h
      simp [get]
    · simp [get, h, ih, Ne.symm h]

theorem get_pop_ne {d : Dict α β} {k k' : α} (h : k ≠ k') : get (pop d k) k' = get d k' := by
  induction d with
  | nil => rfl
  | cons e d ih =>
    by_cases he : e.1 = k
    · simpa [pop, get, he, h] using ih
    · by_cases hk : e.1 = k'
      · simp [pop, get, hk, Ne.symm h]
      · simpa [pop, get, he, hk] using ih

end Dict

namespace Json

/-- `value.get(key)`. -/
def field (j : Json) (key : String) : Json := (j.get key).getD .null

/-- `value[key] = v`, of an object only. -/
def put (j : Json) (key : String) (v : Json) : Json :=
  match j with
  | .obj fields => .obj (Dict.set fields key.toList v)
  | _ => j

/-- `value.update(entries)`. -/
def update (j : Json) (entries : List (String × Json)) : Json :=
  entries.foldl (fun j e => j.put e.1 e.2) j

/-- `value.pop(key, None)`. -/
def remove (j : Json) (key : String) : Json :=
  match j with
  | .obj fields => .obj (Dict.pop fields key.toList)
  | _ => j

def has (j : Json) (key : String) : Bool := (j.get key).isSome

/-- The value is this string. -/
def isStr (j : Json) (s : String) : Bool :=
  match j with
  | .str t => decide (t = s.toList)
  | _ => false

/-- The value is one of these strings. -/
def strIn (j : Json) (options : List String) : Bool := options.any j.isStr

def isBool : Json → Bool
  | .bool _ => true
  | _ => false

/-- `isinstance(value, str)`. -/
def isText : Json → Bool
  | .str _ => true
  | _ => false

/-- A value that can be looked up in a set. -/
def hashable : Json → Bool
  | .arr _ | .obj _ => false
  | _ => true

@[simp] theorem isStr_iff {j : Json} {s : String} : j.isStr s = true ↔ j = .str s.toList := by
  cases j <;> simp [isStr]

@[simp] theorem strIn_iff {j : Json} {options : List String} :
    j.strIn options = true ↔ ∃ s ∈ options, j = .str s.toList := by
  simp [strIn]

theorem isBool_iff {j : Json} : j.isBool = true ↔ ∃ b, j = .bool b := by
  cases j <;> simp [isBool]

theorem isObj_iff {j : Json} : j.isObj = true ↔ ∃ fields, j = .obj fields := by
  cases j <;> simp [isObj]

@[simp] theorem isObj_put (j : Json) (key : String) (v : Json) :
    (j.put key v).isObj = j.isObj := by
  cases j <;> rfl

@[simp] theorem isObj_remove (j : Json) (key : String) : (j.remove key).isObj = j.isObj := by
  cases j <;> rfl

theorem field_put {j : Json} (hj : j.isObj = true) (key key' : String) (v : Json) :
    (j.put key v).field key' = if key = key' then v else j.field key' := by
  obtain ⟨fields, rfl⟩ := isObj_iff.mp hj
  by_cases h : key = key'
  · subst h
    simp [field, put, get]
  · have hne : key.toList ≠ key'.toList := mt String.toList_inj.mp h
    simp [field, put, get, Dict.get_set_ne hne, h]

theorem field_put_self {j : Json} (hj : j.isObj = true) (key : String) (v : Json) :
    (j.put key v).field key = v := by
  simp [field_put hj]

theorem get_put_ne {j : Json} {key key' : String} (h : key ≠ key') (v : Json) :
    (j.put key v).get key' = j.get key' := by
  have hne : key.toList ≠ key'.toList := mt String.toList_inj.mp h
  cases j with
  | obj fields => simp [put, get, Dict.get_set_ne hne]
  | _ => rfl

theorem field_put_ne {j : Json} {key key' : String} (h : key ≠ key') (v : Json) :
    (j.put key v).field key' = j.field key' := by
  rw [field, get_put_ne h, field]

theorem isObj_update (j : Json) (entries : List (String × Json)) :
    (j.update entries).isObj = j.isObj := by
  induction entries generalizing j with
  | nil => rfl
  | cons e entries ih => exact (ih (j.put e.1 e.2)).trans (isObj_put j e.1 e.2)

/-- A key that is not among the entries keeps its value. -/
theorem field_update_ne {j : Json} {entries : List (String × Json)} {key : String}
    (h : ∀ e ∈ entries, e.1 ≠ key) : (j.update entries).field key = j.field key := by
  induction entries generalizing j with
  | nil => rfl
  | cons e entries ih =>
    have hrest := ih (j := j.put e.1 e.2) fun e' he' => h e' (List.mem_cons_of_mem e he')
    exact hrest.trans (field_put_ne (h e List.mem_cons_self) e.2)

/-- A key that occurs once among the entries gets its value. -/
theorem field_update_of_mem {j : Json} {entries : List (String × Json)} {key : String} {v : Json}
    (hj : j.isObj = true) (hnodup : (entries.map Prod.fst).Nodup) (h : (key, v) ∈ entries) :
    (j.update entries).field key = v := by
  induction entries generalizing j with
  | nil => simp at h
  | cons e entries ih =>
    obtain ⟨hhead, htail⟩ := List.nodup_cons.mp hnodup
    rcases List.mem_cons.mp h with rfl | hmem
    · have hne : ∀ e' ∈ entries, e'.1 ≠ key := by
        intro e' he' heq
        have hmap : e'.1 ∈ entries.map Prod.fst := List.mem_map_of_mem he'
        exact hhead (heq ▸ hmap)
      exact (field_update_ne hne).trans (field_put_self hj key v)
    · exact ih (by simpa using hj) htail hmem

theorem field_of_not_isObj {j : Json} (h : j.isObj = false) (key : String) :
    j.field key = .null := by
  cases j <;> simp_all [isObj, field, get]

theorem get_remove_ne {j : Json} {key key' : String} (h : key ≠ key') :
    (j.remove key).get key' = j.get key' := by
  have hne : key.toList ≠ key'.toList := mt String.toList_inj.mp h
  cases j with
  | obj fields => simp [remove, get, Dict.get_pop_ne hne]
  | _ => rfl

theorem field_remove_ne {j : Json} {key key' : String} (h : key ≠ key') :
    (j.remove key).field key' = j.field key' := by
  rw [field, get_remove_ne h, field]

theorem has_remove_ne {j : Json} {key key' : String} (h : key ≠ key') :
    (j.remove key).has key' = j.has key' := by
  rw [has, get_remove_ne h, has]

theorem has_put_ne {j : Json} {key key' : String} (h : key ≠ key') (v : Json) :
    (j.put key v).has key' = j.has key' := by
  rw [has, get_put_ne h, has]

theorem isObj_of_has {j : Json} {key : String} (h : j.has key = true) : j.isObj = true := by
  cases j <;> simp_all [has, get, isObj]

theorem truthy_of_has {j : Json} {key : String} (h : j.has key = true) : j.truthy = true := by
  obtain ⟨fields, rfl⟩ := isObj_iff.mp (isObj_of_has h)
  cases fields with
  | nil => simp [has, get, Dict.get] at h
  | cons e fields => rfl

/-! ### Equality of values -/

/-- The number of a value, `True` being one. -/
def number : Json → Option PyFloat
  | .bool b => some (.finite (if b then 1 else 0))
  | .int n => some (.finite n)
  | .float x => some x
  | _ => none

def numEq (a b : Json) : Bool :=
  match number a, number b with
  | some x, some y => decide (x = y ∧ x ≠ .nan)
  | _, _ => false

mutual

/-- `a == b`. -/
def pyEq : Json → Json → Bool
  | .null, .null => true
  | .str a, .str b => decide (a = b)
  | .arr a, .arr b => pyEqItems a b
  | .obj a, .obj b => decide (a.length = b.length) && pyEqFields a b
  | .bool a, b => numEq (.bool a) b
  | .int a, b => numEq (.int a) b
  | .float a, b => numEq (.float a) b
  | _, _ => false

def pyEqItems : List Json → List Json → Bool
  | [], [] => true
  | x :: xs, y :: ys => pyEq x y && pyEqItems xs ys
  | _, _ => false

def pyEqFields : List (Text × Json) → List (Text × Json) → Bool
  | [], _ => true
  | e :: rest, b =>
    (match Dict.get b e.1 with
      | some w => pyEq e.2 w
      | none => false) && pyEqFields rest b

end

@[simp] theorem pyEq_str_left {s : Text} {j : Json} : pyEq (.str s) j = true ↔ j = .str s := by
  cases j <;> simp [pyEq, eq_comm]

theorem pyEq_bool (a b : Bool) : pyEq (.bool a) (.bool b) = decide (a = b) := by
  cases a <;> cases b <;> rfl

/-- Every entry of an object has its equal in an equal object. -/
theorem pyEq_obj_get {a b : List (Text × Json)} {e : Text × Json}
    (h : pyEq (.obj a) (.obj b) = true) (he : e ∈ a) :
    ∃ w, Dict.get b e.1 = some w ∧ pyEq e.2 w = true := by
  have hfields : pyEqFields a b = true := (Bool.and_eq_true_iff.mp h).2
  clear h
  induction a with
  | nil => simp at he
  | cons e' a ih =>
    obtain ⟨hhead, htail⟩ := Bool.and_eq_true_iff.mp hfields
    rcases List.mem_cons.mp he with rfl | hmem
    · cases hget : Dict.get b e.1 with
      | none => simp [hget] at hhead
      | some w => exact ⟨w, rfl, by simpa [hget] using hhead⟩
    · exact ih hmem htail

end Json

end CompanionBackend.Dictionaries
