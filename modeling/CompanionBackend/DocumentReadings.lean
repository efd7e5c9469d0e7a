import CompanionBackend.JsonDocuments

/-!
# Documents that read the same

What a document answers is the shape of the value at each path. Two documents with the same
answers differ at most in the order of their keys.
-/
namespace CompanionBackend.Dictionaries

open ProviderEvents

namespace Json

/-- A value without what is below it. -/
inductive Shape
  | null
  | bool (b : Bool)
  | int (n : ℤ)
  | float (x : PyFloat)
  | str (s : Text)
  | arr (length : ℕ)
  | obj

def shape : Json → Shape
  | .null => .null
  | .bool b => .bool b
  | .int n => .int n
  | .float x => .float x
  | .str s => .str s
  | .arr items => .arr items.length
  | .obj _ => .obj

/-- One level down. -/
inductive Place
  | key (k : Text)
  | item (i : ℕ)

def child (j : Json) (p : Place) : Option Json :=
  match j, p with
  | .obj fields, .key k => Dict.get fields k
  | .arr items, .item i => items[i]?
  | _, _ => none

def read : List Place → Json → Option Shape
  | [], j => some j.shape
  | p :: path, j => (j.child p).bind (read path)

/-- The same answer at each path. -/
def Same (a b : Json) : Prop := ∀ path, read path a = read path b

theorem Same.refl (a : Json) : Same a a := fun _ => rfl

theorem Same.shape {a b : Json} (h : Same a b) : a.shape = b.shape := Option.some.inj (h [])

/-- What is below two such values, if anything, is two such values. -/
theorem Same.child {a b : Json} (h : Same a b) (p : Place) :
    Option.Rel Same (a.child p) (b.child p) := by
  have hroot := h [p]
  cases hx : a.child p with
  | none =>
    cases hy : b.child p with
    | none => exact .none
    | some y => simp [read, hx, hy] at hroot
  | some x =>
    cases hy : b.child p with
    | none => simp [read, hx, hy] at hroot
    | some y =>
      refine .some fun path => ?_
      simpa [read, hx, hy] using h (p :: path)

theorem get_eq_child (j : Json) (key : String) : j.get key = j.child (.key key.toList) := by
  cases j <;> rfl

theorem Same.field {a b : Json} (h : Same a b) (key : String) :
    Same (a.field key) (b.field key) := by
  rw [Json.field, Json.field, get_eq_child, get_eq_child]
  generalize ha : a.child (.key key.toList) = x
  generalize hb : b.child (.key key.toList) = y
  have hrel := h.child (.key key.toList)
  rw [ha, hb] at hrel
  cases hrel with
  | none => exact .refl _
  | some hxy => exact hxy

/-- The items of two such lists have the same shapes. -/
theorem Same.items {xs ys : List Json} (h : Same (.arr xs) (.arr ys)) :
    xs.map Json.shape = ys.map Json.shape := by
  refine List.ext_getElem? fun i => ?_
  have hrel := h.child (.item i)
  rw [List.getElem?_map, List.getElem?_map]
  simp only [Json.child] at hrel
  generalize xs[i]? = x at hrel
  generalize ys[i]? = y at hrel
  cases hrel with
  | none => rfl
  | some hxy => exact congrArg some hxy.shape

/-- A value that is neither a list nor an object is known by its shape. -/
theorem eq_of_shape {a b : Json} (h : a.shape = b.shape) (ha : a.hashable = true) : a = b := by
  cases a <;> cases b <;> simp_all [Json.shape, hashable]

theorem hashable_of_shape {a b : Json} (h : a.shape = b.shape) : a.hashable = b.hashable := by
  cases a <;> cases b <;> simp_all [Json.shape, hashable]

theorem Same.isStr {a b : Json} (h : Same a b) (s : String) : a.isStr s = b.isStr s := by
  by_cases ha : a.hashable = true
  · rw [eq_of_shape h.shape ha]
  · have hb : ¬b.hashable = true := hashable_of_shape h.shape ▸ ha
    cases a <;> cases b <;> simp_all [Json.isStr, hashable]

/-- Whether a number occurs in a list depends on the shapes only. -/
theorem pyEq_int_of_shape {a b : Json} (n : ℤ) (h : a.shape = b.shape) :
    pyEq (.int n) a = pyEq (.int n) b := by
  by_cases ha : a.hashable = true
  · rw [eq_of_shape h ha]
  · have hb : ¬b.hashable = true := hashable_of_shape h ▸ ha
    cases a <;> cases b <;> simp_all [pyEq, numEq, number, hashable]

theorem any_pyEq_int_of_shapes {xs ys : List Json} (n : ℤ)
    (h : xs.map Json.shape = ys.map Json.shape) :
    (xs.any fun item => pyEq (.int n) item) = ys.any fun item => pyEq (.int n) item := by
  induction xs generalizing ys with
  | nil =>
    obtain rfl : ys = [] := List.map_eq_nil_iff.mp h.symm
    rfl
  | cons x xs ih =>
    obtain ⟨y, ys, rfl, hy, hys⟩ := List.map_eq_cons_iff.mp h.symm
    rw [List.any_cons, List.any_cons, ih hys.symm, pyEq_int_of_shape n hy.symm]

/-! ### A check of equality -/

mutual

/-- The same value, with the same order of its keys. -/
def eqb : Json → Json → Bool
  | .null, .null => true
  | .bool a, .bool b => decide (a = b)
  | .int m, .int n => decide (m = n)
  | .float x, .float y => decide (x = y)
  | .str s, .str t => decide (s = t)
  | .arr xs, .arr ys => eqbItems xs ys
  | .obj a, .obj b => eqbFields a b
  | _, _ => false

def eqbItems : List Json → List Json → Bool
  | [], [] => true
  | x :: xs, y :: ys => eqb x y && eqbItems xs ys
  | _, _ => false

def eqbFields : List (Text × Json) → List (Text × Json) → Bool
  | [], [] => true
  | (k, v) :: a, (k', v') :: b => decide (k = k') && eqb v v' && eqbFields a b
  | _, _ => false

end

mutual

theorem eq_of_eqb : ∀ {a b : Json}, eqb a b = true → a = b
  | .null, b, h => by cases b <;> simp_all [eqb]
  | .bool _, b, h => by cases b <;> simp_all [eqb]
  | .int _, b, h => by cases b <;> simp_all [eqb]
  | .float _, b, h => by cases b <;> simp_all [eqb]
  | .str _, b, h => by cases b <;> simp_all [eqb]
  | .arr xs, b, h => by
    cases b with
    | arr ys => exact congrArg Json.arr (eq_of_eqbItems (by simpa [eqb] using h))
    | _ => simp [eqb] at h
  | .obj a, b, h => by
    cases b with
    | obj b => exact congrArg Json.obj (eq_of_eqbFields (by simpa [eqb] using h))
    | _ => simp [eqb] at h

theorem eq_of_eqbItems : ∀ {xs ys : List Json}, eqbItems xs ys = true → xs = ys
  | [], ys, h => by cases ys <;> simp_all [eqbItems]
  | x :: xs, ys, h => by
    cases ys with
    | nil => simp [eqbItems] at h
    | cons y ys =>
      obtain ⟨hhead, htail⟩ := Bool.and_eq_true_iff.mp h
      rw [eq_of_eqb hhead, eq_of_eqbItems htail]

theorem eq_of_eqbFields : ∀ {a b : List (Text × Json)}, eqbFields a b = true → a = b
  | [], b, h => by cases b <;> simp_all [eqbFields]
  | (k, v) :: a, b, h => by
    cases b with
    | nil => simp [eqbFields] at h
    | cons e b =>
      obtain ⟨hhead, htail⟩ := Bool.and_eq_true_iff.mp h
      obtain ⟨hkey, hvalue⟩ := Bool.and_eq_true_iff.mp hhead
      obtain ⟨k', v'⟩ := e
      rw [of_decide_eq_true hkey, eq_of_eqb hvalue, eq_of_eqbFields htail]

end

end Json

end CompanionBackend.Dictionaries
