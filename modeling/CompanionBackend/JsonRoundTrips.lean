import Mathlib.Data.List.Chain
import CompanionBackend.JsonTexts

/-!
# What is dumped is loaded

A text that `json.dumps` has written of strings, arrays and objects is read as the same document,
provided that no string has a low surrogate right behind a high one.
-/
namespace CompanionBackend.JsonTexts

open Dictionaries

/-! ### Escapes -/

/-- No high surrogate is followed by a low one. -/
def NoPair (s : PyStr) : Prop := s.IsChain fun a b => ¬(isHigh a.val = true ∧ isLow b.val = true)

/-- A way of writing points such that the string is read back. -/
structure Writer (write : Point → PyStr) : Prop where
  ne : ∀ c, write c ≠ []
  read : ∀ c n rest, (isHigh c.val = true → lowAhead rest = none) →
    takeString (n + 1) (write c ++ rest) = (takeString n rest).bind fun y => some (c :: y.1, y.2)
  ahead : ∀ c rest, isLow c.val = false → lowAhead (write c ++ rest) = none

/-- `s` is read behind its first quote, when `write` has written its points. -/
def Reads (write : Point → PyStr) (s : PyStr) : Prop :=
  ∀ n rest, s.length < n → takeString n (s.flatMap write ++ pt '"' :: rest) = some (s, rest)

theorem takeString_quote (n : ℕ) (rest : PyStr) :
    takeString (n + 1) (pt '"' :: rest) = some ([], rest) := by
  rw [takeString, if_pos rfl]

theorem Writer.reads {write : Point → PyStr} (hw : Writer write) {s : PyStr} (h : NoPair s) :
    Reads write s := by
  induction s with
  | nil =>
    intro n rest hn
    obtain ⟨m, rfl⟩ : ∃ m, n = m + 1 := ⟨n - 1, by simp at hn; omega⟩
    exact takeString_quote m rest
  | cons c s ih =>
    intro n rest hn
    obtain ⟨m, rfl⟩ : ∃ m, n = m + 1 := ⟨n - 1, by simp at hn; omega⟩
    obtain ⟨hhead, hs⟩ := List.isChain_cons.mp h
    have hahead : isHigh c.val = true → lowAhead (s.flatMap write ++ pt '"' :: rest) = none := by
      intro hhigh
      cases s with
      | nil =>
        have hne : pt '"' ≠ pt '\\' := by decide
        cases rest <;> simp [lowAhead, hne]
      | cons d s =>
        have hlow : isLow d.val = false := by simpa [hhigh] using hhead d rfl
        rw [List.flatMap_cons, List.append_assoc]
        exact hw.ahead d _ hlow
    rw [List.flatMap_cons, List.append_assoc, hw.read c m _ hahead,
      ih hs m rest (by simpa using hn), Option.bind_some]

/-! ### Documents -/

theorem set_of_notMem {β : Type*} {d : List (PyStr × β)} {k : PyStr} {v : β}
    (h : k ∉ d.map Prod.fst) : Dict.set d k v = d ++ [(k, v)] := by
  induction d with
  | nil => rfl
  | cons e d ih =>
    rw [List.map_cons, List.mem_cons, not_or] at h
    rw [Dict.set, if_neg (Ne.symm h.1), ih h.2, List.cons_append]

theorem foldl_set {d ms : List (PyStr × Value)} (h : ((d ++ ms).map Prod.fst).Nodup) :
    ms.foldl (fun d m => Dict.set d m.1 m.2) d = d ++ ms := by
  induction ms generalizing d with
  | nil => simp
  | cons m ms ih =>
    have hnew : m.1 ∉ d.map Prod.fst := by
      rw [List.map_append, List.nodup_append] at h
      intro hmem
      exact h.2.2 _ hmem _ (by simp) rfl
    rw [List.foldl_cons, set_of_notMem hnew, ih (by simpa using h)]
    simp

/-- Members of distinct keys are kept as they are. -/
theorem dictOf_eq {ms : List (PyStr × Value)} (h : (ms.map Prod.fst).Nodup) : dictOf ms = ms := by
  have := foldl_set (d := []) (by simpa using h)
  simpa [dictOf] using this

mutual

/-- A document of strings, arrays and objects that is read back once it is written. -/
def Good : Value → Prop
  | .null | .bool _ | .num _ => False
  | .str s => NoPair s
  | .arr items => GoodItems items
  | .obj fields => (fields.map Prod.fst).Nodup ∧ GoodFields fields

def GoodItems : List Value → Prop
  | [] => True
  | v :: vs => Good v ∧ GoodItems vs

def GoodFields : List (PyStr × Value) → Prop
  | [] => True
  | (k, v) :: ms => NoPair k ∧ Good v ∧ GoodFields ms

end

mutual

/-- How many calls deep a document is read. -/
def depth : Value → ℕ
  | .null | .bool _ | .num _ | .str _ => 1
  | .arr items => 1 + depthItems items
  | .obj fields => 1 + depthFields fields

def depthItems : List Value → ℕ
  | [] => 0
  | v :: vs => 1 + max (depth v) (depthItems vs)

def depthFields : List (PyStr × Value) → ℕ
  | [] => 0
  | (_, v) :: ms => 1 + max (depth v) (depthFields ms)

end

variable {write : Point → PyStr}

theorem length_flatMap (hw : Writer write) (s : PyStr) : s.length ≤ (s.flatMap write).length := by
  induction s with
  | nil => simp
  | cons c s ih =>
    have := List.length_pos_iff.mpr (hw.ne c)
    rw [List.flatMap_cons, List.length_append, List.length_cons]
    omega

theorem takeString_quoted (hw : Writer write) {s : PyStr} (h : NoPair s) (rest : PyStr) :
    takeString (s.flatMap write ++ pt '"' :: rest).length (s.flatMap write ++ pt '"' :: rest) =
      some (s, rest) := by
  have := length_flatMap hw s
  refine hw.reads h _ rest ?_
  rw [List.length_append, List.length_cons]
  omega

theorem skipBlanks_cons {c : Point} (h : isBlank c = false) (s : PyStr) :
    skipBlanks (c :: s) = c :: s := by
  simp [skipBlanks, h]

theorem skipBlanks_blank (s : PyStr) : skipBlanks (pt ' ' :: s) = skipBlanks s := by
  have : isBlank (pt ' ') = true := by decide
  simp [skipBlanks, this]

/-- A document starts with a quote or a bracket, and not with a closing one. -/
theorem layout_head {v : Value} (h : Good v) :
    ∃ c s, layout write v = c :: s ∧ isBlank c = false ∧ c ≠ pt ']' := by
  cases v with
  | null | bool | num => simp [Good] at h
  | str s => exact ⟨pt '"', _, by rw [layout, quote], by decide, by decide⟩
  | arr items => exact ⟨pt '[', _, by rw [layout], by decide, by decide⟩
  | obj fields => exact ⟨pt '\x7b', _, by rw [layout], by decide, by decide⟩

theorem skipBlanks_layout {v : Value} (h : Good v) (rest : PyStr) :
    skipBlanks (layout write v ++ rest) = layout write v ++ rest := by
  obtain ⟨c, s, hv, hblank, -⟩ := layout_head h
  rw [hv, List.cons_append, skipBlanks_cons hblank]

theorem layoutItems_cons (v : Value) (vs : List Value) :
    layoutItems write (v :: vs) = layout write v ++
      (if vs = [] then [pt ']'] else pt ',' :: pt ' ' :: layoutItems write vs) := by
  cases vs <;> simp [layoutItems]

theorem layoutFields_cons (k : PyStr) (v : Value) (ms : List (PyStr × Value)) :
    layoutFields write ((k, v) :: ms) = pt '"' :: (k.flatMap write ++ pt '"' :: pt ':' :: pt ' ' ::
      (layout write v ++
        (if ms = [] then [pt '\x7d'] else pt ',' :: pt ' ' :: layoutFields write ms))) := by
  cases ms <;> simp [layoutFields, quote]

theorem layoutItems_head {vs : List Value} (hvs : vs ≠ []) (h : GoodItems vs) :
    ∃ c s, layoutItems write vs = c :: s ∧ isBlank c = false ∧ c ≠ pt ']' := by
  cases vs with
  | nil => exact absurd rfl hvs
  | cons v vs =>
    obtain ⟨c, s, hv, hblank, hne⟩ := layout_head h.1
    exact ⟨c, _, by rw [layoutItems_cons, hv, List.cons_append], hblank, hne⟩

/-- The next item or the end, behind a value. -/
theorem takeItems_step {n : ℕ} {s : PyStr} {v : Value} {rest : PyStr}
    (h : takeValue n s = some (v, rest)) :
    takeItems (n + 1) s = match skipBlanks rest with
      | c :: rest =>
        if c = pt ']' then some ([v], rest)
        else if c = pt ',' then (takeItems n (skipBlanks rest)).map fun x => (v :: x.1, x.2)
        else none
      | [] => none := by
  rw [takeItems, h]
  simp only [Option.bind_eq_bind, Option.bind_some]
  cases skipBlanks rest with
  | nil => rfl
  | cons c rest =>
    simp only
    split
    · rfl
    · split
      · cases takeItems n (skipBlanks rest) <;> rfl
      · rfl

/-- A member, and the next one or the end. -/
theorem takeMembers_step (hw : Writer write) {n : ℕ} {k : PyStr} (hk : NoPair k)
    {s rest : PyStr} {v : Value} (h : takeValue n (skipBlanks s) = some (v, rest)) :
    takeMembers (n + 1) (pt '"' :: (k.flatMap write ++ pt '"' :: pt ':' :: s)) =
      match skipBlanks rest with
      | c :: rest =>
        if c = pt '\x7d' then some ([(k, v)], rest)
        else if c = pt ',' then (takeMembers n (skipBlanks rest)).map fun x => ((k, v) :: x.1, x.2)
        else none
      | [] => none := by
  have hcolon : isBlank (pt ':') = false := by decide
  rw [takeMembers, if_pos rfl, takeString_quoted hw hk]
  simp only [Option.bind_eq_bind, Option.bind_some, skipBlanks_cons hcolon, if_true, h]
  cases skipBlanks rest with
  | nil => rfl
  | cons c rest =>
    simp only
    split
    · rfl
    · split
      · cases takeMembers n (skipBlanks rest) <;> rfl
      · rfl

mutual

theorem takeValue_layout (hw : Writer write) {v : Value} (hv : Good v) {n : ℕ}
    (hn : depth v ≤ n) (rest : PyStr) :
    takeValue n (layout write v ++ rest) = some (v, rest) := by
  match v with
  | .null | .bool _ | .num _ => simp [Good] at hv
  | .str s =>
    simp only [depth] at hn
    obtain ⟨m, rfl⟩ : ∃ m, n = m + 1 := ⟨n - 1, by omega⟩
    simp only [layout, quote, List.cons_append, List.append_assoc, List.nil_append, takeValue,
      if_true, takeString_quoted hw hv, Option.map_some]
  | .arr items =>
    simp only [depth] at hn
    obtain ⟨m, rfl⟩ : ∃ m, n = m + 1 := ⟨n - 1, by omega⟩
    have hquote : pt '[' ≠ pt '"' := by decide
    have hbrace : pt '[' ≠ pt '\x7b' := by decide
    have hend : isBlank (pt ']') = false := by decide
    simp only [layout, List.cons_append, takeValue, if_neg hquote, if_neg hbrace, if_true]
    by_cases hitems : items = []
    · subst hitems
      simp only [layoutItems, List.cons_append, List.nil_append, skipBlanks_cons hend, List.head?_cons,
        List.tail_cons, if_true]
    · obtain ⟨c, s, hs, hblank, hne⟩ := layoutItems_head hitems hv
      have hread := takeItems_layout hw hitems hv (n := m) (by omega) rest
      rw [hs, List.cons_append] at hread ⊢
      simp only [skipBlanks_cons hblank, List.head?_cons, Option.some.injEq, if_neg hne, hread,
        Option.map_some]
  | .obj fields =>
    simp only [depth] at hn
    obtain ⟨m, rfl⟩ : ∃ m, n = m + 1 := ⟨n - 1, by omega⟩
    have hquote : pt '\x7b' ≠ pt '"' := by decide
    have hend : isBlank (pt '\x7d') = false := by decide
    have hmark : isBlank (pt '"') = false := by decide
    have hne : pt '"' ≠ pt '\x7d' := by decide
    simp only [layout, List.cons_append, takeValue, if_neg hquote, if_true]
    cases fields with
    | nil =>
      simp only [layoutFields, List.cons_append, List.nil_append, skipBlanks_cons hend,
        List.head?_cons, List.tail_cons, if_true]
    | cons m' ms =>
      have hread := takeMembers_layout hw (by simp) hv.2 (n := m) (by omega) rest
      obtain ⟨k, v⟩ := m'
      rw [layoutFields_cons, List.cons_append] at hread ⊢
      simp only [skipBlanks_cons hmark, List.head?_cons, Option.some.injEq, if_neg hne, hread,
        Option.map_some, dictOf_eq hv.1]

theorem takeItems_layout (hw : Writer write) {vs : List Value} (hvs : vs ≠ [])
    (hgood : GoodItems vs) {n : ℕ} (hn : depthItems vs ≤ n) (rest : PyStr) :
    takeItems n (layoutItems write vs ++ rest) = some (vs, rest) := by
  match vs with
  | [] => exact absurd rfl hvs
  | v :: vs =>
    simp only [depthItems] at hn
    obtain ⟨m, rfl⟩ : ∃ m, n = m + 1 := ⟨n - 1, by omega⟩
    have hend : isBlank (pt ']') = false := by decide
    have hcomma : isBlank (pt ',') = false := by decide
    have hne : pt ',' ≠ pt ']' := by decide
    have hvalue := fun r => takeValue_layout hw hgood.1 (n := m) (by omega) r
    rw [layoutItems_cons, List.append_assoc, takeItems_step (hvalue _)]
    by_cases hnil : vs = []
    · subst hnil
      simp only [if_true, List.cons_append, List.nil_append, skipBlanks_cons hend]
    · obtain ⟨c, s, hs, hblank, -⟩ := layoutItems_head hnil hgood.2
      have hread := takeItems_layout hw hnil hgood.2 (n := m) (by omega) rest
      rw [hs, List.cons_append] at hread
      simp only [if_neg hnil, List.cons_append, skipBlanks_cons hcomma, if_neg hne, if_true,
        skipBlanks_blank, hs, skipBlanks_cons hblank, hread, Option.map_some]

theorem takeMembers_layout (hw : Writer write) {ms : List (PyStr × Value)} (hms : ms ≠ [])
    (hgood : GoodFields ms) {n : ℕ} (hn : depthFields ms ≤ n) (rest : PyStr) :
    takeMembers n (layoutFields write ms ++ rest) = some (ms, rest) := by
  match ms with
  | [] => exact absurd rfl hms
  | (k, v) :: ms =>
    simp only [depthFields] at hn
    obtain ⟨m, rfl⟩ : ∃ m, n = m + 1 := ⟨n - 1, by omega⟩
    have hend : isBlank (pt '\x7d') = false := by decide
    have hcomma : isBlank (pt ',') = false := by decide
    have hmark : isBlank (pt '"') = false := by decide
    have hne : pt ',' ≠ pt '\x7d' := by decide
    have hvalue := fun r => takeValue_layout hw hgood.2.1 (n := m) (by omega) r
    have hstart := fun r => (skipBlanks_blank (layout write v ++ r)).trans
      (skipBlanks_layout hgood.2.1 r)
    rw [layoutFields_cons]
    simp only [List.cons_append, List.append_assoc]
    rw [takeMembers_step hw hgood.1 ((congrArg _ (hstart _)).trans (hvalue _))]
    cases ms with
    | nil => simp only [if_true, List.cons_append, List.nil_append, skipBlanks_cons hend]
    | cons m' ms =>
      have hread := takeMembers_layout hw (by simp) hgood.2.2 (n := m) (by omega) rest
      obtain ⟨k', v'⟩ := m'
      rw [layoutFields_cons, List.cons_append] at hread
      simp only [reduceCtorEq, if_false, List.cons_append, skipBlanks_cons hcomma, if_neg hne,
        if_true, skipBlanks_blank, layoutFields_cons, skipBlanks_cons hmark, hread, Option.map_some]

end

mutual

theorem depth_le {v : Value} (hv : Good v) : depth v ≤ (layout write v).length := by
  match v with
  | .null | .bool _ | .num _ => simp [Good] at hv
  | .str s => simp [depth, layout, quote]
  | .arr items =>
    have := depthItems_le hv
    simp only [depth, layout, List.length_cons]
    omega
  | .obj fields =>
    have := depthFields_le hv.2
    simp only [depth, layout, List.length_cons]
    omega

theorem depthItems_le {vs : List Value} (h : GoodItems vs) :
    depthItems vs ≤ (layoutItems write vs).length := by
  match vs with
  | [] => simp [depthItems]
  | v :: vs =>
    have hv := depth_le h.1
    have hvs := depthItems_le h.2
    rw [layoutItems_cons, List.length_append, depthItems]
    split
    next hnil =>
      simp only [hnil, depthItems, List.length_singleton]
      omega
    next =>
      simp only [List.length_cons]
      omega

theorem depthFields_le {ms : List (PyStr × Value)} (h : GoodFields ms) :
    depthFields ms ≤ (layoutFields write ms).length := by
  match ms with
  | [] => simp [depthFields]
  | (k, v) :: ms =>
    have hv := depth_le h.2.1
    have hms := depthFields_le h.2.2
    rw [layoutFields_cons]
    simp only [depthFields, List.length_cons, List.length_append]
    split
    next hnil =>
      simp only [hnil, depthFields]
      omega
    next =>
      simp only [List.length_cons]
      omega

end

end CompanionBackend.JsonTexts
