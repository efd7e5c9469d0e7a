import Mathlib.Data.List.TakeWhile
import CompanionBackend.TextScanning

/-!
# Placeholders between double braces

A name that is not empty and holds no brace, between two pairs of braces, is a placeholder. Two of them
never overlap in a text. Replacing one name after the other is the same as filling all of them at once
as long as no placeholder stands in the filled text.
-/
namespace CompanionBackend.Placeholders

open TextScanning

abbrev Text := List Char

def isBrace (c : Char) : Bool := decide (c = '\x7b' ∨ c = '\x7d')

def IsName (name : Text) : Prop := name ≠ [] ∧ ∀ c ∈ name, isBrace c = false

instance (name : Text) : Decidable (IsName name) :=
  decidable_of_iff (name ≠ [] ∧ name.all (fun c => !isBrace c) = true) (by simp [IsName])

def placeholder (name : Text) : Text := '\x7b' :: '\x7b' :: (name ++ ['\x7d', '\x7d'])

/-- What stands before the next brace. -/
def upToBrace (text : Text) : Text := text.takeWhile fun c => !isBrace c

def holeAt : Reader Char Text
  | c :: d :: rest =>
    if c = '\x7b' ∧ d = '\x7b' ∧ upToBrace rest ≠ [] ∧
        ['\x7d', '\x7d'] <+: rest.drop (upToBrace rest).length then
      some ((upToBrace rest).length + 3, upToBrace rest)
    else none
  | _ => none

/-- All placeholders at once, if each of them has a value. -/
def fillAll (values : Text → Option Text) (text : Text) : Option Text :=
  if (findAll holeAt text).all fun name => (values name).isSome then
    some (sub holeAt (fun name => (values name).getD []) text)
  else none

/-- One name after the other, each in the text that the last one left. -/
def replaceEach (vars : List (Text × Text)) (text : Text) : Text :=
  vars.foldl (fun t e => replaceAll (placeholder e.1) e.2 t) text

/-! ### What begins with a placeholder -/

theorem upToBrace_name {name : Text} (h : ∀ c ∈ name, isBrace c = false) (rest : Text) :
    upToBrace (name ++ '\x7d' :: rest) = name := by
  induction name with
  | nil => rfl
  | cons c name ih =>
    rw [upToBrace, List.cons_append, List.takeWhile_cons_of_pos (by simp [h c (by simp)])]
    exact congrArg _ (ih fun d hd => h d (by simp [hd]))

theorem holeAt_placeholder {name : Text} (h : IsName name) (rest : Text) :
    holeAt (placeholder name ++ rest) = some (name.length + 3, name) := by
  have hname : upToBrace (name ++ ['\x7d', '\x7d'] ++ rest) = name := by
    rw [List.append_assoc]
    exact upToBrace_name h.2 _
  have hdrop : ['\x7d', '\x7d'] <+: (name ++ ['\x7d', '\x7d'] ++ rest).drop name.length := by
    rw [List.append_assoc, List.drop_left]
    exact List.prefix_append _ _
  change holeAt ('\x7b' :: '\x7b' :: (name ++ ['\x7d', '\x7d'] ++ rest)) = _
  rw [holeAt, hname, if_pos ⟨rfl, rfl, h.1, hdrop⟩]

theorem eq_of_holeAt {text name : Text} {n : ℕ} (h : holeAt text = some (n, name)) :
    IsName name ∧ n = name.length + 3 ∧ ∃ rest, text = placeholder name ++ rest := by
  match text with
  | [] => cases h
  | [_] => cases h
  | c :: d :: rest =>
    rw [holeAt] at h
    split_ifs at h with hif
    obtain ⟨rfl, rfl, hne, tail, htail⟩ := hif
    simp only [Option.some.injEq, Prod.mk.injEq] at h
    obtain ⟨hn, hm⟩ := h
    have hpre : upToBrace rest ++ rest.drop (upToBrace rest).length = rest :=
      List.prefix_iff_eq_append.mp (List.takeWhile_prefix _)
    rw [hm] at hne htail hn hpre
    refine ⟨⟨hne, fun c hc => ?_⟩, hn.symm, tail, ?_⟩
    · rw [← hm] at hc
      simpa using List.mem_takeWhile_imp hc
    · rw [placeholder, List.cons_append, List.cons_append, List.append_assoc, htail, hpre]

theorem holeAt_none {text : Text} (h : holeAt text = none) {name : Text} (hname : IsName name) :
    ¬ placeholder name <+: text := by
  rintro ⟨rest, rfl⟩
  rw [holeAt_placeholder hname] at h
  cases h

theorem prefix_placeholder {k m rest : Text} (hk : IsName k) (hm : IsName m)
    (h : placeholder k <+: placeholder m ++ rest) : k = m := by
  obtain ⟨tail, ht⟩ := h
  have hread := holeAt_placeholder hk tail
  rw [ht, holeAt_placeholder hm] at hread
  simp only [Option.some.injEq, Prod.mk.injEq] at hread
  exact hread.2.symm

/-- No placeholder begins inside another one. -/
theorem not_prefix_inside {m s : Text} (k rest : Text) (hm : IsName m) (hs : s ≠ [])
    (hsuf : s <:+ ('\x7b' :: (m ++ ['\x7d', '\x7d']))) : ¬ placeholder k <+: s ++ rest := by
  rw [List.suffix_cons_iff] at hsuf
  rcases hsuf with rfl | hsuf
  · -- The second brace is followed by a name, not by a brace.
    obtain ⟨c, m', rfl⟩ := List.exists_cons_of_ne_nil hm.1
    have hc := hm.2 c (by simp)
    simp only [placeholder, List.cons_append, List.cons_prefix_cons, true_and]
    rintro ⟨rfl, -⟩
    exact absurd hc (by decide)
  · obtain ⟨c, s', rfl⟩ := List.exists_cons_of_ne_nil hs
    have hc : c ∈ m ++ ['\x7d', '\x7d'] := hsuf.subset (by simp)
    have hne : c ≠ '\x7b' := by
      rintro rfl
      rw [List.mem_append] at hc
      rcases hc with hc | hc
      · exact absurd (hm.2 _ hc) (by decide)
      · exact absurd hc (by decide)
    simp only [placeholder, List.cons_append, List.cons_prefix_cons]
    exact fun h => hne h.1.symm

theorem infix_behind_placeholder {k m rest : Text} (hk : IsName k) (hm : IsName m) (hne : k ≠ m)
    (h : placeholder k <:+: placeholder m ++ rest) : placeholder k <:+: rest := by
  refine infix_behind (fun s hs hsuf => ?_) h
  rcases List.suffix_cons_iff.mp hsuf with rfl | hsuf
  · exact fun hp => hne (prefix_placeholder hk hm hp)
  · exact not_prefix_inside k rest hm hs hsuf

theorem replaceAll_other {k m rest : Text} (hk : IsName k) (hm : IsName m) (hne : k ≠ m)
    (value : Text) : replaceAll (placeholder k) value (placeholder m ++ rest) =
      placeholder m ++ replaceAll (placeholder k) value rest := by
  refine replaceAll_append fun s hs hsuf => ?_
  rcases List.suffix_cons_iff.mp hsuf with rfl | hsuf
  · exact fun hp => hne (prefix_placeholder hk hm hp)
  · exact not_prefix_inside k rest hm hs hsuf

/-! ### Reading a text's placeholders -/

theorem scan_placeholder {name : Text} (h : IsName name) (rest : Text) :
    scan holeAt (placeholder name ++ rest) = .item name :: scan holeAt rest := by
  have hread := holeAt_placeholder h rest
  have hlen : name.length + 3 = (placeholder name).length - 1 := by simp [placeholder]
  rw [hlen] at hread
  exact scan_item (by simp [placeholder]) hread

/-- Induction over the characters and placeholders of a text. -/
theorem hole_induction {P : Text → Prop} (nil : P [])
    (char : ∀ c rest, holeAt (c :: rest) = none → P rest → P (c :: rest))
    (hole : ∀ name rest, IsName name → P rest → P (placeholder name ++ rest)) (text : Text) :
    P text := by
  refine scan_induction holeAt nil char (fun c rest n name h ih => ?_) text
  obtain ⟨hname, hn, tail, ht⟩ := eq_of_holeAt h
  rw [ht]
  refine hole name tail hname ?_
  rw [placeholder, List.cons_append, List.cons_eq_cons] at ht
  have hlen : n = ('\x7b' :: (name ++ ['\x7d', '\x7d'])).length := by simp [hn]
  rwa [ht.2, hlen, List.drop_left] at ih

theorem items_named (text : Text) : ∀ m ∈ items (scan holeAt text), IsName m := by
  induction text using hole_induction with
  | nil => simp
  | char c rest h ih => rwa [scan_passed h, items_char]
  | hole name rest h ih =>
    rw [scan_placeholder h, items_item]
    intro m hm
    rcases List.mem_cons.mp hm with rfl | hm
    · exact h
    · exact ih m hm

theorem fill_scan (text : Text) : fill placeholder (scan holeAt text) = text := by
  induction text using hole_induction with
  | nil => rfl
  | char c rest h ih => rw [scan_passed h, fill_char, ih]
  | hole name rest h ih => rw [scan_placeholder h, fill_item, ih]

/-- The names read are those whose placeholder stands anywhere in the text. -/
theorem mem_items_iff {name : Text} (hname : IsName name) (text : Text) :
    name ∈ items (scan holeAt text) ↔ placeholder name <:+: text := by
  constructor
  · intro h
    have hin := fill_infix placeholder h
    rwa [fill_scan] at hin
  induction text using hole_induction with
  | nil => simp [placeholder]
  | char c rest h ih =>
    rw [List.infix_cons_iff, scan_passed h, items_char]
    rintro (hp | hin)
    · exact absurd hp (holeAt_none h hname)
    · exact ih hin
  | hole m rest h ih =>
    rw [scan_placeholder h, items_item, List.mem_cons]
    intro hin
    by_cases hm : name = m
    · exact .inl hm
    · exact .inr (ih (infix_behind_placeholder hname h hm hin))

/-! ### One name -/

/-- Replacing one name fills its placeholders and leaves all others. -/
theorem replaceAll_eq {k : Text} (hk : IsName k) (value text : Text) :
    replaceAll (placeholder k) value text =
      fill (fun m => if m = k then value else placeholder m) (scan holeAt text) := by
  induction text using hole_induction with
  | nil => rfl
  | char c rest h ih => rw [replaceAll_passed (holeAt_none h hk), scan_passed h, fill_char, ih]
  | hole m rest hm ih =>
    rw [scan_placeholder hm, fill_item]
    by_cases h : m = k
    · subst h
      rw [replaceAll_found (by simp [placeholder]), ih, if_pos rfl]
    · rw [replaceAll_other hk hm (Ne.symm h), ih, if_neg h]

/-- A placeholder of another name outlives every replacement. -/
theorem mem_items_replaceAll {k m : Text} (hk : IsName k) (hne : m ≠ k) {value text : Text}
    (h : m ∈ items (scan holeAt text)) :
    m ∈ items (scan holeAt (replaceAll (placeholder k) value text)) := by
  have hm : IsName m := items_named text m h
  rw [mem_items_iff hm, replaceAll_eq hk]
  have hin := fill_infix (fun n => if n = k then value else placeholder n) h
  rwa [if_neg hne] at hin

theorem mem_items_replaceEach {m : Text} {vars : List (Text × Text)}
    (hnames : ∀ e ∈ vars, IsName e.1) (hm : ∀ e ∈ vars, e.1 ≠ m) {text : Text}
    (h : m ∈ items (scan holeAt text)) :
    m ∈ items (scan holeAt (replaceEach vars text)) := by
  induction vars generalizing text with
  | nil => exact h
  | cons e vars ih =>
    exact ih (fun x hx => hnames x (by simp [hx])) (fun x hx => hm x (by simp [hx]))
      (mem_items_replaceAll (hnames e (by simp)) (Ne.symm (hm e (by simp))) h)

/-! ### Texts whose filling holds no placeholder -/

/-- What stands before the first opening brace of a text stands in it however it is filled. -/
theorem prefix_fill {w : Text} (hw : '\x7b' ∉ w) (f : Text → Text) {ps : List (Piece Char Text)}
    (h : w <+: fill placeholder ps) : w <+: fill f ps := by
  induction w generalizing ps with
  | nil => exact List.nil_prefix
  | cons c w ih =>
    rw [List.mem_cons, not_or] at hw
    match ps with
    | [] => simp at h
    | .char d :: ps =>
      rw [fill_char, List.cons_prefix_cons] at h
      rw [fill_char, List.cons_prefix_cons]
      exact ⟨h.1, ih hw.2 h.2⟩
    | .item m :: ps =>
      rw [fill_item, placeholder, List.cons_append, List.cons_prefix_cons] at h
      exact absurd h.1.symm hw.1

theorem begins_filled {name : Text} (hname : IsName name) (f : Text → Text) {c : Char}
    {ps : List (Piece Char Text)} (h : placeholder name <+: c :: fill placeholder ps) :
    placeholder name <+: c :: fill f ps := by
  have hw : '\x7b' ∉ name ++ ['\x7d', '\x7d'] := by
    rw [List.mem_append, not_or]
    exact ⟨fun hmem => absurd (hname.2 _ hmem) (by decide), by decide⟩
  rw [placeholder, List.cons_prefix_cons] at h ⊢
  refine ⟨h.1, ?_⟩
  match ps with
  | [] => exact absurd h.2 (by simp)
  | .char d :: ps =>
    have h' := h.2
    rw [fill_char, List.cons_prefix_cons] at h' ⊢
    exact ⟨h'.1, prefix_fill hw f h'.2⟩
  | .item m :: ps =>
    have h' := h.2
    obtain ⟨d, tail, rfl⟩ := List.exists_cons_of_ne_nil hname.1
    rw [fill_item, placeholder, List.cons_append, List.cons_append, List.cons_append,
      List.cons_prefix_cons, List.cons_prefix_cons] at h'
    exact absurd (h'.2.1 ▸ List.mem_cons_self) hw

/-- If no placeholder stands in a filled text, then the pieces can be read off the unfilled one. -/
theorem scan_fill {f : Text → Text} {ps : List (Piece Char Text)} (hps : ∀ m ∈ items ps, IsName m)
    (h : ∀ name, IsName name → ¬ placeholder name <:+: fill f ps) :
    scan holeAt (fill placeholder ps) = ps := by
  induction ps with
  | nil => rfl
  | cons p ps ih =>
    match p with
    | .item m =>
      rw [fill_item, scan_placeholder (hps m (by simp)), ih (fun x hx => hps x (by simp [hx]))]
      intro name hname hin
      rw [fill_item] at h
      exact h name hname (hin.trans (List.suffix_append _ _).isInfix)
    | .char c =>
      have hrest := ih hps fun name hname hin =>
        h name hname (hin.trans (List.suffix_cons c _).isInfix)
      cases hread : holeAt (c :: fill placeholder ps) with
      | none => rw [fill_char, scan_passed hread, hrest]
      | some r =>
        -- The placeholder that begins here would stand in the filled text as well.
        obtain ⟨n, name⟩ := r
        obtain ⟨hname, -, rest, hbegins⟩ := eq_of_holeAt hread
        exact absurd (begins_filled hname f ⟨rest, hbegins.symm⟩).isInfix (h name hname)

/-- The pieces with the placeholders of `k` turned into the characters of its value. -/
def settle (k value : Text) (ps : List (Piece Char Text)) : List (Piece Char Text) :=
  ps.flatMap fun p =>
    match p with
    | .char c => [.char c]
    | .item m => if m = k then value.map .char else [.item m]

theorem fill_settle (f : Text → Text) (k value : Text) (ps : List (Piece Char Text)) :
    fill f (settle k value ps) = fill (fun m => if m = k then value else f m) ps := by
  induction ps with
  | nil => rfl
  | cons p ps ih =>
    rw [settle, List.flatMap_cons, fill_append]
    cases p with
    | char c => exact congrArg (c :: ·) ih
    | item m =>
      rw [fill_item]
      refine congrArg₂ (· ++ ·) ?_ ih
      by_cases h : m = k
      · simp only [if_pos h, fill_chars]
      · simp [if_neg h]

theorem items_settle (k value : Text) (ps : List (Piece Char Text)) :
    items (settle k value ps) = (items ps).filter (· ≠ k) := by
  induction ps with
  | nil => rfl
  | cons p ps ih =>
    rw [settle, List.flatMap_cons, items_append]
    cases p with
    | char c => exact ih
    | item m =>
      by_cases h : m = k
      · rw [items_item, List.filter_cons_of_neg (by simpa using h), ← ih]
        simp only [if_pos h, items_chars]
        rfl
      · rw [items_item, List.filter_cons_of_pos (by simpa using h), ← ih]
        simp only [if_neg h]
        rfl

/-- One name after the other fills everything at once, if the filled text holds no placeholder. -/
theorem replaceEach_fill {f : Text → Text} {vars : List (Text × Text)} {ps : List (Piece Char Text)}
    (hnames : ∀ e ∈ vars, IsName e.1) (hvalues : ∀ e ∈ vars, f e.1 = e.2)
    (hps : ∀ m ∈ items ps, IsName m) (hcover : ∀ m ∈ items ps, ∃ e ∈ vars, e.1 = m)
    (hclean : ∀ name, IsName name → ¬ placeholder name <:+: fill f ps) :
    replaceEach vars (fill placeholder ps) = fill f ps := by
  induction vars generalizing ps with
  | nil =>
    refine fill_congr fun m hm => ?_
    obtain ⟨e, he, -⟩ := hcover m hm
    cases he
  | cons e vars ih =>
    obtain ⟨k, value⟩ := e
    have hk : IsName k := hnames (k, value) (by simp)
    have hf : f k = value := hvalues (k, value) (by simp)
    have hstep : replaceAll (placeholder k) value (fill placeholder ps) =
        fill placeholder (settle k value ps) := by
      rw [replaceAll_eq hk, scan_fill hps hclean, fill_settle]
    have hsame : fill f (settle k value ps) = fill f ps := by
      rw [fill_settle]
      refine fill_congr fun m _ => ?_
      by_cases h : m = k
      · rw [if_pos h, h, hf]
      · rw [if_neg h]
    rw [replaceEach, List.foldl_cons, hstep, ← hsame]
    refine ih (fun x hx => hnames x (by simp [hx])) (fun x hx => hvalues x (by simp [hx]))
      (fun m hm => ?_) (fun m hm => ?_) (hsame ▸ hclean)
    all_goals
      rw [items_settle, List.mem_filter, decide_eq_true_eq] at hm
      obtain ⟨hm, hne⟩ := hm
    · exact hps m hm
    obtain ⟨x, hx, rfl⟩ := hcover m hm
    rcases List.mem_cons.mp hx with rfl | hx
    · exact absurd rfl hne
    · exact ⟨x, hx, rfl⟩

theorem findAll_eq_nil_iff (text : Text) :
    findAll holeAt text = [] ↔ ∀ name, IsName name → ¬ placeholder name <:+: text := by
  constructor
  · intro h name hname hin
    have hmem := (mem_items_iff hname text).mpr hin
    rw [findAll] at h
    rw [h] at hmem
    cases hmem
  · intro h
    refine List.eq_nil_iff_forall_not_mem.mpr fun name hmem => ?_
    have hname := items_named text name hmem
    exact h name hname ((mem_items_iff hname text).mp hmem)

section Values

variable {values : Text → Option Text} {vars : List (Text × Text)} {text : Text}

theorem replaceEach_complete (hnames : ∀ e ∈ vars, IsName e.1)
    (hvalues : ∀ e ∈ vars, values e.1 = some e.2)
    (hcover : ∀ m ∈ findAll holeAt text, (values m).isSome → ∃ e ∈ vars, e.1 = m) {out : Text}
    (h : fillAll values text = some out) (hclean : findAll holeAt out = []) :
    replaceEach vars text = out := by
  rw [fillAll] at h
  split_ifs at h with hall
  rw [List.all_eq_true] at hall
  obtain rfl := Option.some.inj h
  have hall' : ∀ m ∈ items (scan holeAt text), ∃ e ∈ vars, e.1 = m := fun m hm =>
    hcover m hm (hall m hm)
  have hfill := replaceEach_fill hnames (fun e he => by rw [hvalues e he, Option.getD_some])
    (items_named text) hall' ((findAll_eq_nil_iff _).mp hclean)
  rwa [fill_scan] at hfill

theorem replaceEach_missing (hnames : ∀ e ∈ vars, IsName e.1)
    (hvalues : ∀ e ∈ vars, values e.1 = some e.2) (h : fillAll values text = none) :
    findAll holeAt (replaceEach vars text) ≠ [] := by
  rw [fillAll] at h
  split_ifs at h with hall
  simp only [List.all_eq_true, not_forall] at hall
  obtain ⟨m, hm, hnone⟩ := hall
  refine List.ne_nil_of_mem (mem_items_replaceEach hnames (fun e he => ?_) hm)
  rintro rfl
  exact hnone (by rw [hvalues e he, Option.isSome_some])

end Values

end CompanionBackend.Placeholders
