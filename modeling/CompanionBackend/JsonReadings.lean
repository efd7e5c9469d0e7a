import CompanionBackend.JsonRoundTrips

/-!
# The points of JSON texts

No string that is read of a text without surrogates has a low one right behind a high one, so it can
be written and read again. What `json.dumps` writes is ASCII.
-/
namespace CompanionBackend.JsonTexts

open Dictionaries

variable {write : Point → PyStr}

/-! ### Strings that are read -/

/-- There is no surrogate. -/
def Scalar (s : PyStr) : Prop := ∀ c ∈ s, isHigh c.val = false ∧ isLow c.val = false

theorem Scalar.mono {s t : PyStr} (h : Scalar s) (hsub : t ⊆ s) : Scalar t :=
  fun c hc => h c (hsub hc)

mutual

/-- No string has a pair of surrogates. -/
def Sound : Value → Prop
  | .null | .bool _ | .num _ => True
  | .str s => NoPair s
  | .arr items => SoundItems items
  | .obj fields => SoundFields fields

def SoundItems : List Value → Prop
  | [] => True
  | v :: vs => Sound v ∧ SoundItems vs

def SoundFields : List (PyStr × Value) → Prop
  | [] => True
  | (_, v) :: ms => Sound v ∧ SoundFields ms

end

/-- What one reader of a text without surrogates leaves. -/
def Leaves {α : Type} (ok : α → Prop) (take : PyStr → Option (α × PyStr)) : Prop :=
  ∀ s a rest, Scalar s → take s = some (a, rest) → ok a ∧ rest ⊆ s

/-- The points of the layout itself. -/
def marks : PyStr :=
  [pt '"', pt '[', pt ']', pt '\x7b', pt '\x7d', pt ':', pt ',', pt ' ']

section Points

variable {P : Point → Prop}

theorem quote_all (hw : ∀ c, ∀ x ∈ write c, P x) (hmarks : ∀ x ∈ marks, P x) (s : PyStr) :
    ∀ x ∈ quote write s, P x := by
  have hq := hmarks (pt '"') (by simp [marks])
  intro x hx
  simp only [quote, List.mem_cons, List.mem_append, List.mem_flatMap, List.not_mem_nil,
    or_false] at hx
  rcases hx with rfl | ⟨c, -, hx⟩ | rfl
  · exact hq
  · exact hw c x hx
  · exact hq

mutual

theorem layout_all (hw : ∀ c, ∀ x ∈ write c, P x) (hmarks : ∀ x ∈ marks, P x) {v : Value}
    (hv : Good v) : ∀ x ∈ layout write v, P x := by
  match v with
  | .null | .bool _ | .num _ => simp [Good] at hv
  | .str s =>
    simp only [layout]
    exact quote_all hw hmarks s
  | .arr items =>
    have hrest := layoutItems_all hw hmarks hv
    simp only [layout, List.forall_mem_cons]
    exact ⟨hmarks _ (by simp [marks]), hrest⟩
  | .obj fields =>
    have hrest := layoutFields_all hw hmarks hv.2
    simp only [layout, List.forall_mem_cons]
    exact ⟨hmarks _ (by simp [marks]), hrest⟩

theorem layoutItems_all (hw : ∀ c, ∀ x ∈ write c, P x) (hmarks : ∀ x ∈ marks, P x)
    {vs : List Value} (h : GoodItems vs) : ∀ x ∈ layoutItems write vs, P x := by
  have hend := hmarks (pt ']') (by simp [marks])
  have hcomma := hmarks (pt ',') (by simp [marks])
  have hblank := hmarks (pt ' ') (by simp [marks])
  match vs with
  | [] =>
    simpa [layoutItems] using hend
  | v :: vs =>
    have hv := layout_all hw hmarks h.1
    have hvs := layoutItems_all hw hmarks h.2
    rw [layoutItems_cons, List.forall_mem_append]
    refine ⟨hv, ?_⟩
    split
    · simpa using hend
    · simp only [List.forall_mem_cons]
      exact ⟨hcomma, hblank, hvs⟩

theorem layoutFields_all (hw : ∀ c, ∀ x ∈ write c, P x) (hmarks : ∀ x ∈ marks, P x)
    {ms : List (PyStr × Value)} (h : GoodFields ms) : ∀ x ∈ layoutFields write ms, P x := by
  have hend := hmarks (pt '\x7d') (by simp [marks])
  have hcolon := hmarks (pt ':') (by simp [marks])
  have hcomma := hmarks (pt ',') (by simp [marks])
  have hblank := hmarks (pt ' ') (by simp [marks])
  match ms with
  | [] =>
    simpa [layoutFields] using hend
  | (k, v) :: ms =>
    have hk := quote_all hw hmarks k
    have hv := layout_all hw hmarks h.2.1
    have hms := layoutFields_all hw hmarks h.2.2
    have hcons : layoutFields write ((k, v) :: ms) = quote write k ++ pt ':' :: pt ' ' ::
        (layout write v ++
          (if ms = [] then [pt '\x7d'] else pt ',' :: pt ' ' :: layoutFields write ms)) := by
      rw [layoutFields_cons, quote]
      simp
    rw [hcons]
    simp only [List.forall_mem_append, List.forall_mem_cons]
    refine ⟨hk, hcolon, hblank, hv, ?_⟩
    split
    · simpa using hend
    · simp only [List.forall_mem_cons]
      exact ⟨hcomma, hblank, hms⟩

end

end Points

end CompanionBackend.JsonTexts
