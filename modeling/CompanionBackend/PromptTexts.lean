import CompanionBackend.Dictionaries
import CompanionBackend.CapabilityEvidence
import CompanionBackend.Placeholders

/-!
# Rendering a prompt

A template holds optional segments and placeholders. The segments whose condition does not hold are
taken out first; then one variable after the other is put in the place of its placeholder, each in the
text that the one before it left, and whatever still looks like a placeholder is an error.
-/
namespace CompanionBackend.PromptTexts

open TextScanning Placeholders Dictionaries
open CapabilityEvidence (strip)

/-! ### Optional segments -/

def segmentOpen : Text := "[可选段·".toList

def segmentClose : Text := "[/可选段]".toList

/-- `_OPTIONAL_SEGMENT_PATTERN`: the condition up to the first bracket, the body up to the first closing
mark. -/
def segmentAt : Reader Char (Text × Text) := fun text =>
  if segmentOpen <+: text then
    let cond := (text.drop segmentOpen.length).takeWhile (· ≠ ']')
    match (text.drop segmentOpen.length).drop cond.length with
    | [] => none
    | _ :: behind =>
      if cond = [] then none
      else (upTo segmentClose behind).map fun body =>
        (segmentOpen.length + cond.length + body.length + segmentClose.length, (cond, body))
  else none

def keepSegment (optionalSegments : Dict Text Bool) (segment : Text × Text) : Text :=
  if (Dict.get optionalSegments (strip segment.1)).getD false then segment.2 else []

def applyOptionalSegments (text : Text) (optionalSegments : Dict Text Bool) : Text :=
  sub segmentAt (keepSegment optionalSegments) text

/-! ### Variables -/

def personaVar : Text := "lxm_base_persona".toList

/-- The active persona configuration: nothing, a record of texts, or a text. -/
inductive PersonaConfig
  | absent
  | fields (values : List Text)
  | text (t : Text)

def personaToText : PersonaConfig → Text
  | .absent => []
  | .fields values => List.intercalate ['\n'] ((values.map strip).filter (· ≠ []))
  | .text t => t

structure Variables where
  entries : Dict Text Text
  distinct : (entries.map Prod.fst).Nodup
  named : ∀ e ∈ entries, IsName e.1

structure PromptRenderError where
  leftover : List Text
  deriving DecidableEq, Repr

/-- The variables, with the persona last where the text asks for it and the caller does not give it. -/
def withPersona (text : Text) (vars : Variables) (persona : PersonaConfig) : Dict Text Text :=
  if placeholder personaVar <:+: text ∧ personaVar ∉ vars.entries.map Prod.fst then
    vars.entries ++ [(personaVar, personaToText persona)]
  else vars.entries

def renderText (text : Text) (vars : Variables) (optionalSegments : Dict Text Bool)
    (persona : PersonaConfig) : Except PromptRenderError Text :=
  let opened := applyOptionalSegments text optionalSegments
  let rendered := replaceEach (withPersona opened vars persona) opened
  let leftover := (findAll holeAt rendered).map placeholder
  if leftover = [] then .ok rendered else .error ⟨leftover⟩

/-! ### What is meant -/

def value (vars : Variables) (persona : PersonaConfig) (name : Text) : Option Text :=
  match Dict.get vars.entries name with
  | some v => some v
  | none => if name = personaVar then some (personaToText persona) else none

/-- Every placeholder of what is left of the template, filled at once. -/
def filled (text : Text) (vars : Variables) (optionalSegments : Dict Text Bool)
    (persona : PersonaConfig) : Option Text :=
  fillAll (value vars persona) (applyOptionalSegments text optionalSegments)

/-! ### Segments as they are written -/

/-! ### The variables that are put in -/

theorem withPersona_named (text : Text) (vars : Variables) (persona : PersonaConfig) :
    ∀ e ∈ withPersona text vars persona, IsName e.1 := by
  intro e he
  rw [withPersona] at he
  split_ifs at he
  · rcases List.mem_append.mp he with he | he
    · exact vars.named e he
    · have hname : IsName personaVar := by decide
      rwa [List.mem_singleton.mp he]
  · exact vars.named e he

theorem withPersona_values (text : Text) (vars : Variables) (persona : PersonaConfig) :
    ∀ e ∈ withPersona text vars persona, value vars persona e.1 = some e.2 := by
  have hown : ∀ e ∈ vars.entries, value vars persona e.1 = some e.2 := by
    intro e he
    rw [value, Dict.get_of_mem vars.distinct he]
  intro e he
  rw [withPersona] at he
  split_ifs at he with h
  · rcases List.mem_append.mp he with he | he
    · exact hown e he
    · have hnone : Dict.get vars.entries personaVar = none := by
        cases hg : Dict.get vars.entries personaVar with
        | none => rfl
        | some v => exact absurd (List.mem_map_of_mem (Dict.mem_of_get hg)) h.2
      rw [List.mem_singleton.mp he, value, hnone]
      exact if_pos rfl
  · exact hown e he

theorem withPersona_covers (text : Text) (vars : Variables) (persona : PersonaConfig) :
    ∀ m ∈ findAll holeAt text, (value vars persona m).isSome →
      ∃ e ∈ withPersona text vars persona, e.1 = m := by
  intro m hm hsome
  have hown : ∀ e ∈ vars.entries, e ∈ withPersona text vars persona := by
    intro e he
    rw [withPersona]
    split_ifs
    · exact List.mem_append_left _ he
    · exact he
  cases hg : Dict.get vars.entries m with
  | some v => exact ⟨(m, v), hown _ (Dict.mem_of_get hg), rfl⟩
  | none =>
    rw [value, hg] at hsome
    by_cases hpersona : m = personaVar
    · subst hpersona
      have hin := (mem_items_iff (by decide) text).mp hm
      have hkeys : personaVar ∉ vars.entries.map Prod.fst := by
        intro hmem
        obtain ⟨e, he, hkey⟩ := List.mem_map.mp hmem
        rw [← hkey, Dict.get_of_mem vars.distinct he] at hg
        cases hg
      refine ⟨(personaVar, personaToText persona), ?_, rfl⟩
      rw [withPersona, if_pos ⟨hin, hkeys⟩]
      simp
    · simp [hpersona] at hsome

/-! ### The reply to a comment -/

section Reply

variable (post comment stage hobby real : Text)

/-- The name is called only where one is known. -/
def replyEntries : Dict Text Text :=
  [("post_text".toList, post), ("user_comment".toList, comment),
    ("relationship_stage".toList, stage)] ++
  if hobby ≠ [] ∨ real ≠ [] then
    [("user_hobby_name".toList, hobby), ("user_real_name".toList, real)]
  else []

def replySegments : Dict Text Bool :=
  [("称呼".toList, decide (hobby ≠ [] ∨ real ≠ [])), ("记忆".toList, false)]

def replyNames : List Text :=
  ["post_text".toList, "user_comment".toList, "relationship_stage".toList,
    "user_hobby_name".toList, "user_real_name".toList]

theorem replyEntries_names :
    (replyEntries post comment stage hobby real).map Prod.fst <+: replyNames := by
  rw [replyEntries]
  split_ifs
  · exact List.prefix_rfl
  · exact ⟨["user_hobby_name".toList, "user_real_name".toList], rfl⟩

def replyVariables : Variables where
  entries := replyEntries post comment stage hobby real
  distinct := (replyEntries_names post comment stage hobby real).sublist.nodup (by decide)
  named := by
    intro e he
    have hall : ∀ n ∈ replyNames, IsName n := by decide
    exact hall e.1 ((replyEntries_names post comment stage hobby real).subset
      (List.mem_map_of_mem he))

end Reply

/-! ### One filling for every order -/

theorem renderText_ok {text out : Text} {vars : Variables} {optionalSegments : Dict Text Bool}
    {persona : PersonaConfig}
    (h : (renderText text vars optionalSegments persona).toOption = some out) :
    findAll holeAt out = [] := by
  rw [renderText] at h
  split_ifs at h with hleft
  · obtain rfl := Option.some.inj h
    exact List.map_eq_nil_iff.mp hleft
  · cases h

/-- Without a placeholder in the filled text a rendering fills all placeholders at once, and one
without a value is an error. -/
theorem renderText_eq_filled (text : Text) (vars : Variables)
    (optionalSegments : Dict Text Bool) (persona : PersonaConfig)
    (hclean : ∀ out, filled text vars optionalSegments persona = some out →
      findAll holeAt out = []) :
    (renderText text vars optionalSegments persona).toOption =
      filled text vars optionalSegments persona := by
  have hnames := withPersona_named (applyOptionalSegments text optionalSegments) vars persona
  have hvalues := withPersona_values (applyOptionalSegments text optionalSegments) vars persona
  rw [renderText]
  cases hf : filled text vars optionalSegments persona with
  | some out =>
    have hout : replaceEach (withPersona (applyOptionalSegments text optionalSegments) vars
        persona) (applyOptionalSegments text optionalSegments) = out :=
      replaceEach_complete hnames hvalues (withPersona_covers _ vars persona) hf (hclean out hf)
    simp only [hout, hclean out hf]
    rfl
  | none =>
    have hleft := replaceEach_missing hnames hvalues hf
    simp only [List.map_eq_nil_iff, if_neg hleft]
    rfl

theorem value_reordered {vars reordered : Variables}
    (h : reordered.entries.Perm vars.entries) (persona : PersonaConfig) :
    value reordered persona = value vars persona := by
  have hget : ∀ name, Dict.get reordered.entries name = Dict.get vars.entries name := by
    intro name
    refine Option.ext fun v => ?_
    constructor
    · exact fun hv => Dict.get_of_mem vars.distinct (h.mem_iff.mp (Dict.mem_of_get hv))
    · exact fun hv => Dict.get_of_mem reordered.distinct (h.mem_iff.mpr (Dict.mem_of_get hv))
  funext name
  rw [value, value, hget]

/-- A rendering fills all placeholders at once, for every order of the variables, exactly if no
placeholder stands in the text so filled. -/
theorem render_simultaneous_iff (text : Text) (vars : Variables)
    (optionalSegments : Dict Text Bool) (persona : PersonaConfig) :
    (∀ reordered : Variables, reordered.entries.Perm vars.entries →
      (renderText text reordered optionalSegments persona).toOption =
        filled text vars optionalSegments persona) ↔
    ∀ out, filled text vars optionalSegments persona = some out → findAll holeAt out = [] := by
  constructor
  · intro h out hout
    exact renderText_ok ((h vars (List.Perm.refl _)).trans hout)
  · intro hclean reordered hperm
    have hsame : filled text reordered optionalSegments persona =
        filled text vars optionalSegments persona := by
      rw [filled, filled, value_reordered hperm]
    rw [← hsame] at hclean ⊢
    exact renderText_eq_filled text reordered optionalSegments persona hclean

/-- A comment that names a variable is answered with that variable's value. -/
theorem comment_rescanned :
    (renderText "用户评论：\x7b\x7buser_comment\x7d\x7d（\x7b\x7brelationship_stage\x7d\x7d）".toList
        (replyVariables "晴天".toList "\x7b\x7brelationship_stage\x7d\x7d".toList "朋友".toList [] [])
        (replySegments [] []) .absent).toOption = some "用户评论：朋友（朋友）".toList ∧
    filled "用户评论：\x7b\x7buser_comment\x7d\x7d（\x7b\x7brelationship_stage\x7d\x7d）".toList
        (replyVariables "晴天".toList "\x7b\x7brelationship_stage\x7d\x7d".toList "朋友".toList [] [])
        (replySegments [] []) .absent =
      some "用户评论：\x7b\x7brelationship_stage\x7d\x7d（朋友）".toList := by
  decide

end CompanionBackend.PromptTexts
