import CompanionBackend.FollowupAgreement

/-!
# Reading a summary

The model's answer is one JSON object. Its public fields are checked one by one; a follow-up message is
read only if the answer asks for one. Whatever is wrong is meant to be a `ValueError`; the membership
test of the message's kind raises another one for a list or an object.
-/
namespace CompanionBackend.SummaryResults

open Runs ProviderEvents Dictionaries
open CapabilityEvidence (strip)
open FollowupSchedules (Candidate)

/-- What `json.loads` raises: a `JSONDecodeError`, or a `RecursionError` for a document that is nested
too deep. -/
inductive LoadError
  | valueError | recursionError
  deriving DecidableEq, Repr

inductive ParseError
  | valueError | recursionError | typeError
  deriving DecidableEq, Repr

deriving instance DecidableEq for Candidate

structure SummaryResult where
  callSummary : Text
  unfinishedTopics : List Text
  userEmotion : Text
  assistantEmotion : Text
  reasoning : Option Text
  followup : Option Candidate
  deriving DecidableEq

/-- `_string`; `none` where it raises its `ValueError`. -/
def readString (value : Json) (singleLine : Bool) (maxLength : Option ℕ) : Option Text :=
  match value with
  | .str text =>
    let t := strip text
    if t = [] ∨ (singleLine = true ∧ (t.any fun c => c = '\r' ∨ c = '\n') = true) ∨ ∃ n ∈ maxLength, n < t.length then
      none
    else some t
  | _ => none

def requiredFields : List String :=
  ["call_summary", "unfinished_topics", "user_emotion", "assistant_emotion", "should_send_followup"]

def allowedFields : List String :=
  requiredFields ++ ["reasoning", "followup_delay_minutes", "followup_content", "content_type"]

/-- `(reasoning.strip() or None) if isinstance(reasoning, str) else None`. -/
def readReasoning : Json → Option Text
  | .str text => if strip text = [] then none else some (strip text)
  | _ => none

def objectFields : Json → Option (List (Text × Json))
  | .obj fields => some fields
  | _ => none

def arrayItems : Json → Option (List Json)
  | .arr items => some items
  | _ => none

/-- The checks up to the one of `should_send_followup`. -/
def readPublic (data : Json) : Option SummaryResult := do
  let fields ← objectFields data
  guard (fields.all fun e => allowedFields.any fun f => decide (f.toList = e.1))
  guard (requiredFields.all fun f => data.has f)
  let summary ← readString (data.field "call_summary") true none
  let items ← arrayItems (data.field "unfinished_topics")
  let topics ← items.mapM fun topic => readString topic false none
  let user ← readString (data.field "user_emotion") false (some 64)
  let assistant ← readString (data.field "assistant_emotion") false (some 64)
  some ⟨summary, topics, user, assistant, readReasoning (data.field "reasoning"), none⟩

def followupKinds : List String := ["topic_continuation", "emotional_followup"]

/-- The follow-up message that is asked for. -/
def readFollowup (data : Json) : Except ParseError Candidate :=
  match data.field "followup_delay_minutes" with
  | .int delay =>
    if delay < 0 then .error .valueError
    else if (data.field "content_type").hashable = false then .error .typeError
    else
      match data.field "content_type" with
      | .str kind =>
        if followupKinds.any fun k => decide (k.toList = kind) then
          match readString (data.field "followup_content") false none with
          | some content => .ok ⟨kind, content, delay⟩
          | none => .error .valueError
        else .error .valueError
      | _ => .error .valueError
  | _ => .error .valueError

/-- `parse_summary` behind its `json.loads`. -/
def readSummary (data : Json) : Except ParseError SummaryResult :=
  match readPublic data with
  | none => .error .valueError
  | some result =>
    match data.field "should_send_followup" with
    | .bool false => .ok result
    | .bool true => (readFollowup data).map fun candidate => { result with followup := some candidate }
    | _ => .error .valueError

def parseSummary (loads : Text → Except LoadError Json) (raw : Text) :
    Except ParseError SummaryResult :=
  match loads raw with
  | .error .valueError => .error .valueError
  | .error .recursionError => .error .recursionError
  | .ok data => readSummary data

/-- The kind of the message is looked up. -/
def AsksKind (data : Json) : Prop :=
  (readPublic data).isSome = true ∧ data.field "should_send_followup" = .bool true ∧
    ∃ delay, data.field "followup_delay_minutes" = .int delay ∧ 0 ≤ delay

/-- The text is not nested too deep, and the kind of a message is no list or object. -/
def Readable (loads : Text → Except LoadError Json) (raw : Text) : Prop :=
  loads raw ≠ .error .recursionError ∧
    ∀ data, loads raw = .ok data → AsksKind data → (data.field "content_type").hashable = true

/-! ### What is raised -/

theorem readFollowup_error {data : Json} {e : ParseError} (h : readFollowup data = .error e) :
    e = .valueError ∨ e = .typeError ∧ (data.field "content_type").hashable = false ∧
      ∃ delay, data.field "followup_delay_minutes" = .int delay ∧ 0 ≤ delay := by
  unfold readFollowup at h
  split at h
  case h_2 => exact .inl (Except.error.inj h).symm
  case h_1 delay hdelay =>
    split_ifs at h with hneg hkind
    · exact .inl (Except.error.inj h).symm
    · exact .inr ⟨(Except.error.inj h).symm, hkind, delay, hdelay, not_lt.mp hneg⟩
    · left
      split at h
      · split_ifs at h
        · split at h
          · cases h
          · exact (Except.error.inj h).symm
        · exact (Except.error.inj h).symm
      · exact (Except.error.inj h).symm

theorem readFollowup_unhashable {data : Json} {delay : ℤ}
    (hdelay : data.field "followup_delay_minutes" = .int delay) (hpos : 0 ≤ delay)
    (hkind : (data.field "content_type").hashable = false) :
    readFollowup data = .error .typeError := by
  unfold readFollowup
  rw [hdelay]
  simp only
  rw [if_neg (not_lt.mpr hpos), if_pos hkind]

theorem readFollowup_delay {data : Json} {candidate : Candidate}
    (h : readFollowup data = .ok candidate) : 0 ≤ candidate.delayMinutes := by
  unfold readFollowup at h
  split at h
  case h_2 => cases h
  case h_1 delay hdelay =>
    split_ifs at h with hneg hkind
    split at h
    · split_ifs at h
      split at h
      · obtain rfl := Except.ok.inj h
        exact not_lt.mp hneg
      · cases h
    · cases h

/-- A text is refused with a `ValueError` exactly if it is readable in this sense. -/
theorem parseSummary_refuses_iff (loads : Text → Except LoadError Json) (raw : Text) :
    (∀ e, parseSummary loads raw = .error e → e = .valueError) ↔ Readable loads raw := by
  unfold parseSummary Readable
  cases hload : loads raw with
  | error e =>
    cases e with
    | valueError => simp
    | recursionError => simp
  | ok data =>
    simp only [ne_eq, reduceCtorEq, not_false_eq_true, true_and, Except.ok.injEq, forall_eq',
      AsksKind]
    unfold readSummary
    cases hpublic : readPublic data with
    | none => simp
    | some result =>
      simp only [Option.isSome_some, true_and]
      constructor
      · rintro h ⟨hsend, delay, hdelay, hpos⟩
        by_contra hkind
        rw [Bool.not_eq_true] at hkind
        rw [hsend, readFollowup_unhashable hdelay hpos hkind] at h
        cases h .typeError rfl
      · intro h e he
        split at he
        · cases he
        · rename_i hsend
          cases hread : readFollowup data with
          | ok candidate =>
            rw [hread] at he
            cases he
          | error e' =>
            rw [hread] at he
            obtain rfl : e' = e := Except.error.inj he
            rcases readFollowup_error hread with rfl | ⟨-, hkind, hdelay⟩
            · rfl
            · cases hkind.symm.trans (h ⟨hsend, hdelay⟩)
        · exact (Except.error.inj he).symm

theorem readPublic_followup {data : Json} {result : SummaryResult}
    (h : readPublic data = some result) : result.followup = none := by
  simp only [readPublic, Option.bind_eq_bind, Option.bind_eq_some_iff, Option.some.injEq] at h
  obtain ⟨_, -, _, -, _, -, _, -, _, -, _, -, _, -, _, -, rfl⟩ := h
  rfl

/-- The delay of a message that is accepted is not negative. -/
theorem parseSummary_delay {loads : Text → Except LoadError Json} {raw : Text}
    {result : SummaryResult} (h : parseSummary loads raw = .ok result) {candidate : Candidate}
    (hfollowup : result.followup = some candidate) : 0 ≤ candidate.delayMinutes := by
  unfold parseSummary at h
  split at h
  · cases h
  · cases h
  rename_i data _
  unfold readSummary at h
  cases hpublic : readPublic data with
  | none =>
    rw [hpublic] at h
    cases h
  | some r =>
    rw [hpublic] at h
    simp only at h
    split at h
    · obtain rfl := Except.ok.inj h
      cases (readPublic_followup hpublic).symm.trans hfollowup
    · cases hread : readFollowup data with
      | error e =>
        rw [hread] at h
        cases h
      | ok c =>
        rw [hread] at h
        obtain rfl := Except.ok.inj h
        obtain rfl : c = candidate := Option.some.inj hfollowup
        exact readFollowup_delay hread
    · cases h

end CompanionBackend.SummaryResults
