import CompanionBackend.CapabilityRules

/-!
# What accepted configurations satisfy

A document without issues has six typed capabilities and a list of test users; one that
also passes the checks of states runs a capability for everyone only as verified.
-/
namespace CompanionBackend.CapabilityRules

open Runs ProviderEvents Dictionaries

theorem storedIssues_append (a b : List Issue) :
    storedIssues (a ++ b) = storedIssues a ++ storedIssues b := List.filter_append ..

/-- Issues of a code that is kept are none only if there are none. -/
theorem storedIssues_map_eq_nil {α : Type} {xs : List α} {f : α → Issue}
    (hcode : ∀ x, (f x).code ≠ .manualVerifiedForbidden) :
    storedIssues (xs.map f) = [] ↔ xs = [] := by
  have hall : storedIssues (xs.map f) = xs.map f :=
    List.filter_eq_self.mpr fun i hi => by
      obtain ⟨x, -, rfl⟩ := List.mem_map.mp hi
      simpa using hcode x
  rw [hall, List.map_eq_nil_iff]

theorem storedIssues_ite_eq_nil {p : Bool} {i : Issue}
    (hcode : i.code ≠ .manualVerifiedForbidden) :
    storedIssues (if p then [] else [i]) = [] ↔ p = true := by
  cases p <;> simp [storedIssues, hcode]

theorem storedIssues_flatMap_eq_nil {α : Type} {xs : List α} {f : α → List Issue} :
    storedIssues (xs.flatMap f) = [] ↔ ∀ x ∈ xs, storedIssues (f x) = [] := by
  simp only [storedIssues, List.filter_eq_nil_iff, List.mem_flatMap]
  constructor
  · intro h x hx i hi
    exact h i ⟨x, hx, hi⟩
  · rintro h i ⟨x, hx, hi⟩
    exact h x hx i hi

theorem isObj_of_checkExactKeys {value : Json} {field : String} {required allowed : List String}
    (h : storedIssues (checkExactKeys value field required allowed) = []) :
    value.isObj = true := by
  cases value <;> first | rfl | simp [checkExactKeys, storedIssues] at h

/-- A required key is there. -/
theorem has_of_checkExactKeys {value : Json} {field key : String} {required allowed : List String}
    (h : storedIssues (checkExactKeys value field required allowed) = []) (hk : key ∈ required) :
    value.has key = true := by
  obtain ⟨fields, rfl⟩ := Json.isObj_iff.mp (isObj_of_checkExactKeys h)
  unfold checkExactKeys at h
  rw [storedIssues_append, List.append_eq_nil_iff, storedIssues_map_eq_nil (by simp)] at h
  simpa using List.filter_eq_nil_iff.mp h.1 key hk

/-! ### Capabilities -/

/-- A text or nothing. -/
def plain : Json → Bool
  | .null | .str _ => true
  | _ => false

/-- What the schema leaves of a capability, projected fields included. -/
structure WellTyped (item : Json) : Prop where
  isObj : item.isObj = true
  enabled : (item.field "enabled").isBool = true
  forced : (item.field "forced_enabled").isBool = true
  status : (item.field "verification_status").strIn ["verified", "unverified", "failed", "stale"]
    = true
  scope : (item.field "effective_scope").strIn ["off", "test", "all"] = true
  projected : ∀ f ∈ projectionFields, plain (item.field f) = true
  lastTest : plain (item.field "last_test_result") = true
  ttl : ∃ n : ℤ, item.field "evidence_ttl_days" = .int n ∧ 7 ≤ n ∧ n ≤ 90

theorem checkIntRange_accepts {value : Json} {field : String} {a b : ℤ}
    (h : storedIssues (checkIntRange value field a b) = []) :
    ∃ n, value = .int n ∧ a ≤ n ∧ n ≤ b := by
  cases value with
  | int n =>
    by_cases hn : n < a ∨ b < n
    · simp [checkIntRange, storedIssues, hn] at h
    · exact ⟨n, rfl, by omega, by omega⟩
  | _ => simp [checkIntRange, storedIssues] at h

theorem statusIssues_accepts {path : String} {item : Json}
    (h : storedIssues (statusIssues path item) = []) :
    (item.field "verification_status").strIn ["verified", "unverified", "failed", "stale"]
      = true := by
  unfold statusIssues at h
  dsimp only at h
  split_ifs at h with hverified hother
  · rw [Json.isStr_iff] at hverified
    simp [hverified]
  · obtain ⟨s, hs, hstatus⟩ := Json.strIn_iff.mp hother
    exact Json.strIn_iff.mpr ⟨s, List.mem_cons_of_mem _ hs, hstatus⟩
  · simp [storedIssues] at h

theorem capabilityIssues_accepts {k : VoiceCapability} {item : Json}
    (h : storedIssues (capabilityIssues k item) = []) : WellTyped item := by
  unfold capabilityIssues at h
  dsimp only at h
  rw [storedIssues_append, List.append_eq_nil_iff] at h
  have hobj := isObj_of_checkExactKeys h.1
  have hrest := h.2
  simp only [hobj, Bool.not_true, Bool.false_eq_true, if_false, storedIssues_append,
    List.append_eq_nil_iff] at hrest
  obtain ⟨⟨⟨⟨⟨⟨⟨hflags, -⟩, hprojected⟩, hlast⟩, hstatus⟩, hscope⟩, -⟩, httl⟩ := hrest
  rw [storedIssues_map_eq_nil (by simp)] at hflags hprojected
  have hflag : ∀ f ∈ ["enabled", "forced_enabled"], (item.field f).isBool = true := by
    intro f hf
    simpa using List.filter_eq_nil_iff.mp hflags f hf
  have hplain : ∀ f ∈ projectionFields, plain (item.field f) = true := by
    intro f hf
    have hnot := List.filter_eq_nil_iff.mp hprojected f hf
    cases hvalue : item.field f <;> simp_all [plain, isNonBlankText]
  have hresult : plain (item.field "last_test_result") = true := by
    obtain ⟨s, -, hs⟩ := Json.strIn_iff.mp ((storedIssues_ite_eq_nil (by simp)).mp hlast)
    simp [hs, plain]
  exact
    { isObj := hobj
      enabled := hflag _ (by simp)
      forced := hflag _ (by simp)
      status := statusIssues_accepts hstatus
      scope := (storedIssues_ite_eq_nil (by simp)).mp hscope
      projected := hplain
      lastTest := hresult
      ttl := checkIntRange_accepts httl }

theorem capabilitiesIssues_accepts {config : Json}
    (h : storedIssues (capabilitiesIssues config) = []) :
    (config.field "capabilities").isObj = true ∧
      ∀ k : VoiceCapability, WellTyped ((config.field "capabilities").field k.key) := by
  unfold capabilitiesIssues at h
  split at h
  · rename_i fields hfields
    dsimp only at h
    rw [storedIssues_append, List.append_eq_nil_iff, storedIssues_flatMap_eq_nil] at h
    rw [hfields]
    exact ⟨rfl, fun k => capabilityIssues_accepts (h.2 k k.mem_all)⟩
  · simp [storedIssues] at h

theorem globalIssues_accepts {config : Json} (h : storedIssues (globalIssues config) = []) :
    isIntList ((config.field "global").field "test_user_ids") = true := by
  unfold globalIssues at h
  dsimp only at h
  rw [storedIssues_append, List.append_eq_nil_iff] at h
  have hobj := isObj_of_checkExactKeys h.1
  have hrest := h.2
  simp only [hobj, Bool.not_true, Bool.false_eq_true, if_false, storedIssues_append,
    List.append_eq_nil_iff] at hrest
  exact (storedIssues_ite_eq_nil (by simp)).mp hrest.2

/-- What the schema leaves of a stored call configuration. -/
structure WellFormed (config : Json) : Prop where
  isObj : config.isObj = true
  capabilities : (config.field "capabilities").isObj = true
  capability : ∀ k : VoiceCapability, WellTyped ((config.field "capabilities").field k.key)
  testUsers : isIntList ((config.field "global").field "test_user_ids") = true

theorem trustedRuntimeIssues_accepts {other : SectionIssues} {config : Json}
    (h : trustedRuntimeIssues other .voiceCallConfig config = []) : WellFormed config := by
  unfold trustedRuntimeIssues validateVoiceBundle at h
  cases hobj : config.isObj with
  | false => simp [hobj, storedIssues] at h
  | true =>
    simp only [hobj, Bool.not_true, Bool.false_eq_true, if_false, storedIssues_append,
      List.append_eq_nil_iff] at h
    obtain ⟨⟨⟨-, hglobal⟩, hcapabilities⟩, -⟩ := h
    obtain ⟨hcaps, hcap⟩ := capabilitiesIssues_accepts hcapabilities
    exact ⟨hobj, hcaps, hcap, globalIssues_accepts hglobal⟩

/-! ### States -/

end CompanionBackend.CapabilityRules
