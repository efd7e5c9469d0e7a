import CompanionBackend.CapabilityStates
import CompanionBackend.RuntimeSnapshots

/-!
# What a snapshot enables

A capability that a snapshot enables was proven for the six dimensions that run now, within
its lifetime and for this caller, or an administrator forced it for test users. The
resolver and the scope trust a verified state to have flags that go together, which
the schema does not demand of a stored document.
-/
namespace CompanionBackend.RuntimeSnapshots

open Runs ProviderEvents Dictionaries CapabilityRules CapabilityEvidence

/-! ### Fingerprints -/

theorem evidenceDimensions_eq_ok {value : Json} {dims : EvidenceDimension → Text}
    (h : evidenceDimensions value = .ok dims) (d : EvidenceDimension) :
    value.field d.field = .str (dims d) ∧ safeDimension (dims d) = true := by
  unfold evidenceDimensions at h
  split at h
  · simp at h
  · rename_i hnone
    obtain rfl := Except.ok.inj h
    have hd := List.find?_eq_none.mp hnone d d.mem_all
    cases hvalue : value.field d.field with
    | str t => simpa [hvalue, textOf] using hd
    | _ => simp [hvalue] at hd

theorem computeEvidenceFingerprint_eq_ok {H : Host} {value : Json} {fingerprint : Text}
    (h : computeEvidenceFingerprint H value = .ok fingerprint) :
    ∃ dims, evidenceDimensions value = .ok dims ∧ fingerprint = H.sha256 (fingerprintText dims) := by
  obtain ⟨dims, hdims, h⟩ := bind_eq_ok.mp h
  exact ⟨dims, hdims, (Except.ok.inj h).symm⟩

theorem quote_notMem {t : Text} (h : safeDimension t = true) : Char.ofNat 0x22 ∉ t := by
  cases t with
  | nil => simp
  | cons c rest =>
    simp only [safeDimension, Bool.and_eq_true, List.all_eq_true] at h
    obtain ⟨hc, hrest⟩ := h
    intro hmem
    rcases List.mem_cons.mp hmem with rfl | hmem
    · revert hc
      decide
    · have hquote := hrest _ hmem
      revert hquote
      decide

theorem append_cons_inj {c : Char} {t t' r r' : Text} (ht : c ∉ t) (ht' : c ∉ t')
    (h : t ++ c :: r = t' ++ c :: r') : t = t' ∧ r = r' := by
  induction t generalizing t' with
  | nil =>
    cases t' with
    | nil => simpa using h
    | cons x t' =>
      obtain ⟨rfl, -⟩ := List.cons.inj h
      exact absurd List.mem_cons_self ht'
  | cons x t ih =>
    cases t' with
    | nil =>
      obtain ⟨rfl, -⟩ := List.cons.inj h
      exact absurd List.mem_cons_self ht
    | cons y t' =>
      obtain ⟨rfl, htail⟩ := List.cons.inj h
      rw [List.mem_cons, not_or] at ht ht'
      obtain ⟨rfl, hrest⟩ := ih ht.2 ht'.2 htail
      exact ⟨rfl, hrest⟩

/-- One named dimension of the document. -/
def fingerprintItem (dims : EvidenceDimension → Text) (d : EvidenceDimension) : Text :=
  quoted d.field.toList ++ ':' :: quoted (dims d)

theorem fingerprintItem_append_inj {dims dims' : EvidenceDimension → Text}
    (h : ∀ d, safeDimension (dims d) = true) (h' : ∀ d, safeDimension (dims' d) = true)
    {d : EvidenceDimension} {r r' : Text}
    (heq : fingerprintItem dims d ++ r = fingerprintItem dims' d ++ r') :
    dims d = dims' d ∧ r = r' := by
  simp only [fingerprintItem, List.append_assoc, List.cons_append] at heq
  have hvalue := List.append_cancel_left heq
  simp only [quoted, List.cons_append, List.append_assoc, List.nil_append, List.cons.injEq,
    true_and] at hvalue
  exact append_cons_inj (quote_notMem (h d)) (quote_notMem (h' d)) hvalue

theorem fingerprintItems_inj {dims dims' : EvidenceDimension → Text}
    (h : ∀ d, safeDimension (dims d) = true) (h' : ∀ d, safeDimension (dims' d) = true)
    (ds : List EvidenceDimension) {r r' : Text}
    (heq : [','].intercalate (ds.map (fingerprintItem dims)) ++ r =
      [','].intercalate (ds.map (fingerprintItem dims')) ++ r') :
    ∀ d ∈ ds, dims d = dims' d := by
  induction ds with
  | nil => simp
  | cons d ds ih =>
    cases ds with
    | nil =>
      simp only [List.map_cons, List.map_nil, List.intercalate_singleton] at heq
      simpa using (fingerprintItem_append_inj h h' heq).1
    | cons e ds =>
      simp only [List.map_cons, List.intercalate_cons_cons, List.append_assoc] at heq ih
      obtain ⟨hd, hrest⟩ := fingerprintItem_append_inj h h' heq
      intro d' hd'
      rcases List.mem_cons.mp hd' with rfl | hmem
      · exact hd
      · exact ih (List.append_cancel_left hrest) d' hmem

/-- The document of six dimensions determines them. -/
theorem fingerprintText_injective {dims dims' : EvidenceDimension → Text}
    (h : ∀ d, safeDimension (dims d) = true) (h' : ∀ d, safeDimension (dims' d) = true)
    (heq : fingerprintText dims = fingerprintText dims') : dims = dims' := by
  have hitems := fingerprintItems_inj h h' sortedDimensions (List.cons.inj heq).2
  funext d
  exact hitems d (by cases d <;> decide)

/-! ### What was proven -/

/-- The row that a capability refers to is a passed test of this capability, with the
dimensions that are configured and that run, and it has begun and not ended. -/
structure Evidenced (H : Host) (k : VoiceCapability) (capability dimensions : Json)
    (now : PyDatetime) (anchor : EvidenceAnchor) (dims : EvidenceDimension → Text)
    (verified expires : PyDatetime) (ttl : ℤ) : Prop where
  report : capability.field "evidence_report_id" = .str anchor.evidenceReportId
  capabilityKey : anchor.capabilityKey = k.key.toList
  passed : anchor.verificationResult = "passed".toList
  projected : ∀ d : EvidenceDimension, capability.field d.field = .str (dims d)
  anchored : ∀ d : EvidenceDimension, anchor.dimensions.field d.field = .str (dims d)
  current : ∀ d : EvidenceDimension, dimensions.field d.field = .str (dims d)
  fingerprint : capability.field "evidence_fingerprint" = .str (H.sha256 (fingerprintText dims))
  verifiedAt : parseDatetime H (capability.field "verified_at") = some verified
  expiresAt : parseDatetime H (capability.field "expires_at") = some expires
  ttlDays : capability.field "evidence_ttl_days" = .int ttl
  begun : verified.utc ≤ now.utc
  ahead : now.utc < expires.utc
  lifetime : expires.utc = verified.utc + days ttl

namespace VoiceRuntimeBundle

/-- A capability as it is configured. -/
def capability (b : VoiceRuntimeBundle) (k : VoiceCapability) : Json :=
  (b.config.payload.field "capabilities").field k.key

def testUser (b : VoiceRuntimeBundle) (userId : Option ℤ) : Bool :=
  isTestUser ((b.config.payload.field "global").field "test_user_ids") userId

/-- Stored as verified, with evidence for it at hand. -/
def Proven (H : Host) (b : VoiceRuntimeBundle) (current : Option Json) (now : PyDatetime)
    (k : VoiceCapability) : Prop :=
  (b.capability k).field "verification_status" = .str "verified".toList ∧
    b.evidenceAnchorsAvailable = true ∧
    ∃ anchor dims verified expires ttl,
      Dict.get b.evidenceAnchors anchor.evidenceReportId = some anchor ∧
      Evidenced H k (b.capability k) ((current.getD .null).field k.key) now anchor dims verified
        expires ttl

/-- Unproven, and forced for test users by an audited operation. -/
def ForcedForTest (b : VoiceRuntimeBundle) (userId : Option ℤ) (k : VoiceCapability)
    (item : Json) : Prop :=
  (item.field "verification_status").strIn ["unverified", "stale"] = true ∧
    forcedByConfig (b.capability k) = true ∧ b.forceSourcesAvailable = true ∧
    (Dict.get b.forceSources k.key.toList).isSome = true ∧ b.testUser userId = true

/-- An enabled capability was proven or forced; any other is off in every respect. -/
structure CapabilitySound (H : Host) (b : VoiceRuntimeBundle) (current : Option Json)
    (now : PyDatetime) (userId : Option ℤ) (k : VoiceCapability) (item : Json) : Prop where
  enabled : item.field "enabled" = .bool true →
    (b.Proven H current now k ∧
      ((b.capability k).field "effective_scope" = .str "all".toList ∨
        b.testUser userId = true)) ∨
    b.ForcedForTest userId k item
  disabled : item.field "enabled" ≠ .bool true →
    item.field "enabled" = .bool false ∧ item.field "forced_enabled" = .bool false ∧
      item.field "effective_scope" = .str "off".toList

/-- The flags of a capability whose evidence is accepted go together for this caller. -/
def FlagsAgree (H : Host) (b : VoiceRuntimeBundle) (current : Option Json) (now : PyDatetime)
    (userId : Option ℤ) (k : VoiceCapability) : Prop :=
  (b.capability k).field "verification_status" = .str "verified".toList →
  fresh H (b.capability k) ((current.getD .null).field k.key) now = true →
  b.anchorValid H k (b.capability k) now = true →
    (isTrue ((b.capability k).field "enabled") = true →
      (b.capability k).field "effective_scope" = .str "off".toList → b.testUser userId = true) ∧
    (isTrue ((b.capability k).field "enabled") = false →
      isTrue ((b.capability k).field "forced_enabled") = false)

end VoiceRuntimeBundle

/-- The digests of these two capabilities' dimensions tell them apart. -/
def DigestsDiffer (H : Host) (capability dimensions : Json) : Prop :=
  ∀ dims dims', evidenceDimensions capability = .ok dims → evidenceDimensions dimensions = .ok dims' →
    H.sha256 (fingerprintText dims) = H.sha256 (fingerprintText dims') →
    fingerprintText dims = fingerprintText dims'

/-! ### Evidence -/

/-- What the resolver has compared. -/
theorem fresh_spec {H : Host} {capability current : Json} {now : PyDatetime}
    (h : fresh H capability current now = true) :
    ∃ dims dims' ttl verified expires,
      evidenceDimensions current = .ok dims' ∧ evidenceDimensions capability = .ok dims ∧
      H.sha256 (fingerprintText dims) = H.sha256 (fingerprintText dims') ∧
      isNonBlankText (capability.field "evidence_report_id") = true ∧
      unexpired H capability ttl now = true ∧
      capability.field "evidence_ttl_days" = .int ttl ∧
      parseDatetime H (capability.field "verified_at") = some verified ∧
      parseDatetime H (capability.field "expires_at") = some expires ∧
      (evidenceExpiresAt verified ttl).utc = expires.utc ∧ now.utc < expires.utc := by
  unfold fresh at h
  split at h
  · rename_i fpCurrent fpProjected ttl hcurrent hprojected httl
    simp only [Bool.and_eq_true] at h
    obtain ⟨⟨⟨⟨⟨hagree, hreport⟩, hunexpired⟩, -⟩, -⟩, -⟩ := h
    obtain ⟨dims', hdims', rfl⟩ := computeEvidenceFingerprint_eq_ok hcurrent
    obtain ⟨dims, hdims, rfl⟩ := computeEvidenceFingerprint_eq_ok hprojected
    have hsame : H.sha256 (fingerprintText dims) = H.sha256 (fingerprintText dims') := by
      unfold fingerprintsAgree at hagree
      split at hagree
      · simp only [Bool.and_eq_true, decide_eq_true_eq] at hagree
        rw [← hagree.1, ← hagree.2]
      · simp at hagree
    have hdays : capability.field "evidence_ttl_days" = .int ttl := by
      unfold validateEvidenceTtlDays at httl
      split at httl
      · rename_i n hn
        obtain ⟨-, -, httl⟩ := bind_eq_ok.mp httl
        rw [hn, Except.ok.inj httl]
      · simp at httl
    have htimes := hunexpired
    unfold unexpired at htimes
    split at htimes
    · rename_i verified expires hverified hexpires
      simp only [Bool.and_eq_true, decide_eq_true_eq] at htimes
      exact ⟨dims, dims', ttl, verified, expires, hdims', hdims, hsame, hreport, hunexpired,
        hdays, hverified, hexpires, htimes⟩
    · simp at htimes
  · simp at h

/-- What the check of the row has compared. -/
theorem verifiedAnchorMatches_spec {H : Host} {k : VoiceCapability} {capability : Json}
    {anchor : Option EvidenceAnchor} {now : PyDatetime}
    (h : verifiedAnchorMatches H k capability anchor now = true) :
    ∃ a, anchor = some a ∧ hasText (capability.field "evidence_report_id") a.evidenceReportId = true ∧
      a.capabilityKey = k.key.toList ∧ a.verificationResult = "passed".toList ∧
      Json.pyEq (dimensionsValue fun d => capability.field d.field) a.dimensions = true ∧
      anchorFingerprintMatches H capability a = true ∧
      ∃ ttl, anchorTtlMatches capability a = some ttl ∧
        anchorTimesMatch H capability a ttl now = true := by
  unfold verifiedAnchorMatches at h
  rw [Option.any_eq_true] at h
  obtain ⟨a, hanchor, h⟩ := h
  simp only [Bool.and_eq_true, decide_eq_true_eq, Option.any_eq_true] at h
  obtain ⟨⟨⟨⟨⟨⟨-, hreport⟩, hkey⟩, hresult⟩, hdims⟩, hfingerprint⟩, httl⟩ := h
  exact ⟨a, hanchor, hreport, hkey, hresult, hdims, hfingerprint, httl⟩

theorem field_of_pyEq_dimensionsValue {f : EvidenceDimension → Json} {dims : Json}
    {t : EvidenceDimension → Text} (hf : ∀ d, f d = .str (t d))
    (h : Json.pyEq (dimensionsValue f) dims = true) (d : EvidenceDimension) :
    dims.field d.field = .str (t d) := by
  cases dims with
  | obj fields =>
    have hmem : (d.field.toList, f d) ∈ EvidenceDimension.all.map fun d => (d.field.toList, f d) :=
      List.mem_map.mpr ⟨d, d.mem_all, rfl⟩
    obtain ⟨w, hget, hw⟩ := Json.pyEq_obj_get h hmem
    rw [hf d, Json.pyEq_str_left] at hw
    simp [Json.field, Json.get, hget, hw]
  | _ => simp [dimensionsValue, Json.pyEq] at h

/-- Evidence that both gates accept is evidence. -/
theorem proven_of_accepted {H : Host} {b : VoiceRuntimeBundle} {current : Option Json}
    {now : PyDatetime} {k : VoiceCapability}
    (hdiffer : DigestsDiffer H (b.capability k) ((current.getD .null).field k.key))
    (hstatus : (b.capability k).field "verification_status" = .str "verified".toList)
    (hfresh : fresh H (b.capability k) ((current.getD .null).field k.key) now = true)
    (hvalid : b.anchorValid H k (b.capability k) now = true) : b.Proven H current now k := by
  obtain ⟨dims, dims', ttl, verified, expires, hcurrent, hprojected, hsame, -, -, httl,
    hverified, hexpires, hlifetime, hahead⟩ := fresh_spec hfresh
  unfold VoiceRuntimeBundle.anchorValid at hvalid
  obtain ⟨havailable, hmatches⟩ := Bool.and_eq_true_iff.mp hvalid
  obtain ⟨a, hanchor, hreport, hkey, hresult, hdims, hfingerprint, ttl', -, htimes⟩ :=
    verifiedAnchorMatches_spec hmatches
  have hdim : ∀ d, (b.capability k).field d.field = .str (dims d) :=
    fun d => (evidenceDimensions_eq_ok hprojected d).1
  obtain rfl : dims = dims' :=
    fingerprintText_injective (fun d => (evidenceDimensions_eq_ok hprojected d).2)
      (fun d => (evidenceDimensions_eq_ok hcurrent d).2) (hdiffer dims dims' hprojected hcurrent hsame)
  have hanchored := field_of_pyEq_dimensionsValue hdim hdims
  rw [hasText_iff] at hreport
  have hget : Dict.get b.evidenceAnchors a.evidenceReportId = some a := by
    simpa [VoiceRuntimeBundle.anchorOf, hreport] using hanchor
  have hfp : (b.capability k).field "evidence_fingerprint" =
      .str (H.sha256 (fingerprintText dims)) := by
    unfold anchorFingerprintMatches at hfingerprint
    split at hfingerprint
    · rename_i expected hexpected
      obtain ⟨adims, hadims, rfl⟩ := computeEvidenceFingerprint_eq_ok hexpected
      obtain rfl : adims = dims := by
        funext d
        have hd := (evidenceDimensions_eq_ok hadims d).1
        rw [hanchored d] at hd
        exact (Json.str.inj hd).symm
      exact hasText_iff.mp (Bool.and_eq_true_iff.mp hfingerprint).2
    · simp at hfingerprint
  have hbegun : verified.utc ≤ now.utc := by
    unfold anchorTimesMatch at htimes
    rw [hverified, hexpires] at htimes
    split at htimes
    · rename_i v e pv pe hv he hpv hpe
      obtain rfl := Option.some.inj hpv
      simp only [Bool.and_eq_true, decide_eq_true_eq] at htimes
      rw [htimes.1.1.1.1]
      exact htimes.1.2
    · simp at htimes
  exact ⟨hstatus, havailable, a, dims, verified, expires, ttl, hget,
    { report := hreport
      capabilityKey := hkey
      passed := hresult
      projected := hdim
      anchored := hanchored
      current := fun d => (evidenceDimensions_eq_ok hcurrent d).1
      fingerprint := hfp
      verifiedAt := hverified
      expiresAt := hexpires
      ttlDays := httl
      begun := hbegun
      ahead := hahead
      lifetime := by
        rw [← hlifetime]
        simp only [evidenceExpiresAt, PyDatetime.utc]
        ring }⟩

/-! ### One capability -/

/-- Off in every respect. -/
def Off (item : Json) : Prop :=
  item.field "enabled" = .bool false ∧ item.field "forced_enabled" = .bool false ∧
    item.field "effective_scope" = .str "off".toList

theorem off_update {j status : Json} (hj : j.isObj = true) :
    Off (j.update [("verification_status", status), ("enabled", .bool false),
      ("forced_enabled", .bool false), ("effective_scope", .str "off".toList)]) := by
  refine ⟨?_, ?_, ?_⟩ <;> exact Json.field_update_of_mem hj (by simp) (by simp)

theorem isObj_disabledProjection (j : Json) (status : String) :
    (disabledProjection j status).isObj = j.isObj :=
  Json.isObj_update _ _

theorem status_disabledProjection {j : Json} (hj : j.isObj = true) (status : String) :
    (disabledProjection j status).field "verification_status" = .str status.toList :=
  Json.field_update_of_mem hj (by simp) (by simp)

theorem find_nonVerified {s : String} (hs : s ∈ nonVerifiedStatuses) :
    nonVerifiedStatuses.find? (fun t => decide (t.toList = s.toList)) = some s := by
  simp only [nonVerifiedStatuses, List.mem_cons, List.not_mem_nil, or_false] at hs
  rcases hs with rfl | rfl | rfl <;> decide

/-- A status that is not verified comes out forced for test users, or off. -/
theorem scope_of_unverified {original resolved item : Json} {testUser allow : Bool} {s : String}
    (hobj : resolved.isObj = true) (hs : s ∈ nonVerifiedStatuses)
    (hstatus : resolved.field "verification_status" = .str s.toList)
    (h : scopeCapabilityForCall original resolved testUser allow = some item) :
    (allow = true ∧ s ∈ ["unverified", "stale"] ∧ forcedByConfig original = true ∧
      testUser = true ∧ item = resolved.update [("enabled", .bool true),
        ("forced_enabled", .bool true), ("effective_scope", .str "test".toList)]) ∨ Off item := by
  unfold scopeCapabilityForCall at h
  rw [hstatus] at h
  dsimp only at h
  rw [find_nonVerified hs] at h
  split at h
  · rename_i hforced
    simp only [Bool.and_eq_true, decide_eq_true_eq, String.toList_inj] at hforced
    obtain ⟨⟨⟨hallow, hunproven⟩, hconfig⟩, huser⟩ := hforced
    exact Or.inl ⟨hallow, by simpa using hunproven, hconfig, huser, (Option.some.inj h).symm⟩
  · obtain rfl := Option.some.inj h
    exact Or.inr (off_update hobj)

/-- A capability that stays verified is only narrowed to its test users. -/
theorem scope_of_verified {original resolved : Json} {testUser allow : Bool}
    (hstatus : resolved.field "verification_status" = .str "verified".toList) :
    scopeCapabilityForCall original resolved testUser allow =
      some (if (resolved.field "effective_scope").isStr "test" && !testUser then
        disabledProjection resolved "verified" else resolved) := by
  unfold scopeCapabilityForCall
  rw [hstatus]
  have hunproven : decide ("verified".toList = "unverified".toList ∨
      "verified".toList = "stale".toList) = false := by decide
  have hfind : nonVerifiedStatuses.find? (fun t => decide (t.toList = "verified".toList)) = none := by
    decide
  dsimp only
  rw [hunproven, hfind]
  simp only [Bool.and_false, Bool.false_and, Bool.false_eq_true, if_false]
  by_cases hscope : ((resolved.field "effective_scope").isStr "test" && !testUser) = true
  · rw [if_pos hscope, if_pos hscope, disabledProjection]
  · rw [if_neg hscope, if_neg hscope]

/-- What the resolver makes of a verified capability. -/
theorem resolve_verified {H : Host} {capability current : Json} {now : PyDatetime}
    (hstatus : capability.field "verification_status" = .str "verified".toList) :
    resolveRuntimeCapability H capability current now =
      if fresh H capability current now then
        some (if isTrue (capability.field "enabled") then capability
          else capability.update [("enabled", .bool false), ("effective_scope", .str "off".toList)])
      else some (disabledProjection capability "stale") := by
  rw [resolveRuntimeCapability, hstatus]
  simp only [if_pos]

theorem resolve_of_unverified {H : Host} {capability current : Json} {now : PyDatetime}
    {s : String} (hs : s ∈ nonVerifiedStatuses)
    (hstatus : capability.field "verification_status" = .str s.toList) :
    resolveRuntimeCapability H capability current now = some (disabledProjection capability s) := by
  have hne : s.toList ≠ "verified".toList := by
    simp only [nonVerifiedStatuses, List.mem_cons, List.not_mem_nil, or_false] at hs
    rcases hs with rfl | rfl | rfl <;> decide
  rw [resolveRuntimeCapability, hstatus]
  dsimp only
  rw [if_neg hne, find_nonVerified hs, Option.map_some]

theorem evidenceDimensions_congr {value value' : Json}
    (h : ∀ d : EvidenceDimension, value.field d.field = value'.field d.field) :
    evidenceDimensions value = evidenceDimensions value' := by
  unfold evidenceDimensions
  simp only [h]

theorem get_dimensions (f : EvidenceDimension → Json) (d : EvidenceDimension) :
    Dict.get (EvidenceDimension.all.map fun d => (d.field.toList, f d)) d.field.toList =
      some (f d) := by
  have hget : ∀ ds : List EvidenceDimension, d ∈ ds →
      Dict.get (ds.map fun d => (d.field.toList, f d)) d.field.toList = some (f d) := by
    intro ds hd
    induction ds with
    | nil => simp at hd
    | cons e ds ih =>
      by_cases he : e = d
      · simp [Dict.get, he]
      · have hne : e.field.toList ≠ d.field.toList := fun heq =>
          he (EvidenceDimension.field_injective (String.toList_inj.mp heq))
        simpa [Dict.get, hne] using ih (List.mem_of_ne_of_mem (Ne.symm he) hd)
  exact hget _ d.mem_all

theorem field_dimensionsValue (f : EvidenceDimension → Json) (d : EvidenceDimension) :
    (dimensionsValue f).field d.field = f d := by
  simp [dimensionsValue, Json.field, Json.get, get_dimensions]

theorem ite_eq_ok {α ε : Type} {c : Prop} [Decidable c] {a b : α} {e : ε}
    (h : (if c then Except.ok a else .error e) = .ok b) : a = b := by
  split_ifs at h
  exact Except.ok.inj h

/-- Dimensions that are not given are those of nothing. -/
theorem fresh_currentDimensions (H : Host) {current : Option Json} {k : VoiceCapability}
    {dimensions : Json} (capability : Json) (now : PyDatetime)
    (h : currentDimensions current k = .ok dimensions) :
    fresh H capability dimensions now =
      fresh H capability ((current.getD .null).field k.key) now := by
  have hmissing : evidenceDimensions missingCurrentDimensions = evidenceDimensions .null :=
    evidenceDimensions_congr fun d => field_dimensionsValue _ d
  have hsame : evidenceDimensions dimensions =
      evidenceDimensions ((current.getD .null).field k.key) := by
    cases current with
    | none =>
      simp only [currentDimensions] at h
      obtain rfl : missingCurrentDimensions = dimensions := ite_eq_ok h
      exact hmissing
    | some provided =>
      simp only [currentDimensions] at h
      obtain rfl : (provided.get k.key).getD missingCurrentDimensions = dimensions := ite_eq_ok h
      cases hget : provided.get k.key with
      | none => simpa [Json.field, hget] using hmissing
      | some given => simp [Json.field, hget]
  simp only [fresh, computeEvidenceFingerprint, hsame]

/-- Both gates accept the evidence of a capability. -/
def Accepted (H : Host) (b : VoiceRuntimeBundle) (current : Option Json) (now : PyDatetime)
    (k : VoiceCapability) (capability : Json) : Prop :=
  capability.field "verification_status" = .str "verified".toList ∧
    fresh H capability ((current.getD .null).field k.key) now = true ∧
    b.anchorValid H k capability now = true

/-- What an accepted capability is before it is narrowed. -/
def acceptedProjection (capability : Json) : Json :=
  if isTrue (capability.field "enabled") then capability
  else capability.update [("enabled", .bool false), ("effective_scope", .str "off".toList)]

/-- What is left of an accepted capability for one caller. -/
def narrowed (testUser : Bool) (projection : Json) : Json :=
  if (projection.field "effective_scope").isStr "test" && !testUser then
    disabledProjection projection "verified" else projection

/-- A capability came out forced. -/
structure ForcedOutcome (b : VoiceRuntimeBundle) (testUser : Bool) (k : VoiceCapability)
    (capability item : Json) : Prop where
  status : (item.field "verification_status").strIn ["unverified", "stale"] = true
  config : forcedByConfig capability = true
  source : (b.forceSource k).isSome = true
  tester : testUser = true
  enabled : item.field "enabled" = .bool true
  scope : item.field "effective_scope" = .str "test".toList

theorem forcedOutcome_or_off {b : VoiceRuntimeBundle} {testUser : Bool} (anchorValid : Bool)
    {k : VoiceCapability} {capability item : Json} {s : String} (hobj : capability.isObj = true)
    (hs : s ∈ nonVerifiedStatuses)
    (h : scopeCapabilityForCall capability (disabledProjection capability s) testUser
      (anchorValid && (b.forceSource k).isSome) = some item) :
    ForcedOutcome b testUser k capability item ∨ Off item := by
  have hobj' : (disabledProjection capability s).isObj = true :=
    (isObj_disabledProjection capability s).trans hobj
  rcases scope_of_unverified hobj' hs (status_disabledProjection hobj s) h with
    ⟨hallow, hunproven, hconfig, htester, rfl⟩ | hoff
  · refine Or.inl ⟨?_, hconfig, (Bool.and_eq_true_iff.mp hallow).2, htester, ?_, ?_⟩
    · rw [Json.field_update_ne (by simp), status_disabledProjection hobj s, Json.strIn_iff]
      exact ⟨s, hunproven, rfl⟩
    · exact Json.field_update_of_mem hobj' (by simp) (by simp)
    · exact Json.field_update_of_mem hobj' (by simp) (by simp)
  · exact Or.inr hoff

/-- One turn of the loop: an accepted capability is narrowed, any other is forced or off. -/
theorem runtimeCapability_outcome {H : Host} {b : VoiceRuntimeBundle} {current : Option Json}
    {now : PyDatetime} {testUser : Bool} {k : VoiceCapability} {capability : Json}
    {r : RuntimeCapability} (htyped : WellTyped capability)
    (h : runtimeCapability H b current now testUser k capability = .ok r) :
    (Accepted H b current now k capability ∧
      r.value = narrowed testUser (acceptedProjection capability)) ∨
    (¬Accepted H b current now k capability ∧
      (ForcedOutcome b testUser k capability r.value ∨ Off r.value)) := by
  obtain ⟨dimensions, hdims, h⟩ := bind_eq_ok.mp h
  obtain ⟨resolved, hresolve, h⟩ := bind_eq_ok.mp h
  obtain ⟨item, hitem, h⟩ := bind_eq_ok.mp h
  obtain rfl := Except.ok.inj h
  rw [orRaise_eq_ok] at hresolve hitem
  have hobj := htyped.isObj
  have hsame := fresh_currentDimensions H capability now hdims
  obtain ⟨s, hs, hstatus⟩ := Json.strIn_iff.mp htyped.status
  rcases List.mem_cons.mp hs with rfl | hs
  · have hverified : (capability.field "verification_status").isStr "verified" = true :=
      Json.isStr_iff.mpr hstatus
    rw [resolve_verified hstatus, hsame] at hresolve
    rw [hverified, Bool.not_true, Bool.false_or] at hitem
    cases hvalid : b.anchorValid H k capability now with
    | true =>
      rw [hvalid, if_pos rfl, Bool.true_and] at hitem
      split_ifs at hresolve with hfresh henabled
      · obtain rfl := Option.some.inj hresolve
        rw [scope_of_verified hstatus] at hitem
        refine Or.inl ⟨⟨hstatus, hfresh, hvalid⟩, ?_⟩
        rw [acceptedProjection, if_pos henabled]
        exact (Option.some.inj hitem).symm
      · obtain rfl := Option.some.inj hresolve
        rw [scope_of_verified ((Json.field_update_ne (by simp)).trans hstatus)] at hitem
        refine Or.inl ⟨⟨hstatus, hfresh, hvalid⟩, ?_⟩
        rw [acceptedProjection, if_neg henabled]
        exact (Option.some.inj hitem).symm
      · obtain rfl := Option.some.inj hresolve
        exact Or.inr ⟨fun haccepted => hfresh haccepted.2.1,
          forcedOutcome_or_off true hobj (by simp [nonVerifiedStatuses]) hitem⟩
    | false =>
      have hnot : ¬Accepted H b current now k capability := by
        rintro ⟨-, -, haccepted⟩
        simp [hvalid] at haccepted
      rw [hvalid] at hitem
      have hresolved : resolved.isObj = true := by
        split_ifs at hresolve <;> obtain rfl := Option.some.inj hresolve
        · exact hobj
        · exact (Json.isObj_update _ _).trans hobj
        · exact (isObj_disabledProjection capability "stale").trans hobj
      have hstale := status_disabledProjection hresolved "stale"
      have hoff := scope_of_unverified ((isObj_disabledProjection resolved "stale").trans hresolved)
        (s := "stale") (by simp [nonVerifiedStatuses]) hstale hitem
      refine Or.inr ⟨hnot, Or.inr (hoff.resolve_left ?_)⟩
      rintro ⟨hallow, -⟩
      simp at hallow
  · have hnot : ¬Accepted H b current now k capability := by
      rintro ⟨haccepted, -⟩
      rw [hstatus] at haccepted
      simp only [List.mem_cons, List.not_mem_nil, or_false] at hs
      rcases hs with rfl | rfl | rfl <;> simp at haccepted
    have hunverified : (capability.field "verification_status").isStr "verified" = false := by
      cases hv : (capability.field "verification_status").isStr "verified" with
      | false => rfl
      | true =>
        rw [Json.isStr_iff, hstatus] at hv
        simp only [List.mem_cons, List.not_mem_nil, or_false] at hs
        rcases hs with rfl | rfl | rfl <;> simp at hv
    rw [resolve_of_unverified hs hstatus] at hresolve
    obtain rfl := Option.some.inj hresolve
    rw [hunverified, Bool.not_false, Bool.true_or, if_pos rfl] at hitem
    exact Or.inr ⟨hnot, forcedOutcome_or_off true hobj hs hitem⟩

theorem isSome_of_forceSource {b : VoiceRuntimeBundle} {k : VoiceCapability}
    (h : (b.forceSource k).isSome = true) :
    b.forceSourcesAvailable = true ∧ (Dict.get b.forceSources k.key.toList).isSome = true := by
  unfold VoiceRuntimeBundle.forceSource at h
  split_ifs at h with havailable
  · refine ⟨havailable, ?_⟩
    cases hget : Dict.get b.forceSources k.key.toList with
    | none => simp [hget] at h
    | some source => rfl
  · simp at h

theorem sound_of_off {H : Host} {b : VoiceRuntimeBundle} {current : Option Json}
    {now : PyDatetime} {userId : Option ℤ} {k : VoiceCapability} {item : Json} (h : Off item) :
    b.CapabilitySound H current now userId k item where
  enabled henabled := by
    rw [h.1] at henabled
    simp at henabled
  disabled _ := h

/-- The value of an accepted capability is sound exactly when its flags agree. -/
theorem sound_narrowed_iff {H : Host} {b : VoiceRuntimeBundle} {current : Option Json}
    {now : PyDatetime} {userId : Option ℤ} {k : VoiceCapability}
    (htyped : WellTyped (b.capability k))
    (hdiffer : DigestsDiffer H (b.capability k) ((current.getD .null).field k.key))
    (haccepted : Accepted H b current now k (b.capability k)) :
    b.CapabilitySound H current now userId k
        (narrowed (b.testUser userId) (acceptedProjection (b.capability k))) ↔
      b.FlagsAgree H current now userId k := by
  obtain ⟨hstatus, hfresh, hvalid⟩ := haccepted
  have hproven := proven_of_accepted hdiffer hstatus hfresh hvalid
  obtain ⟨enabled, henabled⟩ := Json.isBool_iff.mp htyped.enabled
  obtain ⟨forced, hforced⟩ := Json.isBool_iff.mp htyped.forced
  obtain ⟨scope, hscope, hscopeValue⟩ := Json.strIn_iff.mp htyped.scope
  have hagree : b.FlagsAgree H current now userId k ↔
      (enabled = true → scope = "off" → b.testUser userId = true) ∧
        (enabled = false → forced = false) := by
    unfold VoiceRuntimeBundle.FlagsAgree
    rw [henabled, hforced, hscopeValue, Json.str.injEq, String.toList_inj]
    simp [hstatus, hfresh, hvalid, CapabilityRules.isTrue]
  rw [hagree]
  cases enabled with
  | false =>
    have hprojection : acceptedProjection (b.capability k) = (b.capability k).update
        [("enabled", .bool false), ("effective_scope", .str "off".toList)] := by
      rw [acceptedProjection, henabled, if_neg (by simp [CapabilityRules.isTrue])]
    have hoff : (acceptedProjection (b.capability k)).field "effective_scope" =
        .str "off".toList := by
      rw [hprojection]
      exact Json.field_update_of_mem htyped.isObj (by simp) (by simp)
    have hdisabled : (acceptedProjection (b.capability k)).field "enabled" = .bool false := by
      rw [hprojection]
      exact Json.field_update_of_mem htyped.isObj (by simp) (by simp)
    have hkept : (acceptedProjection (b.capability k)).field "forced_enabled" = .bool forced := by
      rw [hprojection, Json.field_update_ne (by simp), hforced]
    rw [narrowed, hoff, if_neg (by simp [Json.isStr])]
    refine ⟨fun hsound => ⟨by simp, fun _ => ?_⟩, fun hflags => sound_of_off ?_⟩
    · have hnot := (hsound.disabled (by rw [hdisabled]; simp)).2.1
      rw [hkept] at hnot
      exact Json.bool.inj hnot
    · exact ⟨hdisabled, by rw [hkept, hflags.2 rfl], hoff⟩
  | true =>
    have hprojection : acceptedProjection (b.capability k) = b.capability k := by
      rw [acceptedProjection, henabled, if_pos (by rfl)]
    have hverified : ¬b.ForcedForTest userId k (b.capability k) := by
      rintro ⟨hunproven, -⟩
      rw [hstatus] at hunproven
      revert hunproven
      decide
    rw [hprojection, narrowed, hscopeValue]
    split_ifs with hnarrow
    · -- narrowed away from a caller who does not test
      simp only [Json.isStr_iff, Bool.and_eq_true, Bool.not_eq_true', Json.str.injEq,
        String.toList_inj] at hnarrow
      obtain ⟨rfl, -⟩ := hnarrow
      exact ⟨fun _ => by simp, fun _ => sound_of_off (off_update htyped.isObj)⟩
    · refine ⟨fun hsound => ⟨fun _ hoff => ?_, by simp⟩, fun hflags => ⟨fun _ => ?_, ?_⟩⟩
      · rcases hsound.enabled henabled with ⟨-, hall | htester⟩ | hforce
        · rw [hscopeValue, hoff] at hall
          simp at hall
        · exact htester
        · exact absurd hforce hverified
      · refine Or.inl ⟨hproven, ?_⟩
        simp only [List.mem_cons, List.not_mem_nil, or_false] at hscope
        rcases hscope with rfl | rfl | rfl
        · exact Or.inr (hflags.1 rfl rfl)
        · right
          simpa [Json.isStr] using hnarrow
        · exact Or.inl hscopeValue
      · intro hnot
        exact absurd henabled hnot

theorem capability_sound_iff {H : Host} {b : VoiceRuntimeBundle} {current : Option Json}
    {now : PyDatetime} {userId : Option ℤ} {k : VoiceCapability} {r : RuntimeCapability}
    (htyped : WellTyped (b.capability k))
    (hdiffer : DigestsDiffer H (b.capability k) ((current.getD .null).field k.key))
    (h : runtimeCapability H b current now (b.testUser userId) k (b.capability k) = .ok r) :
    b.CapabilitySound H current now userId k r.value ↔ b.FlagsAgree H current now userId k := by
  rcases runtimeCapability_outcome htyped h with ⟨haccepted, hvalue⟩ | ⟨hnot, houtcome⟩
  · rw [hvalue]
    exact sound_narrowed_iff htyped hdiffer haccepted
  · have hflags : b.FlagsAgree H current now userId k :=
      fun hstatus hfresh hvalid => absurd ⟨hstatus, hfresh, hvalid⟩ hnot
    refine iff_of_true ?_ hflags
    rcases houtcome with hforced | hoff
    · have hsource := isSome_of_forceSource hforced.source
      refine ⟨fun _ => Or.inr ⟨hforced.status, hforced.config, hsource.1, hsource.2,
        hforced.tester⟩, fun hdisabled => absurd hforced.enabled hdisabled⟩
    · exact sound_of_off hoff

/-! ### The snapshot -/

/-- Every capability of the loop has its own entry. -/
theorem runtimeCapabilities_get {H : Host} {b : VoiceRuntimeBundle} {current : Option Json}
    {now : PyDatetime} {testUser : Bool} {capabilities : Json} {ks : List VoiceCapability}
    {runtime : List (VoiceCapability × RuntimeCapability)}
    (h : runtimeCapabilities H b current now testUser capabilities ks = .ok runtime)
    {k : VoiceCapability} (hk : k ∈ ks) :
    ∃ r, runtimeCapability H b current now testUser k (capabilities.field k.key) = .ok r ∧
      ∀ f : VoiceCapability × RuntimeCapability → Json,
        Dict.get (runtime.map fun e => (e.1.key.toList, f e)) k.key.toList = some (f (k, r)) := by
  induction ks generalizing runtime with
  | nil => simp at hk
  | cons k' ks ih =>
    obtain ⟨first, hfirst, h⟩ := bind_eq_ok.mp h
    obtain ⟨more, hmore, h⟩ := bind_eq_ok.mp h
    obtain rfl := Except.ok.inj h
    by_cases hkey : k' = k
    · subst hkey
      exact ⟨first, hfirst, fun f => by simp [Dict.get]⟩
    · obtain ⟨r, hr, hget⟩ := ih hmore (List.mem_of_ne_of_mem (Ne.symm hkey) hk)
      have hne : k'.key.toList ≠ k.key.toList := fun heq =>
        hkey (VoiceCapability.key_injective (String.toList_inj.mp heq))
      exact ⟨r, hr, fun f => by simpa [Dict.get, hne] using hget f⟩

theorem field_setDefault_ne {document value : Json} {key key' : String} (h : key ≠ key') :
    (setDefault document key value).field key' = document.field key' := by
  unfold setDefault
  split
  · rfl
  · exact Json.field_put_ne h value

theorem isObj_setDefault {document value : Json} {key : String} :
    (setDefault document key value).isObj = document.isObj := by
  unfold setDefault
  split
  · rfl
  · exact Json.isObj_put document key value

/-- What is merged into an old document is about other sections. -/
theorem completeConfig_field {D : RuntimeDefaults} {config completed : Json}
    (h : completeConfig D config = .ok completed) :
    completed.isObj = config.isObj ∧
      ∀ key, "summary" ≠ key → "concurrency" ≠ key → "interaction" ≠ key →
        completed.field key = config.field key := by
  obtain ⟨connection, -, h⟩ := bind_eq_ok.mp h
  obtain ⟨interaction, -, h⟩ := bind_eq_ok.mp h
  obtain rfl := Except.ok.inj h
  refine ⟨?_, fun key hsummary hconcurrency hinteraction => ?_⟩
  · simp only [Json.isObj_put, isObj_setDefault]
  · rw [Json.field_put_ne hinteraction, Json.field_put_ne hconcurrency,
      field_setDefault_ne hsummary]

theorem validateLoadedMetadata_payload {H : Host} {D : RuntimeDefaults} {key : ConfigKey}
    {loaded : LoadedVoiceConfig} {payload : Json}
    (h : validateLoadedMetadata H D key loaded = .ok payload) : payload = loaded.payload := by
  unfold validateLoadedMetadata at h
  obtain ⟨_, -, h⟩ := bind_eq_ok.mp h
  obtain ⟨_, -, h⟩ := bind_eq_ok.mp h
  obtain ⟨_, -, h⟩ := bind_eq_ok.mp h
  obtain ⟨_, -, h⟩ := bind_eq_ok.mp h
  obtain ⟨_, -, h⟩ := bind_eq_ok.mp h
  obtain ⟨_, -, h⟩ := bind_eq_ok.mp h
  obtain ⟨_, -, h⟩ := bind_eq_ok.mp h
  obtain ⟨_, -, h⟩ := bind_eq_ok.mp h
  exact (Except.ok.inj h).symm

/-- The item of a capability beside the source that forced it. -/
def withForceSource (r : RuntimeCapability) : Json :=
  match r.forceSource with
  | some source => r.value.put "force_source" source
  | none => r.value

theorem withForceSource_field (r : RuntimeCapability) {key : String} (h : "force_source" ≠ key) :
    (withForceSource r).field key = r.value.field key := by
  unfold withForceSource
  split
  · exact Json.field_put_ne h _
  · rfl

namespace VoiceRuntimeSnapshot

/-- A capability as the call reads it. -/
def capability (s : VoiceRuntimeSnapshot) (k : VoiceCapability) : Json :=
  s.capabilitySnapshot.field k.key

/-- A capability in the frozen configuration. -/
def resolvedCapability (s : VoiceRuntimeSnapshot) (k : VoiceCapability) : Json :=
  (s.resolvedConfig.field "capabilities").field k.key

end VoiceRuntimeSnapshot

/-- Both parts of a snapshot hold what the loop made of each capability. -/
theorem buildSnapshot_capability {H : Host} {D : RuntimeDefaults} {b : VoiceRuntimeBundle}
    {current : Option Json} {now : PyDatetime} {userId : Option ℤ} {s : VoiceRuntimeSnapshot}
    (h : buildSnapshot H D b current now userId = .ok s) :
    WellFormed b.config.payload ∧ ∀ k : VoiceCapability, ∃ r,
      runtimeCapability H b current now (b.testUser userId) k (b.capability k) = .ok r ∧
      s.capability k = withForceSource r ∧ s.resolvedCapability k = r.value := by
  obtain ⟨config, hconfig, h⟩ := bind_eq_ok.mp h
  obtain ⟨script, -, h⟩ := bind_eq_ok.mp h
  obtain ⟨_, hissues, h⟩ := bind_eq_ok.mp h
  obtain ⟨completed, hcompleted, h⟩ := bind_eq_ok.mp h
  obtain ⟨_, -, h⟩ := bind_eq_ok.mp h
  obtain ⟨_, -, h⟩ := bind_eq_ok.mp h
  obtain ⟨_, -, h⟩ := bind_eq_ok.mp h
  obtain ⟨runtime, hruntime, h⟩ := bind_eq_ok.mp h
  obtain ⟨_, -, h⟩ := bind_eq_ok.mp h
  obtain rfl := Except.ok.inj h
  obtain rfl := validateLoadedMetadata_payload hconfig
  have hwell := trustedRuntimeIssues_accepts (require_eq_ok.mp hissues).1
  obtain ⟨hobj, hkept⟩ := completeConfig_field hcompleted
  refine ⟨hwell, fun k => ?_⟩
  rw [hkept "global" (by simp) (by simp) (by simp),
    hkept "capabilities" (by simp) (by simp) (by simp)] at hruntime
  obtain ⟨r, hr, hget⟩ := runtimeCapabilities_get hruntime k.mem_all
  refine ⟨r, hr, ?_, ?_⟩
  · have hitem := hget fun e => withForceSource e.2
    simp only [VoiceRuntimeSnapshot.capability, withForceSources, Json.field, Json.get]
    exact congrArg (Option.getD · Json.null) hitem
  · have hitem := hget fun e => e.2.value
    rw [VoiceRuntimeSnapshot.resolvedCapability, Json.field_put_self (hobj.trans hwell.isObj)]
    simp only [Json.field, Json.get]
    exact congrArg (Option.getD · Json.null) hitem

/-- Every capability of a snapshot is sound, wherever it is read. -/
def SnapshotSound (H : Host) (b : VoiceRuntimeBundle) (current : Option Json) (now : PyDatetime)
    (userId : Option ℤ) (s : VoiceRuntimeSnapshot) : Prop :=
  ∀ k : VoiceCapability, b.CapabilitySound H current now userId k (s.capability k) ∧
    b.CapabilitySound H current now userId k (s.resolvedCapability k)

theorem sound_withForceSource {H : Host} {b : VoiceRuntimeBundle} {current : Option Json}
    {now : PyDatetime} {userId : Option ℤ} {k : VoiceCapability} {r : RuntimeCapability}
    (h : b.CapabilitySound H current now userId k r.value) :
    b.CapabilitySound H current now userId k (withForceSource r) where
  enabled henabled := by
    rw [withForceSource_field r (by simp)] at henabled
    have hsound := h.enabled henabled
    unfold VoiceRuntimeBundle.ForcedForTest at hsound ⊢
    rwa [withForceSource_field r (by simp)]
  disabled hdisabled := by
    rw [withForceSource_field r (by simp)] at hdisabled
    simp only [withForceSource_field r (show "force_source" ≠ "enabled" by simp),
      withForceSource_field r (show "force_source" ≠ "forced_enabled" by simp),
      withForceSource_field r (show "force_source" ≠ "effective_scope" by simp)]
    exact h.disabled hdisabled

/-- Exactly when the flags of all accepted capabilities agree, a snapshot enables only what was
proven or forced. -/
theorem snapshot_sound_iff {H : Host} {D : RuntimeDefaults} {b : VoiceRuntimeBundle}
    {current : Option Json} {now : PyDatetime} {userId : Option ℤ} {s : VoiceRuntimeSnapshot}
    (hdiffer : ∀ k : VoiceCapability,
      DigestsDiffer H (b.capability k) ((current.getD .null).field k.key))
    (h : buildSnapshot H D b current now userId = .ok s) :
    SnapshotSound H b current now userId s ↔
      ∀ k : VoiceCapability, b.FlagsAgree H current now userId k := by
  obtain ⟨hwell, hitems⟩ := buildSnapshot_capability h
  refine forall_congr' fun k => ?_
  obtain ⟨r, hr, hitem, hresolved⟩ := hitems k
  rw [hitem, hresolved, ← capability_sound_iff (hwell.capability k) (hdiffer k) hr]
  exact ⟨fun hsound => hsound.2, fun hsound => ⟨sound_withForceSource hsound, hsound⟩⟩

/-! ### A verified capability without a scope -/

def document (entries : List (String × Json)) : Json :=
  .obj (entries.map fun e => (e.1.toList, e.2))

/-- The digest of six dimensions that are all `v1`. -/
def firstDigest : Text :=
  "7fa3e8c531431393dbf4f61e28ce65feb542c095c6bcd61ef0cc748bf3e02cb5".toList

/-- New Year of 2026 and a week later. -/
def firstInstant : PyDatetime := ⟨1767225600000000, some 0⟩

def lastInstant : PyDatetime := ⟨1767830400000000, some 0⟩

/-- A platform that has the digest and the two instants. -/
def snapshotHost : Host where
  sha256 t := if t = fingerprintText (fun _ => "v1".toList) then firstDigest else t
  casefold := id
  fromisoformat t :=
    if t = "2026-01-01T00:00:00+00:00".toList then some firstInstant
    else if t = "2026-01-08T00:00:00+00:00".toList then some lastInstant else none
  isoformat _ := []
  canonicalJson _ := []
  payloadAccepted _ := true
  unsafeValues _ := false
  getenv _ := true
  sectionIssues _ _ := []

def firstDimensions : Json := dimensionsValue fun _ => .str "v1".toList

/-- A capability that was proven for a week. -/
def weekCapability (enabled forced : Bool) (scope : String) : Json :=
  document ([("enabled", .bool enabled), ("forced_enabled", .bool forced),
    ("effective_scope", .str scope.toList), ("verification_status", .str "verified".toList),
    ("evidence_fingerprint", .str firstDigest), ("evidence_report_id", .str "r".toList),
    ("evidence_ttl_days", .int 7), ("expires_at", .str "2026-01-08T00:00:00Z".toList),
    ("verified_at", .str "2026-01-01T00:00:00Z".toList),
    ("last_test_result", .str "passed".toList), ("fallback_mode", .str "m".toList)] ++
    EvidenceDimension.all.map fun d => (d.field, Json.str "v1".toList))

/-- A capability without a test. -/
def untestedCapability : Json :=
  document ([("enabled", .bool false), ("forced_enabled", .bool false),
    ("effective_scope", .str "off".toList), ("verification_status", .str "unverified".toList),
    ("evidence_ttl_days", .int 7), ("last_test_result", .str "not_run".toList),
    ("fallback_mode", .str "m".toList)] ++ projectionFields.map fun f => (f, Json.null))

def samplePersona : Json :=
  document [("config_key", .str "persona".toList), ("version", .int 1),
    ("content_sha256", .str firstDigest)]

/-- A call configuration with one capability that was proven. -/
def weekConfig (proven : Json) : Json :=
  (document (configSections.map fun f => (f, .obj []))).update
    [("schema_version", .int 1), ("persona_ref", samplePersona),
      ("global", document [("enabled", .bool true), ("maintenance_message", .str "m".toList),
        ("maintenance_mode", .bool false), ("soft_stop", .bool false), ("test_user_ids", .arr []),
        ("rollout", document [("mode", .str "all".toList), ("user_ids", .arr [])])]),
      ("capabilities", document ((VoiceCapability.replyCancel.key, proven) ::
        (VoiceCapability.all.erase .replyCancel).map fun k => (k.key, untestedCapability)))]

def weekScript : Json :=
  (document (scriptSections.map fun f => (f, .obj []))).put "schema_version" (.int 1)

def published (key : ConfigKey) (payload : Json) : LoadedVoiceConfig where
  configKey := key
  version := 1
  schemaVersion := .int 1
  contentSha256 := contentSha256 snapshotHost payload
  publishedAt := some firstInstant
  payload := payload
  source := .mysql
  technicalFallback := false

/-- The row that the capability refers to. -/
def weekAnchor : EvidenceAnchor where
  evidenceReportId := "r".toList
  capabilityKey := VoiceCapability.replyCancel.key.toList
  verificationResult := "passed".toList
  dimensions := firstDimensions
  evidenceFingerprint := firstDigest
  testedAt := ⟨firstInstant.utc, none⟩
  verifiedAt := some ⟨firstInstant.utc, none⟩
  evidenceTtlDaysSnapshot := 7
  expiresAt := some ⟨lastInstant.utc, none⟩

def weekBundle (proven : Json) : VoiceRuntimeBundle where
  config := published .voiceCallConfig (weekConfig proven)
  script := published .voiceCallScript weekScript
  personaAnchors := [samplePersona]
  voicePersonaAnchors := []
  mysqlAnchorsAvailable := true
  evidenceAnchors := [("r".toList, weekAnchor)]
  evidenceAnchorsAvailable := true
  forceSources := []
  forceSourcesAvailable := true
  fallbackPersonaAnchor := .null
  fallbackGateGlobal := none
  fallbackGateUserId := none
  fallbackGateBlocked := false
  masterSwitchEnabled := some true
  masterSwitchVersion := some 1

def sampleDefaults : RuntimeDefaults where
  canonicalConfig _ := .null
  canonicalScript := .null
  connection := []
  interaction := []
  summaryModel := .null
  summaryPrompt := .null
  memory := []

def weekDimensions : Option Json := some (document [(VoiceCapability.replyCancel.key, firstDimensions)])

/-- The snapshot for a caller who is no test user. -/
def weekSnapshot (proven : Json) : Except SnapshotError VoiceRuntimeSnapshot :=
  buildSnapshot snapshotHost sampleDefaults (weekBundle proven) weekDimensions firstInstant none

theorem snapshotHost_differ (capability dimensions : Json) :
    DigestsDiffer snapshotHost capability dimensions := by
  intro dims dims' _ _ heq
  have hdigest : ∀ dims, fingerprintText dims ≠ firstDigest := by
    intro dims heq
    exact absurd (List.cons.inj heq).1 (by decide)
  simp only [snapshotHost] at heq
  split_ifs at heq with hfirst hsecond hsecond
  · rw [hfirst, hsecond]
  · exact absurd heq.symm (hdigest dims')
  · exact absurd heq (hdigest dims)
  · exact heq

theorem exists_ok_of_any {α ε : Type} {x : Except ε α} {p : α → Bool}
    (h : x.toOption.any p = true) : ∃ a, x = .ok a ∧ p a = true := by
  cases x with
  | error e => simp [Except.toOption] at h
  | ok a => exact ⟨a, rfl, h⟩

/-- Proven and enabled, the capability is frozen as it is configured. -/
theorem weekSnapshots_return : ∀ scope ∈ ["off", "all"],
    ∃ s, weekSnapshot (weekCapability true false scope) = .ok s ∧
      (CapabilityRules.isTrue ((s.capability .replyCancel).field "enabled") &&
        ((s.capability .replyCancel).field "verification_status").isStr "verified") = true := by
  have hrun : (["off", "all"].all fun scope =>
      (weekSnapshot (weekCapability true false scope)).toOption.any fun s =>
        CapabilityRules.isTrue ((s.capability .replyCancel).field "enabled") &&
          ((s.capability .replyCancel).field "verification_status").isStr "verified") = true := by
    decide +kernel
  exact fun scope hscope => exists_ok_of_any (List.all_eq_true.mp hrun scope hscope)

theorem weekBundle_capability (proven : Json) :
    (weekBundle proven).capability .replyCancel = proven := by
  have hcapabilities : (weekConfig proven).field "capabilities" =
      document ((VoiceCapability.replyCancel.key, proven) ::
        (VoiceCapability.all.erase .replyCancel).map fun k => (k.key, untestedCapability)) :=
    Json.field_update_of_mem rfl (by simp) (by simp)
  rw [VoiceRuntimeBundle.capability, weekBundle, published, hcapabilities]
  simp [document, Json.field, Json.get, Dict.get]

theorem weekCapability_scope (enabled forced : Bool) (scope : String) :
    (weekCapability enabled forced scope).field "effective_scope" = .str scope.toList := by
  simp [weekCapability, document, Json.field, Json.get, Dict.get]

theorem weekBundle_testUser (proven : Json) : (weekBundle proven).testUser none = false := by
  simp only [VoiceRuntimeBundle.testUser, isTestUser, listed]
  split <;> simp_all

/-- Enabled for nobody in its configuration, the capability is enabled for everyone. -/
theorem snapshot_unsound :
    ¬∀ (H : Host) (D : RuntimeDefaults) (b : VoiceRuntimeBundle) (current : Option Json)
      (now : PyDatetime) (userId : Option ℤ) (s : VoiceRuntimeSnapshot),
      (∀ k : VoiceCapability, DigestsDiffer H (b.capability k) ((current.getD .null).field k.key)) →
      buildSnapshot H D b current now userId = .ok s → SnapshotSound H b current now userId s := by
  intro hclaim
  obtain ⟨s, hbuild, hitem⟩ := weekSnapshots_return "off" (by simp)
  simp only [Bool.and_eq_true, isTrue_iff, Json.isStr_iff] at hitem
  obtain ⟨henabled, hstatus⟩ := hitem
  have hsound := (hclaim _ _ _ _ _ _ s (fun k => snapshotHost_differ _ _) hbuild .replyCancel).1
  rcases hsound.enabled henabled with ⟨-, hall | htester⟩ | hforced
  · rw [weekBundle_capability, weekCapability_scope] at hall
    simp at hall
  · rw [weekBundle_testUser] at htester
    exact absurd htester (by simp)
  · have hunproven := hforced.1
    rw [hstatus] at hunproven
    revert hunproven
    decide

theorem snapshot_sound_iff_week : ∃ s, weekSnapshot (weekCapability true false "off") = .ok s ∧
    (SnapshotSound snapshotHost (weekBundle (weekCapability true false "off")) weekDimensions
        firstInstant none s ↔
      ∀ k : VoiceCapability, (weekBundle (weekCapability true false "off")).FlagsAgree snapshotHost
        weekDimensions firstInstant none k) := by
  obtain ⟨s, hbuild, -⟩ := weekSnapshots_return "off" (by simp)
  exact ⟨s, hbuild, snapshot_sound_iff (fun k => snapshotHost_differ _ _) hbuild⟩

end CompanionBackend.RuntimeSnapshots
