import CompanionBackend.DraftLocking

/-!
# Verified projections come from evidence

Whatever administrators save, discard, import, publish or roll back, a verified capability
shows the row of evidence it was projected from, and a forced one the audited test that forced
it. An editor cannot change either, because a saved section is compared with its base in
every field of the server.
-/
namespace CompanionBackend.ConfigDrafts

open Runs ProviderEvents Dictionaries CapabilityRules CapabilityEvidence PublishGate

variable {H : Host} {template : ConfigKey → Json}

/-- The value is the canonical writing of this instant. -/
def ReadsAs (H : Host) (value : Json) (t : Option Instant) : Prop :=
  ∃ instant, t = some instant ∧ ∀ path, parseEvidenceDatetime H value path = .ok instant

/-- The capability shows this row, a passed one of its own. -/
structure ProvenBy (H : Host) (k : VoiceCapability) (item : Json)
    (row : VoiceCapabilityEvidence) : Prop where
  capability : row.capabilityKey = k.key.toList
  passed : row.verificationResult = EvidenceResult.passed.name.toList
  lastTest : item.field "last_test_result" = .str "passed".toList
  report : item.field "evidence_report_id" = .str row.evidenceReportId
  dimension : ∀ d : EvidenceDimension, item.field d.field = .str (row.dimension d)
  fingerprint : item.field "evidence_fingerprint" = .str row.evidenceFingerprint
  verifiedAt : ReadsAs H (item.field "verified_at") row.verifiedAt
  expiresAt : ReadsAs H (item.field "expires_at") row.expiresAt

/-- Two states of a capability agree in every field of the server. -/
def SameOwned (item item' : Json) : Prop :=
  ∀ f ∈ serverOwnedFields, item'.field f = item.field f

/-- A super administrator forced the capability, into the state it still shows. -/
structure ForcedBy (k : VoiceCapability) (item : Json) (log : ForceAudit) : Prop where
  capability : log.capability = k
  permission : log.permission = .superAdmin
  shown : SameOwned ((log.config.field "capabilities").field k.key) item

def isVerified (item : Json) : Prop :=
  item.field "verification_status" = .str "verified".toList

def isForced (item : Json) : Prop := isTrue (item.field "forced_enabled") = true

/-- Where the state of one capability comes from. -/
structure CapabilityOrigin (H : Host) (evidence : List VoiceCapabilityEvidence)
    (forceLog : List ForceAudit) (k : VoiceCapability) (item : Json) : Prop where
  verified : isVerified item → ∃ row ∈ evidence, ProvenBy H k item row
  forced : isForced item → ∃ log ∈ forceLog, ForcedBy k item log

/-- Every capability of the draft and of every published version has an origin. -/
structure Evidenced (H : Host) (s : ConfigStore) : Prop where
  origin : ∀ row, row ∈ s.published ∨ s.draft = some row → ∀ k : VoiceCapability,
    CapabilityOrigin H s.evidence s.forceLog k
      ((row.configValue.field "capabilities").field k.key)

/-! ### Documents -/

/-- What the writers of a document rely on in its capabilities. -/
structure SoundDocument (H : Host) (evidence : List VoiceCapabilityEvidence)
    (forceLog : List ForceAudit) (config : Json) : Prop where
  isObj : config.isObj = true
  capabilities : (config.field "capabilities").isObj = true
  item : ∀ k : VoiceCapability, ((config.field "capabilities").field k.key).isObj = true
  forced : ∀ k : VoiceCapability,
    (((config.field "capabilities").field k.key).field "forced_enabled").isBool = true
  origin : ∀ k : VoiceCapability,
    CapabilityOrigin H evidence forceLog k ((config.field "capabilities").field k.key)

variable {evidence evidence' : List VoiceCapabilityEvidence} {forceLog forceLog' : List ForceAudit}

theorem CapabilityOrigin.mono {k : VoiceCapability} {item : Json}
    (h : CapabilityOrigin H evidence forceLog k item) (hrows : ∀ e ∈ evidence, e ∈ evidence')
    (hlogs : ∀ l ∈ forceLog, l ∈ forceLog') : CapabilityOrigin H evidence' forceLog' k item := by
  refine ⟨fun hv => ?_, fun hf => ?_⟩
  · obtain ⟨row, hrow, hproven⟩ := h.verified hv
    exact ⟨row, hrows row hrow, hproven⟩
  · obtain ⟨log, hlog, hforced⟩ := h.forced hf
    exact ⟨log, hlogs log hlog, hforced⟩

/-- An origin is a matter of the fields of the server. -/
theorem CapabilityOrigin.of_sameOwned {k : VoiceCapability} {item item' : Json}
    (h : CapabilityOrigin H evidence forceLog k item) (hsame : SameOwned item item') :
    CapabilityOrigin H evidence forceLog k item' := by
  have hstatus := hsame "verification_status" (by simp [serverOwnedFields])
  have hflag := hsame "forced_enabled" (by simp [serverOwnedFields])
  refine ⟨fun hv => ?_, fun hf => ?_⟩
  · obtain ⟨row, hrow, hproven⟩ := h.verified (hstatus.symm.trans hv)
    refine ⟨row, hrow, ?_⟩
    exact
      { hproven with
        lastTest := (hsame _ (by simp [serverOwnedFields])).trans hproven.lastTest
        report := (hsame _ (by simp [serverOwnedFields])).trans hproven.report
        dimension := fun d =>
          (hsame _ (by cases d <;> simp [serverOwnedFields, EvidenceDimension.field])).trans
            (hproven.dimension d)
        fingerprint := (hsame _ (by simp [serverOwnedFields])).trans hproven.fingerprint
        verifiedAt := by
          rw [hsame _ (by simp [serverOwnedFields])]
          exact hproven.verifiedAt
        expiresAt := by
          rw [hsame _ (by simp [serverOwnedFields])]
          exact hproven.expiresAt }
  · obtain ⟨log, hlog, hforced⟩ := h.forced (by rwa [isForced, ← hflag])
    exact ⟨log, hlog, hforced.capability, hforced.permission,
      fun f hf => (hsame f hf).trans (hforced.shown f hf)⟩

theorem SoundDocument.mono {config : Json} (h : SoundDocument H evidence forceLog config)
    (hrows : ∀ e ∈ evidence, e ∈ evidence') (hlogs : ∀ l ∈ forceLog, l ∈ forceLog') :
    SoundDocument H evidence' forceLog' config :=
  { h with origin := fun k => (h.origin k).mono hrows hlogs }

/-- Soundness is a matter of the capabilities. -/
theorem SoundDocument.of_capabilities {config config' : Json}
    (h : SoundDocument H evidence forceLog config) (hobj : config'.isObj = true)
    (hcaps : config'.field "capabilities" = config.field "capabilities") :
    SoundDocument H evidence forceLog config' :=
  ⟨hobj, hcaps ▸ h.capabilities, hcaps ▸ h.item, hcaps ▸ h.forced, hcaps ▸ h.origin⟩

theorem wellFormed_of_issues {config : Json}
    (h : storedIssues (validateVoiceBundle H.sectionIssues .voiceCallConfig config) = []) :
    WellFormed config := trustedRuntimeIssues_accepts h

/-- A document that passed the schema is sound once its capabilities have origins. -/
theorem SoundDocument.of_wellFormed {config : Json} (h : WellFormed config)
    (horigin : ∀ k : VoiceCapability,
      CapabilityOrigin H evidence forceLog k ((config.field "capabilities").field k.key)) :
    SoundDocument H evidence forceLog config :=
  ⟨h.isObj, h.capabilities, fun k => (h.capability k).isObj, fun k => (h.capability k).forced,
    horigin⟩

/-! ### Other values of one capability -/

theorem field_withCapability {config : Json} (hobj : config.isObj = true)
    (hcaps : (config.field "capabilities").isObj = true) (k k' : VoiceCapability) (item : Json) :
    ((withCapability config k item).field "capabilities").field k'.key =
      if k = k' then item else (config.field "capabilities").field k'.key := by
  rw [withCapability, Json.field_put_self hobj, Json.field_put hcaps]
  by_cases h : k = k'
  · simp [h]
  · simp [h, mt VoiceCapability.key_injective h]

theorem isObj_withCapability (config : Json) (k : VoiceCapability) (item : Json) :
    (withCapability config k item).isObj = config.isObj := Json.isObj_put ..

/-- A sound document stays sound with one capability in another sound state. -/
theorem SoundDocument.withCapability {config : Json} (h : SoundDocument H evidence forceLog config)
    {k : VoiceCapability} {item : Json} (hobj : item.isObj = true)
    (hforced : (item.field "forced_enabled").isBool = true)
    (horigin : CapabilityOrigin H evidence forceLog k item) :
    SoundDocument H evidence forceLog (withCapability config k item) := by
  have hfield := fun k' => field_withCapability h.isObj h.capabilities k k' item
  refine ⟨(isObj_withCapability ..).trans h.isObj, ?_, fun k' => ?_, fun k' => ?_, fun k' => ?_⟩
  · rw [ConfigDrafts.withCapability, Json.field_put_self h.isObj, Json.isObj_put]
    exact h.capabilities
  · rw [hfield]
    split_ifs with heq
    · exact hobj
    · exact h.item k'
  · rw [hfield]
    split_ifs with heq
    · exact hforced
    · exact h.forced k'
  · rw [hfield]
    split_ifs with heq
    · exact heq ▸ horigin
    · exact h.origin k'

/-! ### Projections -/

theorem projectedEntries_nodup (record : EvidenceRecord) :
    ((projectedEntries record).map Prod.fst).Nodup := by
  change ["verification_status", "enabled", "forced_enabled", "effective_scope",
    "provider_profile", "model_version", "protocol_profile", "adapter_version", "sdk_version",
    "evidence_suite_version", "evidence_fingerprint", "evidence_ttl_days", "verified_at",
    "expires_at", "evidence_report_id", "last_test_result"].Nodup
  simp

/-- What a record writes is found afterwards. -/
theorem field_projected {capability v : Json} {record : EvidenceRecord} {f : String}
    (hobj : capability.isObj = true) (h : (f, v) ∈ projectedEntries record) :
    (projectRecordToCapability capability record).field f = v :=
  Json.field_update_of_mem hobj (projectedEntries_nodup record) h

theorem isObj_projected (capability : Json) (record : EvidenceRecord) :
    (projectRecordToCapability capability record).isObj = capability.isObj :=
  Json.isObj_update ..

theorem result_of_verified {r : EvidenceResult} (h : r.status.toList = "verified".toList) :
    r = .passed := by
  cases r <;> first | rfl | simp [EvidenceResult.status] at h

theorem rowInstant_readsAs {text : Option Text} {path : String} {t : Option Instant}
    (h : rowInstant H text path = .ok t) (hsome : text.isSome = true) :
    ReadsAs H (ofOptional text) t := by
  obtain ⟨value, rfl⟩ := Option.isSome_iff_exists.mp hsome
  obtain ⟨instant, hparse, h⟩ := bind_eq_ok.mp h
  obtain rfl := Except.ok.inj h
  refine ⟨instant, rfl, fun path' => ?_⟩
  -- the path is only named in errors
  change parseEvidenceDatetime H (.str value) path' = _
  unfold parseEvidenceDatetime at hparse ⊢
  dsimp only at hparse ⊢
  obtain ⟨_, hz, hparse⟩ := bind_eq_ok.mp hparse
  obtain ⟨parsed, hread, hparse⟩ := bind_eq_ok.mp hparse
  obtain ⟨_, hutc, hparse⟩ := bind_eq_ok.mp hparse
  obtain ⟨_, hcanonical, hparse⟩ := bind_eq_ok.mp hparse
  rw [require_eq_ok] at hz hutc hcanonical
  rw [orRaise_eq_ok] at hread
  rw [require_of_pos hz, ok_bind, hread, orRaise_some, ok_bind, require_of_pos hutc, ok_bind,
    require_of_pos hcanonical, ok_bind]
  exact hparse

/-- A projection has the row of its record as origin. -/
theorem origin_projected {capability : Json} {record : EvidenceRecord} {operatorId : ℕ}
    {row : VoiceCapabilityEvidence} (hobj : capability.isObj = true) (htimed : RecordTimed record)
    (hrow : newEvidenceRow H record operatorId = .ok row) (hmem : row ∈ evidence) :
    CapabilityOrigin H evidence forceLog record.capability
      (projectRecordToCapability capability record) := by
  have hfield : ∀ {f : String} {v : Json}, (f, v) ∈ projectedEntries record →
      (projectRecordToCapability capability record).field f = v := field_projected hobj
  refine ⟨fun hv => ⟨row, hmem, ?_⟩, fun hf => ?_⟩
  · have hstatus : record.result.status.toList = "verified".toList := by
      have hwritten := hfield (f := "verification_status")
        (v := .str record.result.status.toList) (by simp [projectedEntries])
      exact Json.str.inj (hwritten.symm.trans hv)
    have hpassed := result_of_verified hstatus
    obtain ⟨hverified, hexpires⟩ := htimed hpassed
    unfold newEvidenceRow at hrow
    obtain ⟨tested, -, hrow⟩ := bind_eq_ok.mp hrow
    obtain ⟨verified, hv, hrow⟩ := bind_eq_ok.mp hrow
    obtain ⟨expires, he, hrow⟩ := bind_eq_ok.mp hrow
    obtain rfl := Except.ok.inj hrow
    exact
      { capability := rfl
        passed := by rw [hpassed]
        lastTest := by
          rw [hfield (v := .str record.result.name.toList) (by simp [projectedEntries]), hpassed]
          rfl
        report := hfield (by simp [projectedEntries])
        dimension := fun d => hfield (by
          cases d <;> simp [projectedEntries, EvidenceDimension.all, EvidenceDimension.field])
        fingerprint := hfield (by simp [projectedEntries])
        verifiedAt := by
          rw [hfield (v := ofOptional record.verifiedAt) (by simp [projectedEntries])]
          exact rowInstant_readsAs hv hverified
        expiresAt := by
          rw [hfield (v := ofOptional record.expiresAt) (by simp [projectedEntries])]
          exact rowInstant_readsAs he hexpires }
  · have hfalse := hfield (f := "forced_enabled") (v := .bool false) (by simp [projectedEntries])
    simp [isForced, hfalse, CapabilityRules.isTrue] at hf

theorem SoundDocument.projectRecord {config : Json} {record : EvidenceRecord} {operatorId : ℕ}
    {row : VoiceCapabilityEvidence} (h : SoundDocument H evidence forceLog config)
    (htimed : RecordTimed record) (hrow : newEvidenceRow H record operatorId = .ok row)
    (hmem : row ∈ evidence) : SoundDocument H evidence forceLog (projectRecord config record) := by
  have hobj := h.item record.capability
  refine h.withCapability ((isObj_projected ..).trans hobj) ?_
    (origin_projected hobj htimed hrow hmem)
  rw [field_projected hobj (v := .bool false) (by simp [projectedEntries])]
  rfl

/-- The records of an import are projected one after the other. -/
theorem SoundDocument.projectRecords {config : Json} {records : List EvidenceRecord}
    {operatorId : ℕ} {rows : List VoiceCapabilityEvidence}
    (h : SoundDocument H evidence forceLog config)
    (htimed : ∀ record ∈ records, RecordTimed record) (hrows : newRows H operatorId records = .ok rows)
    (hmem : ∀ row ∈ rows, row ∈ evidence) :
    SoundDocument H evidence forceLog (records.foldl ConfigDrafts.projectRecord config) := by
  induction records generalizing config rows with
  | nil => exact h
  | cons record records ih =>
    obtain ⟨row, hrow, hrows⟩ := bind_eq_ok.mp hrows
    obtain ⟨more, hmore, hrows⟩ := bind_eq_ok.mp hrows
    obtain rfl := Except.ok.inj hrows
    rw [List.forall_mem_cons] at htimed hmem
    exact ih (h.projectRecord htimed.1 hrow hmem.1) htimed.2 hmore hmem.2

/-! ### Edits -/

theorem eq_of_pyEq_plain {new old : Json} (hnew : plain new = true)
    (h : Json.pyEq new old = true) : new = old := by
  cases new with
  | null => cases old <;> simp_all [Json.pyEq]
  | str t => exact (Json.pyEq_str_left.mp h).symm
  | _ => simp [plain] at hnew

theorem eq_of_pyEq_bool {new old : Json} (hnew : new.isBool = true) (hold : old.isBool = true)
    (h : Json.pyEq new old = true) : new = old := by
  obtain ⟨a, rfl⟩ := Json.isBool_iff.mp hnew
  obtain ⟨b, rfl⟩ := Json.isBool_iff.mp hold
  rw [Json.pyEq_bool, decide_eq_true_eq] at h
  rw [h]

theorem serverOwned_cases {f : String} (h : f ∈ serverOwnedFields) :
    f ∈ projectionFields ∨ f = "last_test_result" ∨ f = "verification_status" ∨
      f = "forced_enabled" := by
  simp only [serverOwnedFields, List.mem_cons, List.not_mem_nil, or_false] at h
  simp only [projectionFields, EvidenceDimension.all, EvidenceDimension.field, List.map_cons,
    List.map_nil, List.cons_append, List.nil_append, List.mem_cons, List.not_mem_nil, or_false]
  tauto

/-- A section without forgeries leaves the fields of the server as they were. -/
theorem sameOwned_of_forgery {previous submitted : Json} {k : VoiceCapability}
    (hforged : capabilityProjectionForgeryIssues previous submitted = [])
    (hprevious : previous.isObj = true) (hsubmitted : submitted.isObj = true)
    (hold : (previous.field k.key).isObj = true)
    (hforced : ((previous.field k.key).field "forced_enabled").isBool = true)
    (hnew : WellTyped (submitted.field k.key)) :
    SameOwned (previous.field k.key) (submitted.field k.key) := by
  intro f hf
  have heq : Json.pyEq ((submitted.field k.key).field f) ((previous.field k.key).field f) = true := by
    unfold capabilityProjectionForgeryIssues at hforged
    simp only [hprevious, hsubmitted, Bool.not_true, Bool.or_self, Bool.false_eq_true, if_false,
      List.flatMap_eq_nil_iff] at hforged
    have hk := hforged k k.mem_all
    simp only [hold, hnew.isObj, Bool.not_true, Bool.or_self, Bool.false_eq_true, if_false,
      List.map_eq_nil_iff, List.filter_eq_nil_iff] at hk
    simpa using hk f hf
  rcases serverOwned_cases hf with hproj | rfl | rfl | rfl
  · exact eq_of_pyEq_plain (hnew.projected f hproj) heq
  · exact eq_of_pyEq_plain hnew.lastTest heq
  · obtain ⟨status, -, hstatus⟩ := Json.strIn_iff.mp hnew.status
    exact eq_of_pyEq_plain (by simp [hstatus, plain]) heq
  · exact eq_of_pyEq_bool hnew.forced hforced heq

/-! ### Transactions -/

/-- Every document under the key is sound, and a draft has an active version beside it. -/
structure SoundStore (H : Host) (s : ConfigStore) : Prop where
  document : ∀ row, row ∈ s.published ∨ s.draft = some row →
    SoundDocument H s.evidence s.forceLog row.configValue
  draftActive : s.draft.isSome = true → s.active.isSome = true

namespace SoundStore

theorem parse_draft {s : ConfigStore} (h : SoundStore H s) {d : AdminConfig}
    (hd : s.draft = some d) : parseConfigValue s.draft = some d.configValue :=
  parseConfigValue_eq_some.mpr ⟨d, hd, rfl, (h.document d (.inr hd)).isObj⟩

theorem parse_active {s : ConfigStore} (h : SoundStore H s) {a : AdminConfig}
    (ha : s.active = some a) : parseConfigValue s.active = some a.configValue :=
  parseConfigValue_eq_some.mpr
    ⟨a, ha, rfl, (h.document a (.inl (by simp [ConfigStore.published, ha]))).isObj⟩

/-- What is read from the draft or the active version is sound. -/
theorem of_parse {s : ConfigStore} (h : SoundStore H s) {config : Json}
    (hconfig : parseConfigValue s.draft = some config ∨ parseConfigValue s.active = some config) :
    SoundDocument H s.evidence s.forceLog config ∧ s.active.isSome = true := by
  rcases hconfig with hconfig | hconfig
  · obtain ⟨row, hrow, rfl, -⟩ := parseConfigValue_eq_some.mp hconfig
    exact ⟨h.document row (.inr hrow), h.draftActive (by simp [hrow])⟩
  · obtain ⟨row, hrow, rfl, -⟩ := parseConfigValue_eq_some.mp hconfig
    exact ⟨h.document row (.inl (by simp [ConfigStore.published, hrow])), by simp [hrow]⟩

theorem baseConfig_sound {s : ConfigStore} (h : SoundStore H s) {config : Json}
    (hbase : s.baseConfig = some config) :
    SoundDocument H s.evidence s.forceLog config ∧ s.active.isSome = true := by
  unfold ConfigStore.baseConfig at hbase
  split_ifs at hbase
  · exact h.of_parse (.inl hbase)
  · exact h.of_parse (.inr hbase)

theorem selectedConfig_sound {s : ConfigStore} (h : SoundStore H s) {config : Json}
    (hselected : s.selectedConfig = some config) :
    SoundDocument H s.evidence s.forceLog config ∧ s.active.isSome = true := by
  unfold ConfigStore.selectedConfig at hselected
  split at hselected
  · rename_i found hfound
    split_ifs at hselected
    · exact h.of_parse (.inl (hfound.trans hselected))
    · exact h.of_parse (.inr hselected)
  · exact h.of_parse (.inr hselected)

theorem importBase_sound {s : ConfigStore} (h : SoundStore H s) {base : AdminConfig}
    (hbase : s.importBase = some base) :
    SoundDocument H s.evidence s.forceLog base.configValue ∧ s.active.isSome = true := by
  unfold ConfigStore.importBase at hbase
  split_ifs at hbase with hdraft
  · exact ⟨h.document base (.inr hbase), h.draftActive hdraft⟩
  · exact ⟨h.document base (.inl (by simp [ConfigStore.published, hbase])), by simp [hbase]⟩

/-- A sound draft is written, while evidence and logs only grow. -/
theorem write {s s' : ConfigStore} (h : SoundStore H s) (hactive : s'.active = s.active)
    (hhistory : s'.history = s.history) (hrows : ∀ e ∈ s.evidence, e ∈ s'.evidence)
    (hlogs : ∀ l ∈ s.forceLog, l ∈ s'.forceLog) (hsome : s.active.isSome = true)
    (hdraft : ∀ d, s'.draft = some d →
      SoundDocument H s'.evidence s'.forceLog d.configValue) : SoundStore H s' := by
  refine ⟨fun row hrow => ?_, fun _ => by rwa [hactive]⟩
  rcases hrow with hrow | hrow
  · rw [ConfigStore.published, hactive, hhistory] at hrow
    exact (h.document row (.inl hrow)).mono hrows hlogs
  · exact hdraft row hrow

/-- A sound document becomes active. -/
theorem publish {s : ConfigStore} (h : SoundStore H s) {config : Json}
    (hconfig : SoundDocument H s.evidence s.forceLog config) :
    SoundStore H (publishConfig config s) := by
  refine ⟨fun row hrow => ?_, by simp [publishConfig]⟩
  rcases hrow with hrow | hrow
  · rcases List.mem_append.mp hrow with hnew | hold
    · obtain rfl := Option.some.inj (Option.mem_toList.mp hnew)
      exact hconfig
    · exact h.document row (.inl (published_history row hold))
  · simp [publishConfig] at hrow

end SoundStore

/-- A saved section keeps every origin: other sections hold none, and in this one the
fields of the server are those of the base. -/
theorem saved_sound {s : ConfigStore} {sec : String} {content : Dict Text Json} {base : Json}
    (h : SoundDocument H s.evidence s.forceLog base)
    (hforged : sec = "capabilities" →
      capabilityProjectionForgeryIssues (base.field "capabilities") (.obj content) = [])
    (hwell : WellFormed (base.put sec (.obj content))) :
    SoundDocument H s.evidence s.forceLog (base.put sec (.obj content)) := by
  by_cases hsec : sec = "capabilities"
  · subst hsec
    have hcaps : (base.put "capabilities" (.obj content)).field "capabilities" = .obj content :=
      Json.field_put_self h.isObj ..
    refine .of_wellFormed hwell fun k => (h.origin k).of_sameOwned ?_
    rw [hcaps]
    have htyped := hwell.capability k
    rw [hcaps] at htyped
    exact sameOwned_of_forgery (hforged rfl) h.capabilities rfl (h.item k) (h.forced k) htyped
  · exact h.of_capabilities (by simpa using h.isObj) (Json.field_put_ne hsec _)

/-- Discarding a section takes the capabilities of one of two sound documents. -/
theorem restored_sound {s : ConfigStore} (h : SoundStore H s) {sec : String} {d : AdminConfig}
    (hd : s.draft = some d) :
    SoundDocument H s.evidence s.forceLog (s.restoredSection sec) := by
  have hdoc := h.document d (.inr hd)
  obtain ⟨a, ha⟩ := Option.isSome_iff_exists.mp (h.draftActive (by simp [hd]))
  have hadoc := h.document a (.inl (by simp [ConfigStore.published, ha]))
  unfold ConfigStore.restoredSection
  rw [h.parse_draft hd, h.parse_active ha, Option.getD_some, Option.getD_some]
  dsimp only
  by_cases hsec : sec = "capabilities"
  · subst hsec
    cases hget : a.configValue.get "capabilities" with
    | none =>
      have hcaps := hadoc.capabilities
      simp [Json.field, hget, Json.isObj] at hcaps
    | some value =>
      have hvalue : a.configValue.field "capabilities" = value := by simp [Json.field, hget]
      refine hadoc.of_capabilities (by simpa using hdoc.isObj) ?_
      rw [Json.field_put_self hdoc.isObj, hvalue]
  · split
    · exact hdoc.of_capabilities (by simpa using hdoc.isObj) (Json.field_put_ne hsec _)
    · exact hdoc.of_capabilities (by simpa using hdoc.isObj) (Json.field_remove_ne hsec)

theorem forcedEntries_nodup : (forcedEntries.map Prod.fst).Nodup := by
  simp [forcedEntries]

/-- The forced capability points at the new log, the others stay as they were. -/
theorem forced_sound {s : ConfigStore} {k : VoiceCapability} {selected : Json}
    (h : SoundDocument H s.evidence s.forceLog selected)
    (hstatus : (((selected.field "capabilities").field k.key).field "verification_status").strIn
      ["unverified", "stale"] = true) {config : Json}
    (hconfig : config = withCapability selected k
      (((selected.field "capabilities").field k.key).update forcedEntries)) :
    SoundDocument H s.evidence (s.forceLog ++ [⟨k, .superAdmin, s.nextRevision, config⟩])
      config := by
  subst hconfig
  have hobj := h.item k
  have hlarger := h.mono (fun _ he => he)
    fun l (hl : l ∈ s.forceLog) => List.mem_append_left [⟨k, .superAdmin, s.nextRevision,
      withCapability selected k
        (((selected.field "capabilities").field k.key).update forcedEntries)⟩] hl
  refine hlarger.withCapability ((Json.isObj_update ..).trans hobj) ?_ ⟨fun hv => ?_, fun _ => ?_⟩
  · rw [Json.field_update_of_mem hobj forcedEntries_nodup (v := .bool true)
      (by simp [forcedEntries])]
    rfl
  · unfold isVerified at hv
    rw [Json.field_update_ne (by simp [forcedEntries])] at hv
    rw [hv] at hstatus
    simp [Json.strIn, Json.isStr] at hstatus
  · refine ⟨_, List.mem_append_right _ List.mem_cons_self, rfl, rfl, fun f _ => ?_⟩
    rw [field_withCapability h.isObj h.capabilities, if_pos rfl]

/-- The seed has nothing verified and nothing forced. -/
theorem seeded_sound {ref : Json}
    (h : validateVoiceBundle H.sectionIssues .voiceCallConfig
      (seedConfig template .voiceCallConfig ref) = []) :
    SoundDocument H evidence forceLog (seedConfig template .voiceCallConfig ref) := by
  have hwell := wellFormed_of_issues (H := H) (by rw [h]; rfl)
  have hobj : (template .voiceCallConfig).isObj = true := by
    simpa [seedConfig] using hwell.isObj
  have hitem : ∀ k : VoiceCapability,
      ((seedConfig template .voiceCallConfig ref).field "capabilities").field k.key
        = defaultCapability := by
    intro k
    have hcaps : (seedConfig template .voiceCallConfig ref).field "capabilities"
        = defaultCapabilities := by
      unfold seedConfig
      rw [Json.field_put_ne (by simp), Json.field_put_self hobj]
    rw [hcaps]
    cases k <;> rfl
  refine .of_wellFormed hwell fun k => ?_
  rw [hitem]
  refine ⟨fun hv => ?_, fun hf => ?_⟩
  · have hunverified : defaultCapability.field "verification_status" = .str "unverified".toList :=
      rfl
    simp [isVerified, hunverified] at hv
  · have hfalse : defaultCapability.field "forced_enabled" = .bool false := rfl
    simp [isForced, hfalse, CapabilityRules.isTrue] at hf

theorem wellFormed_of_requireTrusted {config : Json}
    (h : requireTrusted H .voiceCallConfig config = .ok ()) : WellFormed config :=
  wellFormed_of_issues (issues_of_requireTrusted h)

/-- Every transaction leaves sound documents. -/
theorem sound_of_effect {s s' : ConfigStore} (heffect : Effect H template .voiceCallConfig s s')
    (h : SoundStore H s) : SoundStore H s' := by
  cases heffect with
  | unchanged => exact h
  | dropped hdraft =>
    refine ⟨fun row hrow => h.document row (.inl ?_), by simp⟩
    rcases hrow with hrow | hrow
    · exact hrow
    · simp at hrow
  | saved hsec hbase hforged htrusted =>
    obtain ⟨hsound, hactive⟩ := h.baseConfig_sound hbase
    refine h.write rfl rfl (fun _ he => he) (fun _ hl => hl) hactive fun d hd => ?_
    obtain rfl := Option.some.inj hd
    exact saved_sound hsound (hforged rfl) (wellFormed_of_requireTrusted htrusted)
  | restored hsec hdraft =>
    refine h.write rfl rfl (fun _ he => he) (fun _ hl => hl) (h.draftActive hdraft) fun d hd => ?_
    obtain ⟨row, hrow⟩ := Option.isSome_iff_exists.mp hdraft
    obtain rfl := Option.some.inj hd
    exact restored_sound h hrow
  | forced hkey hselected hcurrent hstatus htrusted =>
    obtain ⟨hsound, hactive⟩ := h.selectedConfig_sound hselected
    refine h.write rfl rfl (fun _ he => he) (fun _ hl => List.mem_append_left _ hl) hactive
      fun d hd => ?_
    obtain rfl := Option.some.inj hd
    exact forced_sound hsound hstatus rfl
  | imported hkey htimed hrows hbase hsix =>
    obtain ⟨hsound, hactive⟩ := h.importBase_sound hbase
    refine h.write rfl rfl (fun _ he => List.mem_append_left _ he) (fun _ hl => hl) hactive
      fun d hd => ?_
    obtain rfl := Option.some.inj hd
    exact (hsound.mono (fun _ he => List.mem_append_left _ he) fun _ hl => hl).projectRecords
      htimed hrows fun _ hrow => List.mem_append_right _ hrow
  | published hrow htrusted => exact h.publish (h.document _ hrow)
  | seeded hactive hissues => exact h.publish (seeded_sound hissues)

theorem sound_start {w : World} (h : (administration H template .voiceCallConfig).start w) :
    SoundStore H w.store := by
  obtain rfl : w = ⟨emptyStore, []⟩ := h
  exact ⟨by simp [emptyStore, ConfigStore.published], by simp [emptyStore]⟩

theorem sound_step {w w' : World} {r : Request} (h : SoundStore H w.store)
    (hstep : (administration H template .voiceCallConfig).step w r = some w') :
    SoundStore H w'.store := by
  obtain rfl := Option.some.inj hstep
  exact step_cases (P := fun w => SoundStore H w.store) (fun _ _ => h)
    (fun _ _ _ htx => sound_of_effect (transact_effect htx) h) h

/-- In every reachable state a verified capability shows a row of evidence, and a forced one
the test that forced it. -/
theorem verified_from_evidence (H : Host) (template : ConfigKey → Json) {w : World}
    (hw : (administration H template .voiceCallConfig).Reachable w) : Evidenced H w.store := by
  have hsound := Machine.reachable_invariant (I := fun w => SoundStore H w.store)
    (fun _ => sound_start) (fun _ _ _ => sound_step) hw
  exact ⟨fun row hrow => (hsound.document row hrow).origin⟩

/-- A seed whose test users may try a forced capability. -/
def callTemplate (_ : ConfigKey) : Json :=
  ((seedSection (configSections.map fun f => (f, .obj []))).put "schema_version" (.int 1)).put
    "global" (seedSection
      [("enabled", .bool true), ("maintenance_message", .str "stop".toList),
        ("maintenance_mode", .bool false), ("soft_stop", .bool false),
        ("rollout", seedSection [("mode", .str "all".toList), ("user_ids", .arr [])]),
        ("test_user_ids", .arr [.int 7])])

def forceReplyCancel : Request :=
  .transact (.forceCapabilityTest ⟨1, .superAdmin, true, false⟩
    ⟨"supports_reply_cancel".toList, "test".toList, "CONFIRM".toList, "trial".toList⟩) false

/-- A capability of the seed is forced. -/
def forcedDraft : List Request :=
  [.transact (.initializeDefaults (some .null)) false, forceReplyCancel]

def forcedWorld : World :=
  (administration plainHost callTemplate .voiceCallConfig).after ⟨emptyStore, []⟩ forcedDraft

theorem verified_from_evidence_forced :
    forcedWorld.store.forceLog.length = 1 ∧ Evidenced plainHost forcedWorld.store :=
  ⟨by decide, verified_from_evidence plainHost callTemplate
    (Machine.reachable_after rfl rfl)⟩

end CompanionBackend.ConfigDrafts
