import CompanionBackend.CapabilityStates
import CompanionBackend.ConfigDrafts

/-!
# What the transactions on a configuration do

One lemma for each transaction says what it found and what it wrote, and one inversion
lemma collects them. Every later argument about drafts starts from the inversion.
-/
namespace CompanionBackend.ConfigDrafts

open Runs ProviderEvents Dictionaries CapabilityRules CapabilityEvidence PublishGate

variable {H : Host} {template : ConfigKey → Json} {key : ConfigKey}

/-- The draft without its own changes to a section. -/
def ConfigStore.restoredSection (s : ConfigStore) (sec : String) : Json :=
  let draftConfig := (parseConfigValue s.draft).getD (.obj [])
  match ((parseConfigValue s.active).getD (.obj [])).get sec with
  | some value => draftConfig.put sec value
  | none => draftConfig.remove sec

/-- The row an import starts from. -/
def ConfigStore.importBase (s : ConfigStore) : Option AdminConfig :=
  if s.draft.isSome then s.draft else s.active

/-- The store after rows of evidence and their projections. -/
def ConfigStore.imported (s : ConfigStore) (rows : List VoiceCapabilityEvidence)
    (config : Json) (log : List ImportAudit) : ConfigStore :=
  { s.writeDraft config s.nextRevision with evidence := s.evidence ++ rows, importLog := log }

def ConfigStore.forced (s : ConfigStore) (k : VoiceCapability) (role : AdminRole)
    (config : Json) : ConfigStore :=
  { s.writeDraft config s.nextRevision with
    forceLog := s.forceLog ++ [⟨k, role, s.nextRevision, config⟩] }

/-- A record that passed names both of its instants. -/
def RecordTimed (record : EvidenceRecord) : Prop :=
  record.result = .passed → record.verifiedAt.isSome = true ∧ record.expiresAt.isSome = true

/-- What a committed transaction wrote. -/
inductive Effect (H : Host) (template : ConfigKey → Json) (key : ConfigKey) (s : ConfigStore) :
    ConfigStore → Prop
  | unchanged : Effect H template key s s
  | dropped : s.draft.isSome = true → Effect H template key s { s with draft := none }
  | saved {sec : String} {content : Dict Text Json} {base : Json} :
      sectionAllowed key sec = true → s.baseConfig = some base →
      (key = .voiceCallConfig → sec = "capabilities" →
        capabilityProjectionForgeryIssues (base.field "capabilities") (.obj content) = []) →
      requireTrusted H key (base.put sec (.obj content)) = .ok () →
      Effect H template key s (s.writeDraft (base.put sec (.obj content)) s.nextRevision)
  | restored {sec : String} : sectionAllowed key sec = true → s.draft.isSome = true →
      Effect H template key s (s.writeDraft (s.restoredSection sec) s.nextRevision)
  | forced {k : VoiceCapability} {selected : Json} : key = .voiceCallConfig →
      s.selectedConfig = some selected →
      requireTrusted H key selected = .ok () →
      (((selected.field "capabilities").field k.key).field "verification_status").strIn
        ["unverified", "stale"] = true →
      requireTrusted H key (withCapability selected k
        (((selected.field "capabilities").field k.key).update forcedEntries)) = .ok () →
      Effect H template key s (s.forced k .superAdmin (withCapability selected k
        (((selected.field "capabilities").field k.key).update forcedEntries)))
  | imported {records : List EvidenceRecord} {operatorId : ℕ} {log : List ImportAudit}
      {rows : List VoiceCapabilityEvidence} {base : AdminConfig} : key = .voiceCallConfig →
      (∀ record ∈ records, RecordTimed record) → newRows H operatorId records = .ok rows →
      s.importBase = some base → sixCapabilities base.configValue = true →
      Effect H template key s (s.imported rows (records.foldl projectRecord base.configValue) log)
  | published {row : AdminConfig} : row ∈ s.published ∨ s.draft = some row →
      requireTrusted H key row.configValue = .ok () →
      Effect H template key s (publishConfig row.configValue s)
  | seeded {ref : Json} : s.active = none →
      validateVoiceBundle H.sectionIssues key (seedConfig template key ref) = [] →
      Effect H template key s (publishConfig (seedConfig template key ref) s)

@[simp] theorem requireNone_eq_ok {issues : List Issue} {u : Unit} :
    requireNone issues = .ok u ↔ issues = [] := by
  simp [requireNone]

theorem parseConfigValue_eq_some {row : Option AdminConfig} {config : Json} :
    parseConfigValue row = some config ↔
      ∃ r, row = some r ∧ r.configValue = config ∧ config.isObj = true := by
  cases row with
  | none => simp [parseConfigValue]
  | some r =>
    simp only [parseConfigValue, Option.some.injEq, exists_eq_left']
    constructor
    · intro h
      split_ifs at h with hobj
      obtain rfl := Option.some.inj h
      exact ⟨rfl, hobj⟩
    · rintro ⟨rfl, hobj⟩
      exact if_pos hobj

variable (template) in
theorem saveDraftSection_spec {s s' : ConfigStore} {sec : String} {version : ℤ}
    {revision : Option ℤ} {content : Dict Text Json}
    (h : saveDraftSection H key sec version revision content s = .ok s') :
    version = s.currentVersion ∧ revision = s.currentRevision ∧ ∃ base,
      s.baseConfig = some base ∧
      s' = s.writeDraft (base.put sec (.obj content)) s.nextRevision ∧
      Effect H template key s s' := by
  unfold saveDraftSection at h
  obtain ⟨_, hsec, h⟩ := bind_eq_ok.mp h
  obtain ⟨_, hversion, h⟩ := bind_eq_ok.mp h
  obtain ⟨_, hrevision, h⟩ := bind_eq_ok.mp h
  obtain ⟨base, hbase, h⟩ := bind_eq_ok.mp h
  rw [require_eq_ok] at hsec hversion hrevision
  rw [orRaise_eq_ok] at hbase
  obtain ⟨_, -, h⟩ := bind_eq_ok.mp h
  obtain ⟨issues, hissues, h⟩ := bind_eq_ok.mp h
  obtain ⟨_, hnone, h⟩ := bind_eq_ok.mp h
  obtain rfl := Except.ok.inj h
  rw [requireNone_eq_ok, List.append_eq_nil_iff] at hnone
  obtain ⟨hforged, rfl⟩ := hnone
  refine ⟨hversion, hrevision, base, hbase, rfl, .saved hsec hbase ?_ ?_⟩
  · intro hkey hcap
    rwa [forgedIssues, if_pos ⟨hkey, hcap⟩] at hforged
  · simp [requireTrusted, hissues]

theorem discardDraftSection_spec {s s' : ConfigStore} {sec : String}
    (h : discardDraftSection key sec s = .ok s') : Effect H template key s s' := by
  unfold discardDraftSection at h
  obtain ⟨_, hsec, h⟩ := bind_eq_ok.mp h
  obtain ⟨_, hdraft, h⟩ := bind_eq_ok.mp h
  rw [require_eq_ok] at hsec hdraft
  change (if Json.pyEq (s.restoredSection sec) _ = true then _ else
    Except.ok (s.writeDraft (s.restoredSection sec) s.nextRevision)) = _ at h
  split_ifs at h with heq
  · obtain rfl := Except.ok.inj h
    exact .dropped hdraft
  · obtain rfl := Except.ok.inj h
    exact .restored hsec hdraft

theorem discardDraft_spec {s s' : ConfigStore} (h : discardDraft s = .ok s') :
    Effect H template key s s' := by
  obtain ⟨_, hdraft, h⟩ := bind_eq_ok.mp h
  obtain rfl := Except.ok.inj h
  exact .dropped (require_eq_ok.mp hdraft)

theorem forceCapabilityTest_spec {s s' : ConfigStore} {admin : AdminUser} {request : ForceRequest}
    (h : forceCapabilityTest H admin request s = .ok s') :
    Effect H template .voiceCallConfig s s' := by
  unfold forceCapabilityTest at h
  obtain ⟨k, hk, h⟩ := bind_eq_ok.mp h
  obtain ⟨selected, hselected, h⟩ := bind_eq_ok.mp h
  obtain ⟨_, htrusted, h⟩ := bind_eq_ok.mp h
  obtain ⟨_, -, h⟩ := bind_eq_ok.mp h
  obtain ⟨_, -, h⟩ := bind_eq_ok.mp h
  obtain ⟨_, hstatus, h⟩ := bind_eq_ok.mp h
  obtain ⟨_, hnext, h⟩ := bind_eq_ok.mp h
  obtain rfl := Except.ok.inj h
  have hrole : admin.role = .superAdmin := by
    unfold checkForceRequest at hk
    obtain ⟨_, hrole, -⟩ := bind_eq_ok.mp hk
    exact require_eq_ok.mp hrole
  rw [hrole]
  exact .forced rfl (orRaise_eq_ok.mp hselected) htrusted (require_eq_ok.mp hstatus) hnext

theorem lockedDraftConfig_spec {s : ConfigStore} {draft : AdminConfig} {config : Json}
    (h : lockedDraftConfig s = .ok (draft, config)) :
    ∃ base, s.importBase = some base ∧ config = base.configValue ∧
      sixCapabilities base.configValue = true ∧
      draft.version = (s.draft.map AdminConfig.version).getD 0 ∧
      draft.draftRevision.getD 0 = s.currentRevision.getD 0 := by
  unfold lockedDraftConfig at h
  obtain ⟨found, hfound, h⟩ := bind_eq_ok.mp h
  obtain ⟨_, hsix, h⟩ := bind_eq_ok.mp h
  rw [require_eq_ok] at hsix
  obtain ⟨rfl, rfl⟩ := by simpa using h
  unfold importRow at hfound
  cases hdraft : s.draft with
  | some row =>
    rw [hdraft] at hfound
    obtain rfl := Except.ok.inj hfound
    exact ⟨row, by simp [ConfigStore.importBase, hdraft], rfl, hsix, rfl,
      by simp [ConfigStore.currentRevision, hdraft]⟩
  | none =>
    rw [hdraft] at hfound
    obtain ⟨active, hactive, hfound⟩ := bind_eq_ok.mp hfound
    obtain rfl := Except.ok.inj hfound
    exact ⟨active, by simpa [ConfigStore.importBase, hdraft] using hactive, rfl, hsix, rfl,
      by simp [ConfigStore.currentRevision, hdraft]⟩

theorem appendRecords_spec {s written : ConfigStore} {operator : AdminUser}
    {records : List EvidenceRecord} {rows : List VoiceCapabilityEvidence}
    (h : appendRecords H operator records s = .ok (rows, written)) :
    newRows H operator.id records = .ok rows ∧ ∃ base, s.importBase = some base ∧
      sixCapabilities base.configValue = true ∧
      written = s.imported rows (records.foldl projectRecord base.configValue) s.importLog := by
  unfold appendRecords at h
  obtain ⟨rows', hrows, h⟩ := bind_eq_ok.mp h
  obtain ⟨⟨draft, config⟩, hlocked, h⟩ := bind_eq_ok.mp h
  obtain ⟨advanced, hadvanced, h⟩ := bind_eq_ok.mp h
  obtain ⟨rfl, rfl⟩ := by simpa using h
  obtain ⟨base, hbase, rfl, hsix, hversion, hrevision⟩ := lockedDraftConfig_spec hlocked
  refine ⟨mapError_eq_ok.mp hrows, base, hbase, hsix, ?_⟩
  unfold advanceDraft at hadvanced
  obtain ⟨_, -, hadvanced⟩ := bind_eq_ok.mp hadvanced
  obtain rfl := Except.ok.inj hadvanced
  simp [ConfigStore.imported, ConfigStore.writeDraft, ConfigStore.nextRevision, hversion, hrevision]

/-- An import of these records, with what it leaves in the log. -/
theorem effect_of_append {s written : ConfigStore} {operator : AdminUser}
    {records : List EvidenceRecord} {rows : List VoiceCapabilityEvidence}
    (h : appendRecords H operator records s = .ok (rows, written))
    (htimed : ∀ record ∈ records, RecordTimed record) (log : List ImportAudit) :
    Effect H template .voiceCallConfig s { written with importLog := log } := by
  obtain ⟨hrows, base, hbase, hsix, rfl⟩ := appendRecords_spec h
  exact .imported rfl htimed hrows hbase hsix

/-! ### Records that passed their checks -/

theorem validateEvidenceRecord_timed {value : Json} {source : SourceType} {allowError : Bool}
    {t : Instant} {path : String} {record : EvidenceRecord}
    (h : validateEvidenceRecord H value source allowError t path = .ok record) :
    RecordTimed record := by
  unfold validateEvidenceRecord at h
  obtain ⟨_, -, h⟩ := bind_eq_ok.mp h
  obtain ⟨reportId, -, h⟩ := bind_eq_ok.mp h
  obtain ⟨runId, -, h⟩ := bind_eq_ok.mp h
  obtain ⟨capability, -, h⟩ := bind_eq_ok.mp h
  obtain ⟨result, -, h⟩ := bind_eq_ok.mp h
  obtain ⟨_, -, h⟩ := bind_eq_ok.mp h
  obtain ⟨dims, -, h⟩ := bind_eq_ok.mp h
  obtain ⟨_, -, h⟩ := bind_eq_ok.mp h
  obtain ⟨_, -, h⟩ := bind_eq_ok.mp h
  obtain ⟨_, -, h⟩ := bind_eq_ok.mp h
  obtain ⟨tested, -, h⟩ := bind_eq_ok.mp h
  obtain ⟨ttl, -, h⟩ := bind_eq_ok.mp h
  obtain ⟨_, htimes, h⟩ := bind_eq_ok.mp h
  obtain ⟨hash, -, h⟩ := bind_eq_ok.mp h
  obtain ⟨_, -, h⟩ := bind_eq_ok.mp h
  obtain ⟨_, -, h⟩ := bind_eq_ok.mp h
  obtain rfl := Except.ok.inj h
  rintro rfl
  obtain ⟨verified, hverified, htimes⟩ := bind_eq_ok.mp htimes
  obtain ⟨expires, hexpires, -⟩ := bind_eq_ok.mp htimes
  have htext : ∀ {v : Json} {p : String} {t : Instant}, parseEvidenceDatetime H v p = .ok t →
      (optionalText v).isSome = true := by
    intro v p t hv
    cases v <;> simp [parseEvidenceDatetime, optionalText] at hv ⊢
  exact ⟨htext hverified, htext hexpires⟩

theorem validateRecords_forall {f : ℕ → Json → Except EvidenceError EvidenceRecord}
    {P : EvidenceRecord → Prop} (hf : ∀ n value record, f n value = .ok record → P record)
    {n : ℕ} {values : List Json} {records : List EvidenceRecord}
    (h : validateRecords f n values = .ok records) : ∀ record ∈ records, P record := by
  induction values generalizing n records with
  | nil =>
    obtain rfl := Except.ok.inj h
    simp
  | cons value values ih =>
    obtain ⟨record, hrecord, h⟩ := bind_eq_ok.mp h
    obtain ⟨more, hmore, h⟩ := bind_eq_ok.mp h
    obtain rfl := Except.ok.inj h
    exact List.forall_mem_cons.mpr ⟨hf n value record hrecord, ih hmore⟩

theorem validatePhase0EvidenceBundle_timed {value : Json} {t : Instant}
    {bundle : ValidatedBundle} (h : validatePhase0EvidenceBundle H value t = .ok bundle) :
    ∀ record ∈ bundle.records, RecordTimed record := by
  unfold validatePhase0EvidenceBundle at h
  obtain ⟨_, -, h⟩ := bind_eq_ok.mp h
  obtain ⟨_, -, h⟩ := bind_eq_ok.mp h
  obtain ⟨runId, -, h⟩ := bind_eq_ok.mp h
  obtain ⟨_, -, h⟩ := bind_eq_ok.mp h
  obtain ⟨_, -, h⟩ := bind_eq_ok.mp h
  obtain ⟨_, -, h⟩ := bind_eq_ok.mp h
  obtain ⟨accepted, haccepted, h⟩ := bind_eq_ok.mp h
  obtain ⟨_, -, h⟩ := bind_eq_ok.mp h
  obtain ⟨_, -, h⟩ := bind_eq_ok.mp h
  obtain ⟨_, -, h⟩ := bind_eq_ok.mp h
  obtain ⟨_, -, h⟩ := bind_eq_ok.mp h
  obtain ⟨hash, -, h⟩ := bind_eq_ok.mp h
  obtain ⟨_, -, h⟩ := bind_eq_ok.mp h
  obtain ⟨_, -, h⟩ := bind_eq_ok.mp h
  obtain rfl := Except.ok.inj h
  exact validateRecords_forall (fun _ _ _ hrecord => validateEvidenceRecord_timed hrecord) haccepted

theorem validatePhase0EvidenceSelection_timed {value : Json} {ids : List Text} {t : Instant}
    {bundle : ValidatedBundle} (h : validatePhase0EvidenceSelection H value ids t = .ok bundle) :
    ∀ record ∈ bundle.records, RecordTimed record := by
  unfold validatePhase0EvidenceSelection at h
  obtain ⟨_, -, h⟩ := bind_eq_ok.mp h
  obtain ⟨runId, -, h⟩ := bind_eq_ok.mp h
  obtain ⟨_, -, h⟩ := bind_eq_ok.mp h
  obtain ⟨hash, -, h⟩ := bind_eq_ok.mp h
  obtain ⟨_, -, h⟩ := bind_eq_ok.mp h
  obtain ⟨_, -, h⟩ := bind_eq_ok.mp h
  obtain ⟨_, -, h⟩ := bind_eq_ok.mp h
  obtain ⟨_, -, h⟩ := bind_eq_ok.mp h
  obtain ⟨raws, -, h⟩ := bind_eq_ok.mp h
  obtain ⟨_, -, h⟩ := bind_eq_ok.mp h
  obtain ⟨_, -, h⟩ := bind_eq_ok.mp h
  obtain ⟨_, -, h⟩ := bind_eq_ok.mp h
  obtain ⟨accepted, haccepted, h⟩ := bind_eq_ok.mp h
  obtain ⟨_, -, h⟩ := bind_eq_ok.mp h
  obtain rfl := Except.ok.inj h
  exact validateRecords_forall (fun _ _ _ hrecord => validateEvidenceRecord_timed hrecord) haccepted

/-! ### Imports -/

theorem importPhase0EvidenceBundle_spec {s s' : ConfigStore} {bundle : Json}
    {operator : Option AdminUser} {t : Instant}
    (h : importPhase0EvidenceBundle H bundle operator t s = .ok s') :
    Effect H template .voiceCallConfig s s' := by
  unfold importPhase0EvidenceBundle at h
  obtain ⟨validated, hvalidated, h⟩ := bind_eq_ok.mp h
  obtain ⟨_, -, h⟩ := bind_eq_ok.mp h
  obtain ⟨user, -, h⟩ := bind_eq_ok.mp h
  dsimp only at h
  split at h
  · obtain ⟨⟨rows, written⟩, happend, h⟩ := bind_eq_ok.mp h
    obtain rfl := Except.ok.inj h
    exact effect_of_append happend
      (validatePhase0EvidenceBundle_timed (mapError_eq_ok.mp hvalidated)) _
  · obtain ⟨_, -, h⟩ := bind_eq_ok.mp h
    obtain rfl := Except.ok.inj h
    exact .unchanged

theorem pendingRecords_subset {s : ConfigStore} {records pending : List EvidenceRecord}
    (h : pendingRecords H s records = .ok pending) : ∀ record ∈ pending, record ∈ records := by
  induction records generalizing pending with
  | nil =>
    obtain rfl := Except.ok.inj h
    simp
  | cons record records ih =>
    obtain ⟨more, hmore, h⟩ := bind_eq_ok.mp h
    have hold : ∀ r ∈ more, r ∈ record :: records := fun r hr =>
      List.mem_cons_of_mem _ (ih hmore r hr)
    split at h
    · obtain rfl := Except.ok.inj h
      exact List.forall_mem_cons.mpr ⟨List.mem_cons_self, hold⟩
    · obtain ⟨_, -, h⟩ := bind_eq_ok.mp h
      obtain rfl := Except.ok.inj h
      exact hold
    · simp at h

theorem importPhase0EvidenceSelection_spec {s s' : ConfigStore} {bundle : Json}
    {ids : List Text} {operator : Option AdminUser} {t : Instant}
    (h : importPhase0EvidenceSelection H bundle ids operator t s = .ok s') :
    Effect H template .voiceCallConfig s s' := by
  unfold importPhase0EvidenceSelection at h
  obtain ⟨selected, hselected, h⟩ := bind_eq_ok.mp h
  obtain ⟨_, -, h⟩ := bind_eq_ok.mp h
  obtain ⟨user, -, h⟩ := bind_eq_ok.mp h
  obtain ⟨_, -, h⟩ := bind_eq_ok.mp h
  obtain ⟨pending, hpending, h⟩ := bind_eq_ok.mp h
  have htimed := validatePhase0EvidenceSelection_timed (mapError_eq_ok.mp hselected)
  split at h
  · obtain rfl := Except.ok.inj h
    exact .unchanged
  · obtain ⟨⟨rows, written⟩, happend, h⟩ := bind_eq_ok.mp h
    obtain ⟨_, -, h⟩ := bind_eq_ok.mp h
    obtain rfl := Except.ok.inj h
    exact effect_of_append happend
      (fun record hr => htimed record (pendingRecords_subset hpending record hr)) _

theorem appendAdminCapabilityEvidence_spec {s s' : ConfigStore} {record : Json}
    {operator : Option AdminUser} {t : Instant}
    (h : appendAdminCapabilityEvidence H record operator t s = .ok s') :
    Effect H template .voiceCallConfig s s' := by
  unfold appendAdminCapabilityEvidence at h
  obtain ⟨validated, hvalidated, h⟩ := bind_eq_ok.mp h
  obtain ⟨user, -, h⟩ := bind_eq_ok.mp h
  have htimed := validateEvidenceRecord_timed (mapError_eq_ok.mp hvalidated)
  split at h
  · obtain ⟨⟨rows, written⟩, happend, h⟩ := bind_eq_ok.mp h
    obtain rfl := Except.ok.inj h
    exact effect_of_append happend (by simpa using htimed) written.importLog
  · obtain ⟨_, -, h⟩ := bind_eq_ok.mp h
    obtain rfl := Except.ok.inj h
    exact .unchanged
  · simp at h

/-! ### Publications -/

theorem requireTrusted_of_publishable {request : PublishRequest} {s : ConfigStore} {config : Json}
    (h : checkPublishable H key request s config = .ok ()) :
    requireTrusted H key config = .ok () := by
  obtain ⟨_, htrusted, -⟩ := bind_eq_ok.mp h
  exact htrusted

theorem publish_spec {s s' : ConfigStore} {request : PublishRequest}
    (h : publish H key request s = .ok s') : Effect H template key s s' := by
  unfold publish at h
  obtain ⟨_, -, h⟩ := bind_eq_ok.mp h
  obtain ⟨config, hconfig, h⟩ := bind_eq_ok.mp h
  obtain ⟨_, hcheck, h⟩ := bind_eq_ok.mp h
  obtain rfl := Except.ok.inj h
  rw [orRaise_eq_ok] at hconfig
  obtain ⟨row, hrow, rfl, -⟩ := parseConfigValue_eq_some.mp hconfig
  exact .published (.inr hrow) (requireTrusted_of_publishable hcheck)

theorem rollback_spec {s s' : ConfigStore} {version : ℤ} {request : PublishRequest}
    (h : rollback H key version request s = .ok s') : Effect H template key s s' := by
  unfold rollback at h
  obtain ⟨_, -, h⟩ := bind_eq_ok.mp h
  obtain ⟨config, hconfig, h⟩ := bind_eq_ok.mp h
  obtain ⟨_, hcheck, h⟩ := bind_eq_ok.mp h
  obtain rfl := Except.ok.inj h
  rw [orRaise_eq_ok] at hconfig
  obtain ⟨row, hrow, rfl, -⟩ := parseConfigValue_eq_some.mp hconfig
  exact .published (.inl (List.mem_of_find?_eq_some hrow)) (requireTrusted_of_publishable hcheck)

theorem initializeDefaults_spec {s s' : ConfigStore} {ref : Option Json}
    (h : initializeDefaults H template key ref s = .ok s') : Effect H template key s s' := by
  unfold initializeDefaults at h
  split_ifs at h with hactive
  · obtain rfl := Except.ok.inj h
    exact .unchanged
  · obtain ⟨value, -, h⟩ := bind_eq_ok.mp h
    obtain ⟨_, hissues, h⟩ := bind_eq_ok.mp h
    obtain rfl := Except.ok.inj h
    exact .seeded (by simpa using hactive) (by simpa using hissues)

theorem onConfig_spec {tx : ConfigStore → Except ConfigError ConfigStore} {s s' : ConfigStore}
    (htx : tx s = .ok s' → Effect H template .voiceCallConfig s s')
    (h : onConfig key tx s = .ok s') : Effect H template key s s' := by
  cases key with
  | voiceCallConfig => exact htx h
  | voiceCallScript =>
    obtain rfl := Except.ok.inj h
    exact .unchanged

/-- What a committed transaction did. -/
theorem transact_effect {op : Operation} {s s' : ConfigStore}
    (h : transact H template key op s = .ok s') : Effect H template key s s' := by
  cases op with
  | saveDraftSection sec version revision content =>
    obtain ⟨-, -, base, -, -, heffect⟩ := saveDraftSection_spec template h
    exact heffect
  | discardDraftSection sec => exact discardDraftSection_spec h
  | discardDraft => exact discardDraft_spec h
  | forceCapabilityTest admin request => exact onConfig_spec forceCapabilityTest_spec h
  | importPhase0EvidenceBundle bundle operator t =>
    exact onConfig_spec importPhase0EvidenceBundle_spec h
  | importPhase0EvidenceSelection bundle ids operator t =>
    exact onConfig_spec importPhase0EvidenceSelection_spec h
  | appendAdminCapabilityEvidence record operator t =>
    exact onConfig_spec appendAdminCapabilityEvidence_spec h
  | publish request => exact publish_spec h
  | rollback version request => exact rollback_spec h
  | initializeDefaults ref => exact initializeDefaults_spec h

/-- A step hands out a bundle, or commits one transaction, or changes nothing. -/
theorem step_cases {w : World} {r : Request} {P : World → Prop}
    (hread : ∀ role, r = .getBundle role →
      P { w with bundles := w.bundles ++ (getBundle H role w.store).toList })
    (hwrite : ∀ op store, r = .transact op false → transact H template key op w.store = .ok store →
      P { w with store := store })
    (hsame : P w) : P (w.step H template key r) := by
  cases r with
  | getBundle role => exact hread role rfl
  | transact op refused =>
    unfold World.step
    dsimp only
    split
    · rename_i store hstore
      cases refused with
      | false => exact hwrite op store rfl hstore
      | true => exact hsame
    · exact hsame

end CompanionBackend.ConfigDrafts
