import Mathlib.Data.List.Sort
import CompanionBackend.PublishGate

/-!
# Drafts and versions of a voice configuration

The rows of one configuration key: the published versions, of which one is active, and at
most one draft with a revision number. Administrators and the evidence service change them in
transactions under the locks of the rows. The table of personas, the clock and what the
environment refuses come with a request.
-/
namespace CompanionBackend.ConfigDrafts

open Runs ProviderEvents Dictionaries CapabilityRules CapabilityEvidence PublishGate

/-- A row of `admin_config`. -/
structure AdminConfig where
  configValue : Json
  version : ℤ
  draftRevision : Option ℤ

inductive AdminRole
  | superAdmin | aiTrainer | techOps | opsAdmin | observer
  deriving DecidableEq, Repr

structure AdminUser where
  id : ℕ
  role : AdminRole
  isActive : Bool
  isLocked : Bool
  deriving DecidableEq

/-- What the log of a forced test holds: who forced which capability, and the document. -/
structure ForceAudit where
  capability : VoiceCapability
  permission : AdminRole
  draftRevision : ℤ
  config : Json

/-- What the log of an import holds of the file. -/
structure ImportAudit where
  evidenceRunId : Text
  bundleSha256 : Text
  selection : Bool

structure ConfigStore where
  active : Option AdminConfig
  /-- The published versions that are no longer active. -/
  history : List AdminConfig
  draft : Option AdminConfig
  evidence : List VoiceCapabilityEvidence
  forceLog : List ForceAudit
  importLog : List ImportAudit

/-- Nothing has been stored under the key. -/
def emptyStore : ConfigStore := ⟨none, [], none, [], [], []⟩

def parseConfigValue (row : Option AdminConfig) : Option Json :=
  match row with
  | some r => if r.configValue.isObj then some r.configValue else none
  | none => none

namespace ConfigStore

def currentVersion (s : ConfigStore) : ℤ := (s.active.map AdminConfig.version).getD 0

def currentRevision (s : ConfigStore) : Option ℤ := s.draft.bind AdminConfig.draftRevision

/-- `(current_revision or 0) + 1`. -/
def nextRevision (s : ConfigStore) : ℤ := s.currentRevision.getD 0 + 1

/-- What a saved section is put into. -/
def baseConfig (s : ConfigStore) : Option Json :=
  if s.draft.isSome then parseConfigValue s.draft else parseConfigValue s.active

/-- `draft_config or active_config`. -/
def selectedConfig (s : ConfigStore) : Option Json :=
  match parseConfigValue s.draft with
  | some config => if config.truthy then some config else parseConfigValue s.active
  | none => parseConfigValue s.active

def published (s : ConfigStore) : List AdminConfig := s.active.toList ++ s.history

/-- The draft with a new content and revision, made when there is none. -/
def writeDraft (s : ConfigStore) (config : Json) (revision : ℤ) : ConfigStore :=
  { s with draft := some { configValue := config
                           version := (s.draft.map AdminConfig.version).getD 0
                           draftRevision := some revision } }

end ConfigStore

def allowedSections : ConfigKey → List String
  | .voiceCallConfig =>
    ["global", "persona_ref", "s2s", "voice", "capabilities", "quota", "growth", "concurrency",
      "interaction", "summary", "followup", "retention"]
  | .voiceCallScript =>
    ["context_pack", "call_answer", "recall", "memory", "summary", "barge_in",
      "silence_and_exit", "followup", "end_reason", "reconnect_bridge", "crisis"]

def sectionAllowed (key : ConfigKey) (sec : String) : Bool :=
  (allowedSections key).any fun s => decide (s.toList = sec.toList)

/-! ### Reading -/

/-- The credential in a section as a role may see it. -/
def projectCredential (H : Host) (role : AdminRole) (config : Json) : Json :=
  let s2s := config.field "s2s"
  if !s2s.isObj then config else
    let configured := match s2s.field "credential_ref" with
      | .str ref => !ref.isEmpty && H.getenv ref
      | _ => false
    let shown := (s2s.put "credential_configured" (.bool configured)).remove
      "credential_revision_ref"
    let shown := if role = .superAdmin ∨ role = .techOps then shown
      else shown.remove "credential_ref"
    config.put "s2s" shown

/-- The keys of either document whose values differ, in order. -/
def changedSections (active draft : Option Json) : List Text :=
  match draft with
  | some (.obj after) =>
    let before := match active with | some (.obj fields) => fields | _ => []
    let value (fields : Dict Text Json) (key : Text) : Json := (Dict.get fields key).getD .null
    sorted (((before ++ after).map Prod.fst).dedup.filter fun key =>
      decide (key ≠ "schema_version".toList) && !Json.pyEq (value before key) (value after key))
  | _ => []

/-- What `get_bundle` returns. `selected` is the content that `config` shows to a role. -/
structure Bundle where
  baseVersion : ℤ
  draftRevision : Option ℤ
  contentSha256 : Text
  activeContentSha256 : Option Text
  hasDraft : Bool
  changed : List Text
  selected : Json
  config : Json

def contentSha256 (H : Host) (value : Json) : Text :=
  "sha256:".toList ++ H.sha256 (H.canonicalJson value)

def getBundle (H : Host) (role : AdminRole) (s : ConfigStore) : Option Bundle :=
  s.selectedConfig.map fun selected =>
    { baseVersion := s.currentVersion
      draftRevision := s.currentRevision
      contentSha256 := contentSha256 H selected
      activeContentSha256 :=
        ((parseConfigValue s.active).filter Json.truthy).map (contentSha256 H)
      hasDraft := s.draft.isSome
      changed := changedSections (parseConfigValue s.active) (parseConfigValue s.draft)
      selected := selected
      config := projectCredential H role selected }

/-! ### Editing a draft -/

/-- The issues of a stored document with this key. -/
def documentIssues (H : Host) (key : ConfigKey) (config : Json) :
    Except ConfigError (List Issue) :=
  match key with
  | .voiceCallConfig =>
    (validateTrustedVoiceBundle H.sectionIssues key config).mapError ConfigError.raised
  | .voiceCallScript => .ok (validateVoiceBundle H.sectionIssues key config)

def requireNone (issues : List Issue) : Except ConfigError Unit :=
  require (issues.isEmpty = true) (.config .schemaInvalid issues)

def requireTrusted (H : Host) (key : ConfigKey) (config : Json) : Except ConfigError Unit := do
  let issues ← documentIssues H key config
  requireNone issues

/-- The master switch is not edited with the section it is in. -/
def checkMasterSwitch (key : ConfigKey) (sec : String) (base content : Json) :
    Except ConfigError Unit :=
  if key ≠ .voiceCallConfig ∨ sec ≠ "global" then .ok () else do
  let legacy ← match base.get "global" with
    | none => .ok Json.null
    | some value =>
      if value.isObj then .ok (value.field "enabled") else .error (.raised .attributeError)
  require ((content.field "enabled").isBool = true ∧
    Json.pyEq (content.field "enabled") legacy = true) (.config .masterSwitchManaged [])

/-- Fields of the server in a submitted section of capabilities. -/
def forgedIssues (key : ConfigKey) (sec : String) (base content : Json) : List Issue :=
  if key = .voiceCallConfig ∧ sec = "capabilities" then
    capabilityProjectionForgeryIssues (base.field "capabilities") content
  else []

def saveDraftSection (H : Host) (key : ConfigKey) (sec : String) (baseVersion : ℤ)
    (draftRevision : Option ℤ) (content : Dict Text Json) (s : ConfigStore) :
    Except ConfigError ConfigStore := do
  require (sectionAllowed key sec = true) (.config .schemaInvalid [])
  require (baseVersion = s.currentVersion) (.config .baseVersionConflict [])
  require (draftRevision = s.currentRevision) (.config .revisionConflict [])
  let base ← orRaise s.baseConfig (.config .schemaInvalid [])
  checkMasterSwitch key sec base (.obj content)
  let next := base.put sec (.obj content)
  let issues ← documentIssues H key next
  requireNone (forgedIssues key sec base (.obj content) ++ issues)
  .ok (s.writeDraft next s.nextRevision)

def discardDraftSection (key : ConfigKey) (sec : String) (s : ConfigStore) :
    Except ConfigError ConfigStore := do
  require (sectionAllowed key sec = true) (.config .schemaInvalid [])
  require (s.draft.isSome = true) (.config .noDraft [])
  let activeConfig := (parseConfigValue s.active).getD (.obj [])
  let draftConfig := (parseConfigValue s.draft).getD (.obj [])
  let next := match activeConfig.get sec with
    | some value => draftConfig.put sec value
    | none => draftConfig.remove sec
  if Json.pyEq next activeConfig then .ok { s with draft := none }
  else .ok (s.writeDraft next s.nextRevision)

def discardDraft (s : ConfigStore) : Except ConfigError ConfigStore := do
  require (s.draft.isSome = true) (.config .noDraft [])
  .ok { s with draft := none }

/-- The document with another value of one capability. -/
def withCapability (config : Json) (k : VoiceCapability) (item : Json) : Json :=
  config.put "capabilities" ((config.field "capabilities").put k.key item)

/-- A report that was only a diagnosis or a review of playback. -/
def auditOnly (row : VoiceCapabilityEvidence) : Bool :=
  decide (row.verificationResult = EvidenceResult.error.name.toList) &&
    (decide (row.sourceType = SourceType.phase0Import.name.toList) ||
      (row.evidencePayload.field "reason_code").isStr "admin_playback_review_only")

def forcedEntries : List (String × Json) :=
  [("enabled", .bool true), ("forced_enabled", .bool true),
    ("effective_scope", .str "test".toList)]

structure ForceRequest where
  capabilityKey : Text
  effectiveScope : Text
  confirmText : Text
  reason : Text

/-- The requested capability, where the request may be made at all. -/
def checkForceRequest (admin : AdminUser) (request : ForceRequest) :
    Except ConfigError VoiceCapability := do
  require (admin.role = .superAdmin) (.config .forceForbidden [])
  require (request.confirmText = "CONFIRM".toList) (.config .forceConfirmInvalid [])
  require (nonBlank request.reason = true) (.config .forceReasonRequired [])
  let k ← orRaise (capabilityOf (.str request.capabilityKey)) (.config .forceStatusInvalid [])
  require (request.effectiveScope = "test".toList) (.config .forceScopeInvalid [])
  .ok k

def forceCapabilityTest (H : Host) (admin : AdminUser) (request : ForceRequest)
    (s : ConfigStore) : Except ConfigError ConfigStore := do
  let k ← checkForceRequest admin request
  let selected ← orRaise s.selectedConfig (.config .schemaInvalid [])
  requireTrusted H .voiceCallConfig selected
  require (((selected.field "global").field "test_user_ids").truthy = true)
    (.config .forceTestUsersRequired [])
  let capability := (selected.field "capabilities").field k.key
  let report := match capability.field "evidence_report_id" with
    | .str reportId => if reportId.isEmpty then none else findEvidence s.evidence reportId
    | _ => none
  require (∀ row ∈ report, auditOnly row = false) (.config .forceStatusInvalid [])
  require ((capability.field "verification_status").strIn ["unverified", "stale"] = true)
    (.config .forceStatusInvalid [])
  let next := withCapability selected k (capability.update forcedEntries)
  requireTrusted H .voiceCallConfig next
  let written := s.writeDraft next s.nextRevision
  .ok { written with forceLog := s.forceLog ++ [⟨k, admin.role, s.nextRevision, next⟩] }

/-! ### Importing evidence -/

def verifiedOperator (operator : Option AdminUser) : Except ConfigError AdminUser := do
  let denied := ConfigError.evidence ⟨.accessDenied, "operator"⟩
  let user ← orRaise operator denied
  require ((user.role = .superAdmin ∨ user.role = .techOps) ∧ user.isActive = true ∧
    user.isLocked = false) denied
  .ok user

/-- Six capabilities, all of them dictionaries. -/
def sixCapabilities (config : Json) : Bool :=
  exactDict (config.field "capabilities") (VoiceCapability.all.map VoiceCapability.key) &&
    VoiceCapability.all.all fun k => ((config.field "capabilities").field k.key).isObj

/-- The draft to write to, a copy of the active version when there is none. -/
def importRow (s : ConfigStore) : Except ConfigError AdminConfig :=
  match s.draft with
  | some draft => .ok draft
  | none => do
    let active ← orRaise s.active (.evidence ⟨.draftUnavailable, "voice_call_config"⟩)
    .ok ⟨active.configValue, 0, some 0⟩

def lockedDraftConfig (s : ConfigStore) : Except ConfigError (AdminConfig × Json) := do
  let draft ← importRow s
  require (sixCapabilities draft.configValue = true)
    (.evidence ⟨.draftInvalid, "voice_call_config.capabilities"⟩)
  .ok (draft, draft.configValue)

def advanceDraft (draft : AdminConfig) (config : Json) : Except ConfigError AdminConfig := do
  let revision := draft.draftRevision.getD 0
  require (0 ≤ revision) (.evidence ⟨.draftInvalid, "voice_call_config.draft_revision"⟩)
  .ok { draft with configValue := config, draftRevision := some (revision + 1) }

def projectRecord (config : Json) (record : EvidenceRecord) : Json :=
  withCapability config record.capability
    (projectRecordToCapability ((config.field "capabilities").field record.capability.key) record)

def newRows (H : Host) (operatorId : ℕ) :
    List EvidenceRecord → Except EvidenceError (List VoiceCapabilityEvidence)
  | [] => .ok []
  | record :: rest => do
    let row ← newEvidenceRow H record operatorId
    let more ← newRows H operatorId rest
    .ok (row :: more)

/-- The rows are stored and the records projected into the draft. -/
def appendRecords (H : Host) (operator : AdminUser) (records : List EvidenceRecord)
    (s : ConfigStore) : Except ConfigError (List VoiceCapabilityEvidence × ConfigStore) := do
  let rows ← (newRows H operator.id records).mapError ConfigError.evidence
  let (draft, config) ← lockedDraftConfig s
  let written ← advanceDraft draft (records.foldl projectRecord config)
  .ok (rows, { s with evidence := s.evidence ++ rows, draft := some written })

def importConflict (field : String) : ConfigError := .evidence ⟨.importConflict, field⟩

/-- `_lock_phase0_import_anchor`: some row must be there to be locked. -/
def lockImportAnchor (s : ConfigStore) : Except ConfigError Unit :=
  require (s.active.isSome = true ∨ s.draft.isSome = true ∨ s.history.isEmpty = false)
    (.evidence ⟨.draftUnavailable, "voice_call_config"⟩)

def importPhase0EvidenceBundle (H : Host) (bundle : Json) (operator : Option AdminUser)
    (now : Instant) (s : ConfigStore) : Except ConfigError ConfigStore := do
  let validated ← (validatePhase0EvidenceBundle H bundle now).mapError ConfigError.evidence
  lockImportAnchor s
  let user ← verifiedOperator operator
  let ids := validated.records.map (·.evidenceReportId)
  let existing := s.evidence.filter fun row =>
    decide (row.evidenceRunId = validated.evidenceRunId ∨ row.evidenceReportId ∈ ids)
  if existing.isEmpty then do
    let (_, written) ← appendRecords H user validated.records s
    .ok { written with
      importLog := s.importLog ++ [⟨validated.evidenceRunId, validated.bundleSha256, false⟩] }
  else do
    let hashes := (s.importLog.filter fun log =>
      !log.selection && decide (log.evidenceRunId = validated.evidenceRunId)).map (·.bundleSha256)
    require (existing.length = validated.records.length ∧
      (validated.records.all fun record => existing.any fun row => storedAs H row record) = true ∧
      hashes = [validated.bundleSha256]) (importConflict "bundle")
    .ok s

/-- The rows that share an identity with a record. -/
def existingAdminRows (s : ConfigStore) (record : EvidenceRecord) : List VoiceCapabilityEvidence :=
  s.evidence.filter fun row => decide (row.evidenceReportId = record.evidenceReportId ∨
    row.evidenceRunId = record.evidenceRunId ∧
      row.capabilityKey = record.capability.key.toList)

/-- The records that are not stored yet; one stored with another content is a conflict. -/
def pendingRecords (H : Host) (s : ConfigStore) :
    List EvidenceRecord → Except ConfigError (List EvidenceRecord)
  | [] => .ok []
  | record :: rest => do
    let more ← pendingRecords H s rest
    match existingAdminRows s record with
    | [] => .ok (record :: more)
    | [row] => do
      require (storedAs H row record = true) (importConflict "record")
      .ok more
    | _ => .error (importConflict "record")

def importPhase0EvidenceSelection (H : Host) (bundle : Json) (reportIds : List Text)
    (operator : Option AdminUser) (now : Instant) (s : ConfigStore) :
    Except ConfigError ConfigStore := do
  let selected ← (validatePhase0EvidenceSelection H bundle reportIds now).mapError
    ConfigError.evidence
  lockImportAnchor s
  let user ← verifiedOperator operator
  require (∀ log ∈ s.importLog, log.evidenceRunId = selected.evidenceRunId →
    log.bundleSha256 = selected.bundleSha256) (importConflict "bundle")
  let pending ← pendingRecords H s selected.records
  if pending.isEmpty then .ok s else do
    let (rows, written) ← appendRecords H user pending s
    require ((rows.zip pending).all (fun e => storedAs H e.1 e.2) = true)
      (.evidence ⟨.storageMismatch, "record"⟩)
    .ok { written with
      importLog := s.importLog ++ [⟨selected.evidenceRunId, selected.bundleSha256, true⟩] }

def appendAdminCapabilityEvidence (H : Host) (record : Json) (operator : Option AdminUser)
    (now : Instant) (s : ConfigStore) : Except ConfigError ConfigStore := do
  let validated ← (validateEvidenceRecord H record .adminCapabilityTest true now "record").mapError
    ConfigError.evidence
  let user ← verifiedOperator operator
  match existingAdminRows s validated with
  | [] => do
    let (_, written) ← appendRecords H user [validated] s
    .ok written
  | [row] => do
    require (storedAs H row validated = true) (importConflict "record")
    .ok s
  | _ => .error (importConflict "record")

/-! ### Publishing -/

/-- `_MAX_HISTORY_VERSIONS`. -/
def maxHistoryVersions : ℕ := 20

/-- The inactive versions that are kept beside the active one, the oldest going first. -/
def keepRecent (rows : List AdminConfig) : List AdminConfig :=
  (rows.insertionSort fun a b => a.version ≤ b.version).drop (rows.length + 1 - maxHistoryVersions)

def publishConfig (configValue : Json) (s : ConfigStore) : ConfigStore :=
  { s with
    active := some ⟨configValue, s.currentVersion + 1, none⟩
    history := keepRecent (s.history ++ s.active.toList)
    draft := none }

def ensureCredentialConfigured (H : Host) (config : Json) : Except ConfigError Unit :=
  match config.get "s2s" with
  | none => .ok ()
  | some s2s =>
    if !s2s.isObj then .error (.raised .attributeError) else
      match s2s.field "credential_ref" with
      | .str ref => require (H.getenv ref = true) (.config .credentialMissing [])
      | _ => .error (.config .credentialMissing [])

/-- What a request to publish brings with it, and what it finds outside these rows. -/
structure PublishRequest where
  confirmText : Text
  changeNote : Text
  now : Instant
  provider : Option DimensionsProvider
  /-- The persona reference has no issue. -/
  personaAnchored : Json → Bool

/-- The document may become active. -/
def checkPublishable (H : Host) (key : ConfigKey) (request : PublishRequest) (s : ConfigStore)
    (config : Json) : Except ConfigError Unit := do
  requireTrusted H key config
  if key = .voiceCallConfig then
    require (request.personaAnchored config = true) (.config .personaRefInvalid [])
    ensureAllScopeEvidence H s.evidence request.provider request.now config
  ensureCredentialConfigured H config

def checkConfirmed (request : PublishRequest) : Except ConfigError Unit := do
  require (request.confirmText = "CONFIRM".toList) (.config .confirmTextInvalid [])
  require (nonBlank request.changeNote = true) (.config .schemaInvalid [])

def publish (H : Host) (key : ConfigKey) (request : PublishRequest) (s : ConfigStore) :
    Except ConfigError ConfigStore := do
  checkConfirmed request
  let config ← orRaise (parseConfigValue s.draft) (.config .noDraft [])
  checkPublishable H key request s config
  .ok (publishConfig config s)

def rollback (H : Host) (key : ConfigKey) (version : ℤ) (request : PublishRequest)
    (s : ConfigStore) : Except ConfigError ConfigStore := do
  checkConfirmed request
  let target := s.published.find? fun row => decide (row.version = version)
  let config ← orRaise (parseConfigValue target) (.config .versionNotFound [])
  checkPublishable H key request s config
  .ok (publishConfig config s)

/-- `_DEFAULT_CAPABILITY`. -/
def defaultCapability : Json :=
  .obj ([("verification_status", Json.str "unverified".toList), ("enabled", .bool false),
    ("forced_enabled", .bool false), ("effective_scope", .str "off".toList),
    ("fallback_mode", .str "next_turn".toList), ("provider_profile", .null),
    ("model_version", .null), ("protocol_profile", .null), ("adapter_version", .null),
    ("sdk_version", .null), ("evidence_suite_version", .null), ("evidence_fingerprint", .null),
    ("evidence_ttl_days", .int 30), ("verified_at", .null), ("expires_at", .null),
    ("evidence_report_id", .null), ("last_test_result", .str "not_run".toList)].map
      fun e => (e.1.toList, e.2))

def defaultCapabilities : Json :=
  .obj (VoiceCapability.all.map fun k => (k.key.toList, defaultCapability))

/-- The canonical seed over a template of the other sections. -/
def seedConfig (template : ConfigKey → Json) (key : ConfigKey) (personaRef : Json) : Json :=
  match key with
  | .voiceCallConfig =>
    ((template key).put "capabilities" defaultCapabilities).put "persona_ref" personaRef
  | .voiceCallScript => template key

/-- The published persona; the seed of the scripts has none. -/
def seedReference (key : ConfigKey) (personaRef : Option Json) : Except ConfigError Json :=
  match key with
  | .voiceCallConfig => orRaise personaRef (.config .personaRequired [])
  | .voiceCallScript => .ok .null

/-- The first version, unless one is active. -/
def initializeDefaults (H : Host) (template : ConfigKey → Json) (key : ConfigKey)
    (personaRef : Option Json) (s : ConfigStore) : Except ConfigError ConfigStore :=
  if s.active.isSome then .ok s else do
    let ref ← seedReference key personaRef
    let config := seedConfig template key ref
    let issues := validateVoiceBundle H.sectionIssues key config
    require (issues.isEmpty = true) (.config .schemaInvalid issues)
    .ok (publishConfig config s)

/-! ### Runs of administrators -/

/-- One transaction on the rows of a key. -/
inductive Operation
  | saveDraftSection (sec : String) (baseVersion : ℤ) (draftRevision : Option ℤ)
      (content : Dict Text Json)
  | discardDraftSection (sec : String)
  | discardDraft
  | forceCapabilityTest (admin : AdminUser) (request : ForceRequest)
  | importPhase0EvidenceBundle (bundle : Json) (operator : Option AdminUser) (now : Instant)
  | importPhase0EvidenceSelection (bundle : Json) (reportIds : List Text)
      (operator : Option AdminUser) (now : Instant)
  | appendAdminCapabilityEvidence (record : Json) (operator : Option AdminUser) (now : Instant)
  | publish (request : PublishRequest)
  | rollback (version : ℤ) (request : PublishRequest)
  | initializeDefaults (personaRef : Option Json)

/-- Only the call configuration has capabilities to force or to prove. -/
def onConfig (key : ConfigKey) (tx : ConfigStore → Except ConfigError ConfigStore)
    (s : ConfigStore) : Except ConfigError ConfigStore :=
  match key with
  | .voiceCallConfig => tx s
  | .voiceCallScript => .ok s

def transact (H : Host) (template : ConfigKey → Json) (key : ConfigKey) (op : Operation)
    (s : ConfigStore) : Except ConfigError ConfigStore :=
  match op with
  | .saveDraftSection sec version revision content =>
    saveDraftSection H key sec version revision content s
  | .discardDraftSection sec => discardDraftSection key sec s
  | .discardDraft => discardDraft s
  | .forceCapabilityTest admin request => onConfig key (forceCapabilityTest H admin request) s
  | .importPhase0EvidenceBundle bundle operator t =>
    onConfig key (importPhase0EvidenceBundle H bundle operator t) s
  | .importPhase0EvidenceSelection bundle reportIds operator t =>
    onConfig key (importPhase0EvidenceSelection H bundle reportIds operator t) s
  | .appendAdminCapabilityEvidence record operator t =>
    onConfig key (appendAdminCapabilityEvidence H record operator t) s
  | .publish request => publish H key request s
  | .rollback version request => rollback H key version request s
  | .initializeDefaults personaRef => initializeDefaults H template key personaRef s

/-- A request of an administrator: to read, or a transaction that the database may refuse. -/
inductive Request
  | getBundle (role : AdminRole)
  | transact (op : Operation) (refused : Bool)

/-- The rows, and the bundles that were handed out. -/
structure World where
  store : ConfigStore
  bundles : List Bundle

def World.step (H : Host) (template : ConfigKey → Json) (key : ConfigKey) (w : World) :
    Request → World
  | .getBundle role => { w with bundles := w.bundles ++ (getBundle H role w.store).toList }
  | .transact op refused =>
    match transact H template key op w.store with
    | .ok store => if refused then w else { w with store := store }
    | .error _ => w

/-- All requests on one key, from rows that were never written. -/
def administration (H : Host) (template : ConfigKey → Json) (key : ConfigKey) :
    Machine World Request where
  start w := w = ⟨emptyStore, []⟩
  step w r := some (w.step H template key r)

end CompanionBackend.ConfigDrafts
