import Mathlib.Data.List.Infix
import CompanionBackend.RuntimeSnapshots

/-!
# Loading the configuration of a call

Two keys are read from a cache, from the published rows and, for the gates of an emergency,
from an envelope that the last publication left. Each key is resolved as a whole: the active
row, or its canonical document. Contents are what the decoder makes of them; a store that
cannot be read has none.
-/
namespace CompanionBackend.RuntimeLoading

open Runs ProviderEvents Dictionaries CapabilityRules CapabilityEvidence RuntimeSnapshots

/-! ### What is read -/

inductive RawContent
  | missing | unreadable
  | document (value : Json)

def RawContent.value : RawContent → Option Json
  | .document value => some value
  | _ => none

structure RedisReads where
  config : RawContent
  script : RawContent
  envelope : RawContent

/-- A published row of a voice key. -/
structure VoiceRow where
  configValue : RawContent
  version : ℤ
  isActive : Bool
  updatedAt : Option PyDatetime

structure PersonaRow where
  configValue : Option Text
  version : ℤ
  isActive : Bool

/-- An entry of `admin_operation_logs` about a forced test. -/
structure ForceLogRow where
  adminUserId : Option ℤ
  afterValue : Json
  createdAt : PyDatetime

/-- The rows by falling version, and what two further sessions read. -/
structure MysqlReads where
  configRows : List VoiceRow
  scriptRows : List VoiceRow
  personaRows : List PersonaRow
  /-- The active rows of the master switch. -/
  masterRows : List VoiceRow
  evidence : Option (List VoiceCapabilityEvidence)
  /-- The newest first. -/
  forceLogs : Option (List ForceLogRow)

/-! ### One key -/

/-- `_parse_candidate`: a whole document that passes the schema. -/
def parseCandidate (H : Host) (key : ConfigKey) (raw : RawContent) : Option Json :=
  raw.value.filter fun value =>
    value.isObj && (trustedRuntimeIssues H.sectionIssues key value).isEmpty

/-- The first active row. -/
def activeRow (rows : List VoiceRow) : Option VoiceRow := rows.find? VoiceRow.isActive

/-- A row that can be the configuration: its document and the instant of its publication. -/
def rowCandidate (H : Host) (key : ConfigKey) (row : VoiceRow) : Option (Json × PyDatetime) := do
  let payload ← parseCandidate H key row.configValue
  let published ← row.updatedAt
  if 1 ≤ row.version then some (payload, published) else none

def loaded (H : Host) (key : ConfigKey) (payload : Json) (version : ℤ)
    (publishedAt : Option PyDatetime) (source : RuntimeConfigSource) : LoadedVoiceConfig where
  configKey := key
  version := version
  schemaVersion := payload.field "schema_version"
  contentSha256 := contentSha256 H payload
  publishedAt := publishedAt
  payload := payload
  source := source
  technicalFallback := decide (source = .canonicalFallback)

/-- `_resolve_key`: the row, in the cache's copy where that has the same digest. -/
def resolveKey (H : Host) (key : ConfigKey) (cached : RawContent) (row : Option VoiceRow)
    (canonical : Except SnapshotError Json) : Except SnapshotError LoadedVoiceConfig :=
  match row.bind fun r => (rowCandidate H key r).map fun c => (r.version, c) with
  | some (version, payload, published) =>
    match parseCandidate H key cached with
    | some copy =>
      if contentSha256 H copy = contentSha256 H payload then
        .ok (loaded H key copy version (some published) .redis)
      else .ok (loaded H key payload version (some published) .mysql)
    | none => .ok (loaded H key payload version (some published) .mysql)
  | none => do
    let payload ← canonical
    .ok (loaded H key payload 0 none .canonicalFallback)

/-! ### The envelope -/

structure PublishedEnvelope where
  config : Json
  personaRef : PersonaRef
  gateGlobal : Json

def envelopeFields : List String :=
  ["envelope_schema_version", "config_key", "config_version", "config_schema_version",
    "config_content_sha256", "published_at", "config"]

/-- `datetime.fromisoformat(value.replace("Z", "+00:00"))`, of a text that is not empty. -/
def readsInstant (H : Host) (value : Json) : Option PyDatetime :=
  match value with
  | .str t => if t.isEmpty then none else H.fromisoformat (replaceZ t)
  | _ => none

def isPositive : Json → Bool
  | .int n => decide (1 ≤ n)
  | _ => false

/-- `_parse_published_envelope`. -/
def parsePublishedEnvelope (H : Host) (raw : RawContent) : Option PublishedEnvelope := do
  let value ← raw.value
  let config := value.field "config"
  if exactDict value envelopeFields &&
      Json.pyEq (value.field "envelope_schema_version") (.int 1) &&
      (value.field "config_key").isStr "voice_call_config" &&
      isPositive (value.field "config_version") &&
      (readsInstant H (value.field "published_at")).isSome && config.isObj &&
      isInt (value.field "config_schema_version") 1 &&
      Json.pyEq (config.field "schema_version") (.int 1) &&
      hasText (value.field "config_content_sha256") (contentSha256 H config) &&
      (trustedRuntimeIssues H.sectionIssues .voiceCallConfig config).isEmpty &&
      (config.field "global").isObj then do
    let personaRef ← personaRefShape (config.field "persona_ref")
    some ⟨config, personaRef, config.field "global"⟩
  else none

/-! ### Persona -/

def personaRefValue (ref : PersonaRef) : Json :=
  .obj [("config_key".toList, .str "persona".toList), ("version".toList, .int ref.version),
    ("content_sha256".toList, .str ref.digest)]

/-- `_row_persona_ref`. -/
def rowPersonaRef (H : Host) (row : PersonaRow) : Option PersonaRef :=
  match row.configValue with
  | some text =>
    if 1 ≤ row.version ∧ text ≠ [] then some ⟨row.version, "sha256:".toList ++ H.sha256 text⟩
    else none
  | none => none

/-- `_voice_history_persona_refs`, without repetitions. -/
def voiceHistoryPersonaRefs (rows : List VoiceRow) : List PersonaRef :=
  (rows.filterMap fun row =>
    if 1 ≤ row.version then
      row.configValue.value.bind fun value => personaRefShape (value.field "persona_ref")
    else none).dedup

/-- The reference that a caller brought is one of a row, or of a configuration and older
than all rows. -/
def externalAnchored (H : Host) (mysql : MysqlReads) (ref : PersonaRef) : Bool :=
  mysql.personaRows.any (fun row =>
    decide (row.version = ref.version) && decide (rowPersonaRef H row = some ref)) ||
  let retained := (mysql.personaRows.map PersonaRow.version).filter fun v => decide (1 ≤ v)
  !retained.isEmpty && retained.all (fun v => decide (ref.version < v)) &&
    decide (ref ∈ voiceHistoryPersonaRefs mysql.configRows)

/-- `_resolve_fallback_persona_ref`. -/
def resolveFallbackPersonaRef (H : Host) (mysql : Option MysqlReads) (external : Json)
    (envelope : Option PublishedEnvelope) : Except SnapshotError PersonaRef :=
  let active := mysql.bind fun m => (m.personaRows.filter PersonaRow.isActive).findSome? (rowPersonaRef H)
  let brought := mysql.bind fun m => (personaRefShape external).filter (externalAnchored H m)
  orRaise (active.or (brought.or (envelope.map PublishedEnvelope.personaRef)))
    (refusal "voice_call_config 技术回退需要可核验的已发布 persona_ref/envelope 锚")

/-- `get_default_voice_call_config` and `get_default_voice_call_script`. -/
def defaultPayload (H : Host) (D : RuntimeDefaults) (key : ConfigKey)
    (mysql : Option MysqlReads) (external : Json) (envelope : Option PublishedEnvelope) :
    Except SnapshotError Json :=
  match key with
  | .voiceCallConfig => do
    let ref ← resolveFallbackPersonaRef H mysql external envelope
    .ok (D.canonicalConfig (personaRefValue ref))
  | .voiceCallScript => .ok D.canonicalScript

/-- `_canonical_payload`. -/
def canonicalPayload (H : Host) (D : RuntimeDefaults) (key : ConfigKey)
    (mysql : Option MysqlReads) (external : Json) (envelope : Option PublishedEnvelope) :
    Except SnapshotError Json := do
  let payload ← defaultPayload H D key mysql external envelope
  require (trustedRuntimeIssues H.sectionIssues key payload = [])
    (refusal "规范默认配置或 persona_ref 不满足冻结 schema")
  .ok payload

/-! ### Evidence and forced tests -/

/-- A row of evidence as the loader keeps it. -/
def anchorOfRow (row : VoiceCapabilityEvidence) : EvidenceAnchor where
  evidenceReportId := row.evidenceReportId
  capabilityKey := row.capabilityKey
  verificationResult := row.verificationResult
  dimensions := dimensionsValue fun d => .str (row.dimension d)
  evidenceFingerprint := row.evidenceFingerprint
  testedAt := ⟨row.testedAt, none⟩
  verifiedAt := row.verifiedAt.map fun t => ⟨t, none⟩
  evidenceTtlDaysSnapshot := row.ttlDaysSnapshot
  expiresAt := row.expiresAt.map fun t => ⟨t, none⟩

/-- The first row of every report. -/
def evidenceAnchors (rows : List VoiceCapabilityEvidence) : Dict Text EvidenceAnchor :=
  rows.foldl (fun anchors row =>
    (Dict.setDefault anchors row.evidenceReportId (anchorOfRow row)).1) []

/-- The document of the active configuration, valid or not. -/
def activeDocument (mysql : MysqlReads) : Json :=
  (((activeRow mysql.configRows).bind fun row => row.configValue.value).getD .null)

def activeCapability (mysql : MysqlReads) (k : VoiceCapability) : Json :=
  ((activeDocument mysql).field "capabilities").field k.key

/-- The reports that the active configuration names. -/
def reportIds (mysql : MysqlReads) : List Text :=
  VoiceCapability.all.filterMap fun k =>
    match (activeCapability mysql k).field "evidence_report_id" with
    | .str t => if nonBlank t then some t else none
    | _ => none

/-- The rows of these reports; without a report nothing is read. -/
def readEvidence (mysql : MysqlReads) : Dict Text EvidenceAnchor × Bool :=
  if (reportIds mysql).isEmpty then ([], true) else
    match mysql.evidence with
    | some rows =>
      (evidenceAnchors (rows.filter fun row => decide (row.evidenceReportId ∈ reportIds mysql)), true)
    | none => ([], false)

def forceSourceFields : List String :=
  ["source", "capability_key", "draft_revision", "config_content_sha256", "operator_id",
    "forced_at", "reason_length", "reason_sha256"]

/-- `"sha256:"` and a digest. -/
def isContentDigest : Json → Bool
  | .str t => "sha256:".toList.isPrefixOf t && t.length == 71 && (t.drop 7).all isHexDigit
  | _ => false

def inRange (value : Json) (low high : ℤ) : Bool :=
  match value with
  | .int n => decide (low ≤ n ∧ n ≤ high)
  | _ => false

/-- The source has its form, and is of the operator and about the instant of the log. -/
def sourceWellFormed (H : Host) (log : ForceLogRow) (source : Json) : Bool :=
  exactDict source forceSourceFields && (source.field "source").isStr "admin_force_test" &&
    isPositive (source.field "draft_revision") &&
    (log.adminUserId.any fun id => isInt (source.field "operator_id") id) &&
    inRange (source.field "reason_length") 1 500 && isContentDigest (source.field "reason_sha256") &&
    ((readsInstant H (source.field "forced_at")).any fun forced =>
      forced.utcoffset.isSome && decide (|forced.utc - log.createdAt.utc| ≤ 5000000))

/-- The log and its source are of one successful operation with the active document. -/
def sourceMatchesLog (log : ForceLogRow) (source : Json) (activeHash : Text) : Bool :=
  let projection := log.afterValue
  let note := projection.field "change_note"
  (projection.field "action").isStr "force_enable" &&
    (projection.field "config_key").isStr "voice_call_config" &&
    (projection.field "result").isStr "success" &&
    Json.pyEq (projection.field "draft_revision") (source.field "draft_revision") &&
    hasText (projection.field "content_sha256") activeHash &&
    hasText (source.field "config_content_sha256") activeHash && note.isObj &&
    isTrue (note.field "present") &&
    Json.pyEq (note.field "length") (source.field "reason_length") &&
    Json.pyEq (note.field "sha256") (source.field "reason_sha256")

/-- The log shows this capability as it is configured. -/
def projectionMatches (log : ForceLogRow) (k : VoiceCapability) (capability : Json) : Bool :=
  let shown (field : String) := log.afterValue.field field
  (shown "verification_status").isObj &&
    Json.pyEq ((shown "verification_status").field k.key) (capability.field "verification_status") &&
    (shown "forced_enabled").isObj && isTrue ((shown "forced_enabled").field k.key) &&
    (shown "effective_scope").isObj && ((shown "effective_scope").field k.key).isStr "test"

/-- `_parse_force_source_log`. -/
def parseForceSourceLog (H : Host) (activeConfig : Json) (activeHash : Text) (log : ForceLogRow) :
    Except SnapshotError (Option (VoiceCapability × Json)) :=
  let source := log.afterValue.field "force_source"
  match capabilityOf (source.field "capability_key") with
  | none => .ok none
  | some k => do
    let capability := (activeConfig.field "capabilities").field k.key
    if !(sourceWellFormed H log source && sourceMatchesLog log source activeHash &&
        capability.isObj) then .ok none else do
    let unproven ← (inSet (capability.field "verification_status") ["unverified", "stale"]).mapError
      SnapshotError.raised
    if unproven && forcedByConfig capability && projectionMatches log k capability then
      .ok (some (k, source))
    else .ok none

/-- `after_value LIKE '%hash%'`. -/
def mentions (H : Host) (activeHash : Text) (log : ForceLogRow) : Bool :=
  decide (activeHash <:+: H.canonicalJson log.afterValue)

/-- The newest logs that mention the active document. -/
def recentForceLogs (H : Host) (activeHash : Text) (logs : List ForceLogRow) : List ForceLogRow :=
  (logs.filter (mentions H activeHash)).take 128

def collectSources (H : Host) (activeConfig : Json) (activeHash : Text) :
    List ForceLogRow → Except SnapshotError (List (VoiceCapability × Json))
  | [] => .ok []
  | log :: rest => do
    let first ← parseForceSourceLog H activeConfig activeHash log
    let more ← collectSources H activeConfig activeHash rest
    .ok (first.toList ++ more)

def forcedKeys (mysql : MysqlReads) : List VoiceCapability :=
  VoiceCapability.all.filter fun k => isTrue ((activeCapability mysql k).field "forced_enabled")

/-- The newest source of each forced capability. -/
def readForceSources (H : Host) (mysql : MysqlReads) :
    Except SnapshotError (Dict Text Json × Bool) :=
  if (forcedKeys mysql).isEmpty then .ok ([], true) else
    match mysql.forceLogs with
    | none => .ok ([], false)
    | some logs => do
      let config := activeDocument mysql
      let hash := contentSha256 H config
      let sources ← collectSources H config hash (recentForceLogs H hash logs)
      .ok ((sources.filter fun e => decide (e.1 ∈ forcedKeys mysql)).foldl
        (fun found e => (Dict.setDefault found e.1.key.toList e.2).1) [], true)

/-- A database that cannot be read vouches for no source. -/
def forceSourcesOf (H : Host) (mysql : Option MysqlReads) :
    Except SnapshotError (Dict Text Json × Bool) :=
  match mysql with
  | some m => readForceSources H m
  | none => .ok ([], false)

/-! ### The bundle -/

/-- `parse_master_switch_rows`. -/
def parseMasterSwitchRows (rows : List VoiceRow) : Option (Bool × ℤ) :=
  match rows with
  | [row] =>
    match row.configValue.value with
    | some value =>
      if row.isActive && decide (1 ≤ row.version) && row.updatedAt.isSome &&
          exactDict value ["enabled"] && (value.field "enabled").isBool then
        some (isTrue (value.field "enabled"), row.version)
      else none
    | none => none
  | _ => none

/-- `load_bundle`. -/
def loadBundle (H : Host) (D : RuntimeDefaults) (redis : RedisReads) (mysql : Option MysqlReads)
    (fallbackPersonaRef : Json) (userId : Option ℤ) : Except SnapshotError VoiceRuntimeBundle := do
  let envelope := parsePublishedEnvelope H redis.envelope
  let sources ← forceSourcesOf H mysql
  let canonical (key : ConfigKey) := canonicalPayload H D key mysql fallbackPersonaRef envelope
  let config ← resolveKey H .voiceCallConfig redis.config
    (mysql.bind fun m => activeRow m.configRows) (canonical .voiceCallConfig)
  let script ← resolveKey H .voiceCallScript redis.script
    (mysql.bind fun m => activeRow m.scriptRows) (canonical .voiceCallScript)
  let master := mysql.bind fun m => parseMasterSwitchRows m.masterRows
  let evidence := (mysql.map readEvidence).getD ([], false)
  let fallback := if config.technicalFallback then envelope else none
  .ok
    { config := config
      script := script
      personaAnchors := ((mysql.map fun m => m.personaRows.filterMap (rowPersonaRef H)).getD []).map
        personaRefValue
      voicePersonaAnchors := ((mysql.map fun m => voiceHistoryPersonaRefs m.configRows).getD []).map
        personaRefValue
      mysqlAnchorsAvailable := mysql.isSome
      evidenceAnchors := evidence.1
      evidenceAnchorsAvailable := evidence.2
      forceSources := sources.1
      forceSourcesAvailable := sources.2
      fallbackPersonaAnchor := (fallback.map fun e => personaRefValue e.personaRef).getD .null
      fallbackGateGlobal := fallback.map PublishedEnvelope.gateGlobal
      fallbackGateUserId := userId
      fallbackGateBlocked :=
        fallback.any fun e => publishedGateBlocksCall e.gateGlobal userId
      masterSwitchEnabled := master.map Prod.fst
      masterSwitchVersion := master.map Prod.snd }

end CompanionBackend.RuntimeLoading
