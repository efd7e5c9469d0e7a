import CompanionBackend.CapabilityEvidence

/-!
# The snapshot of a call's configuration

When a call begins, the loaded configuration is checked once more and frozen. Every capability
passes the resolver, which compares it with the current dimensions and the clock, then its
row of evidence, and at last the scope of the caller. The canonical documents and the values
that are merged into old ones are parameters.
-/
namespace CompanionBackend.RuntimeSnapshots

open Runs ProviderEvents Dictionaries CapabilityRules CapabilityEvidence

/-- Constants of the code: the canonical documents, without a persona where they need one, and
what is merged into documents of an older schema. -/
structure RuntimeDefaults where
  canonicalConfig : Json → Json
  canonicalScript : Json
  connection : List (String × Json)
  interaction : List (String × Json)
  summaryModel : Json
  summaryPrompt : Json
  memory : List (String × Json)

inductive SnapshotError
  /-- `RuntimeConfigResolutionError`. -/
  | resolution (message : String)
  | raised (error : PyError)
  deriving DecidableEq

def refusal (message : String) : SnapshotError := .resolution message

inductive RuntimeConfigSource
  | redis | mysql | canonicalFallback
  deriving DecidableEq, Repr

structure LoadedVoiceConfig where
  configKey : ConfigKey
  version : ℤ
  schemaVersion : Json
  contentSha256 : Text
  publishedAt : Option PyDatetime
  payload : Json
  source : RuntimeConfigSource
  technicalFallback : Bool

/-- An integer, and this one. -/
def isInt (value : Json) (n : ℤ) : Bool :=
  match value with
  | .int m => decide (m = n)
  | _ => false

/-- `content_sha256`. -/
def contentSha256 (H : Host) (value : Json) : Text :=
  "sha256:".toList ++ H.sha256 (H.canonicalJson value)

/-- The canonical document of a key, for the persona that the payload names. -/
def expectedPayload (D : RuntimeDefaults) (key : ConfigKey) (payload : Json) : Option Json :=
  match key with
  | .voiceCallConfig =>
    let ref := payload.field "persona_ref"
    if ref.isObj then some (D.canonicalConfig ref) else none
  | .voiceCallScript => some D.canonicalScript

def checkCanonical (D : RuntimeDefaults) (key : ConfigKey) (loaded : LoadedVoiceConfig) :
    Except SnapshotError Unit :=
  if loaded.source = .canonicalFallback then do
    require (loaded.version = 0 ∧ loaded.publishedAt = none) (refusal "运行时快照拒绝伪造的回退发布元数据")
    require ((expectedPayload D key loaded.payload).any (Json.pyEq loaded.payload) = true)
      (refusal "运行时快照拒绝非规范 canonical fallback")
  else require (1 ≤ loaded.version) (refusal "运行时快照拒绝无真实发布版本的非回退元数据")

/-- `_validate_loaded_metadata`. -/
def validateLoadedMetadata (H : Host) (D : RuntimeDefaults) (key : ConfigKey)
    (loaded : LoadedVoiceConfig) : Except SnapshotError Json := do
  require (loaded.payload.isObj = true) (refusal "运行时快照拒绝非对象 payload")
  require (loaded.configKey = key) (refusal "运行时快照拒绝 config_key 元数据不一致")
  require (0 ≤ loaded.version) (refusal "运行时快照拒绝非法 version 元数据")
  require (isInt loaded.schemaVersion 1 = true ∧
    Json.pyEq (loaded.payload.field "schema_version") loaded.schemaVersion = true)
    (refusal "运行时快照拒绝 schema_version 元数据不一致")
  require (loaded.contentSha256 = contentSha256 H loaded.payload)
    (refusal "运行时快照拒绝 content_sha256 元数据不一致")
  require (loaded.technicalFallback = true ↔ loaded.source = .canonicalFallback)
    (refusal "运行时快照拒绝 source/fallback 元数据矛盾")
  checkCanonical D key loaded
  require (loaded.version = 0 ↔ loaded.publishedAt = none)
    (refusal "运行时快照拒绝缺失或非法 published_at")
  .ok loaded.payload

/-! ### Persona -/

/-- A reference in its normal form. -/
structure PersonaRef where
  version : ℤ
  digest : Text
  deriving DecidableEq, Repr

/-- `digest.removeprefix("sha256:")`. -/
def removeDigestPrefix (digest : Text) : Text :=
  if "sha256:".toList.isPrefixOf digest then digest.drop 7 else digest

/-- `_persona_ref_shape`. -/
def personaRefShape (value : Json) : Option PersonaRef :=
  if exactDict value ["config_key", "version", "content_sha256"] &&
      (value.field "config_key").isStr "persona" then
    match value.field "version", value.field "content_sha256" with
    | .int version, .str digest =>
      if 1 ≤ version ∧ isSha256 (removeDigestPrefix digest) = true then
        some ⟨version, "sha256:".toList ++ removeDigestPrefix digest⟩
      else none
    | _, _ => none
  else none

/-- `_persona_ref_is_anchored`: a row of the persona, or one that a version of the call
configuration named and whose row is older than all that are kept. -/
def personaRefIsAnchored (ref : PersonaRef) (personaAnchors voicePersonaAnchors : List Json) :
    Bool :=
  let anchors := personaAnchors.filterMap personaRefShape
  decide (ref ∈ anchors) ||
    (!anchors.isEmpty && anchors.all (fun a => decide (ref.version < a.version)) &&
      decide (ref ∈ voicePersonaAnchors.filterMap personaRefShape))

/-! ### One capability -/

/-- `_disabled_capability_projection`, and the resolver's own. -/
def disabledProjection (capability : Json) (status : String) : Json :=
  capability.update [("verification_status", .str status.toList), ("enabled", .bool false),
    ("forced_enabled", .bool false), ("effective_scope", .str "off".toList)]

def nonVerifiedStatuses : List String := ["unverified", "failed", "stale"]

/-- The saved fingerprint is that of the current and of the projected dimensions. -/
def fingerprintsAgree (H : Host) (capability : Json) (current projected : Text) : Bool :=
  match capability.field "evidence_fingerprint" with
  | .str saved => decide (H.casefold saved = current) && decide (H.casefold saved = projected)
  | _ => false

/-- The projected expiry is its own lifetime after the verification, and ahead. -/
def unexpired (H : Host) (capability : Json) (ttl : ℤ) (now : PyDatetime) : Bool :=
  match parseDatetime H (capability.field "verified_at"),
      parseDatetime H (capability.field "expires_at") with
  | some verified, some expires =>
    decide ((evidenceExpiresAt verified ttl).utc = expires.utc) && decide (now.utc < expires.utc)
  | _, _ => false

/-- Nothing makes the projection stale. -/
def fresh (H : Host) (capability current : Json) (now : PyDatetime) : Bool :=
  match computeEvidenceFingerprint H current, computeEvidenceFingerprint H capability,
      validateEvidenceTtlDays (capability.field "evidence_ttl_days") with
  | .ok current, .ok projected, .ok ttl =>
    fingerprintsAgree H capability current projected &&
      isNonBlankText (capability.field "evidence_report_id") && unexpired H capability ttl now &&
      (capability.field "enabled").isBool && (capability.field "forced_enabled").isBool &&
      (capability.field "effective_scope").strIn ["off", "test", "all"]
  | _, _, _ => false

/-- `resolve_runtime_capability`. -/
def resolveRuntimeCapability (H : Host) (capability current : Json) (now : PyDatetime) :
    Option Json :=
  match capability.field "verification_status" with
  | .str status =>
    if status = "verified".toList then
      if fresh H capability current now then
        some (if isTrue (capability.field "enabled") then capability
          else capability.update [("enabled", .bool false), ("effective_scope", .str "off".toList)])
      else some (disabledProjection capability "stale")
    else (nonVerifiedStatuses.find? fun s => decide (s.toList = status)).map
      (disabledProjection capability)
  | _ => none

/-- `_EvidenceAnchor`. -/
structure EvidenceAnchor where
  evidenceReportId : Text
  capabilityKey : Text
  verificationResult : Text
  dimensions : Json
  evidenceFingerprint : Text
  testedAt : PyDatetime
  verifiedAt : Option PyDatetime
  evidenceTtlDaysSnapshot : ℤ
  expiresAt : Option PyDatetime

/-- The instants of the projection are those of the anchor, and in order. -/
def anchorTimesMatch (H : Host) (capability : Json) (anchor : EvidenceAnchor) (ttl : ℤ)
    (now : PyDatetime) : Bool :=
  match anchor.verifiedAt, anchor.expiresAt, parseDatetime H (capability.field "verified_at"),
      parseDatetime H (capability.field "expires_at") with
  | some verified, some expires, some projectedVerified, some projectedExpires =>
    decide (projectedVerified.utc = verified.utc) && decide (projectedExpires.utc = expires.utc) &&
      decide (anchor.testedAt.utc ≤ verified.utc) && decide (verified.utc ≤ now.utc) &&
      decide ((evidenceExpiresAt verified ttl).utc = expires.utc)
  | _, _, _, _ => false

/-- The anchor's fingerprint is that of its dimensions, and the projection's. -/
def anchorFingerprintMatches (H : Host) (capability : Json) (anchor : EvidenceAnchor) : Bool :=
  match computeEvidenceFingerprint H anchor.dimensions with
  | .ok expected => decide (anchor.evidenceFingerprint = expected) &&
      hasText (capability.field "evidence_fingerprint") expected
  | .error _ => false

/-- The lifetime is the anchor's, and one that a lifetime may be. -/
def anchorTtlMatches (capability : Json) (anchor : EvidenceAnchor) : Option ℤ :=
  match validateEvidenceTtlDays (capability.field "evidence_ttl_days") with
  | .ok ttl => if ttl = anchor.evidenceTtlDaysSnapshot then some ttl else none
  | .error _ => none

/-- `_verified_anchor_matches`. -/
def verifiedAnchorMatches (H : Host) (k : VoiceCapability) (capability : Json)
    (anchor : Option EvidenceAnchor) (now : PyDatetime) : Bool :=
  anchor.any fun a =>
    (capability.field "last_test_result").isStr "passed" &&
      hasText (capability.field "evidence_report_id") a.evidenceReportId &&
      decide (a.capabilityKey = k.key.toList) &&
      decide (a.verificationResult = EvidenceResult.passed.name.toList) &&
      Json.pyEq (dimensionsValue fun d => capability.field d.field) a.dimensions &&
      anchorFingerprintMatches H capability a &&
      (anchorTtlMatches capability a).any fun ttl => anchorTimesMatch H capability a ttl now

/-- `type(user_id) is int and user_id in user_ids`. -/
def listed (userIds : Json) (userId : Option ℤ) : Bool :=
  match userIds, userId with
  | .arr items, some u => items.any fun item => Json.pyEq (.int u) item
  | _, _ => false

def isTestUser (testUserIds : Json) (userId : Option ℤ) : Bool := listed testUserIds userId

/-- The configuration forces this capability for test users. -/
def forcedByConfig (original : Json) : Bool :=
  forcedToTest (original.field "enabled") (original.field "forced_enabled")
    (original.field "effective_scope")

/-- `_scope_capability_for_call`. -/
def scopeCapabilityForCall (original resolved : Json) (testUser allowForcedTest : Bool) :
    Option Json :=
  match resolved.field "verification_status" with
  | .str status =>
    let unproven := decide (status = "unverified".toList ∨ status = "stale".toList)
    if allowForcedTest && unproven && forcedByConfig original && testUser then
      some (resolved.update [("enabled", .bool true), ("forced_enabled", .bool true),
        ("effective_scope", .str "test".toList)])
    else match nonVerifiedStatuses.find? fun s => decide (s.toList = status) with
      | some s => some (disabledProjection resolved s)
      | none =>
        if (resolved.field "effective_scope").isStr "test" && !testUser then
          some (resolved.update [("verification_status", .str status), ("enabled", .bool false),
            ("forced_enabled", .bool false), ("effective_scope", .str "off".toList)])
        else some resolved
  | _ => none

/-! ### The bundle -/

/-- `_published_gate_blocks_call`. -/
def publishedGateBlocksCall (global : Json) (userId : Option ℤ) : Bool :=
  isTrue (global.field "maintenance_mode") || isTrue (global.field "soft_stop") ||
    ((global.field "rollout").field "mode").isStr "off" ||
    ((global.field "rollout").field "mode").isStr "allowlist" &&
      !listed ((global.field "rollout").field "user_ids") userId

structure VoiceRuntimeBundle where
  config : LoadedVoiceConfig
  script : LoadedVoiceConfig
  personaAnchors : List Json
  voicePersonaAnchors : List Json
  mysqlAnchorsAvailable : Bool
  evidenceAnchors : Dict Text EvidenceAnchor
  evidenceAnchorsAvailable : Bool
  forceSources : Dict Text Json
  forceSourcesAvailable : Bool
  fallbackPersonaAnchor : Json
  fallbackGateGlobal : Option Json
  fallbackGateUserId : Option ℤ
  fallbackGateBlocked : Bool
  masterSwitchEnabled : Option Bool
  masterSwitchVersion : Option ℤ

namespace VoiceRuntimeBundle

/-- The anchor that a capability names. -/
def anchorOf (b : VoiceRuntimeBundle) (capability : Json) : Option EvidenceAnchor :=
  match capability.field "evidence_report_id" with
  | .str reportId => Dict.get b.evidenceAnchors reportId
  | _ => none

/-- `evidence_anchor_valid` of a capability that is stored as verified. -/
def anchorValid (H : Host) (b : VoiceRuntimeBundle) (k : VoiceCapability) (capability : Json)
    (now : PyDatetime) : Bool :=
  b.evidenceAnchorsAvailable && verifiedAnchorMatches H k capability (b.anchorOf capability) now

/-- The audited source of a forced capability. -/
def forceSource (b : VoiceRuntimeBundle) (k : VoiceCapability) : Option Json :=
  if b.forceSourcesAvailable then
    (Dict.get b.forceSources k.key.toList).filter fun source => source.isObj
  else none

/-- Without the master switch no call begins, and else the gates of what was published. -/
def shouldBlockNewCall (b : VoiceRuntimeBundle) (userId : Option ℤ) : Bool :=
  if b.masterSwitchEnabled ≠ some true then true
  else if b.config.technicalFallback then
    match b.fallbackGateGlobal with
    | none => false
    | some global =>
      if userId = b.fallbackGateUserId then b.fallbackGateBlocked
      else publishedGateBlocksCall global userId
  else publishedGateBlocksCall (b.config.payload.field "global") userId

end VoiceRuntimeBundle

/-- `_missing_current_dimensions`. -/
def missingCurrentDimensions : Json := dimensionsValue fun _ => .null

/-- The dimensions a capability is compared with. -/
def currentDimensions (current : Option Json) (k : VoiceCapability) : Except SnapshotError Json :=
  let dimensions := match current with
    | some provided => (provided.get k.key).getD missingCurrentDimensions
    | none => missingCurrentDimensions
  if exactDict dimensions (EvidenceDimension.all.map EvidenceDimension.field) then .ok dimensions
  else .error (refusal "当前能力维度必须精确包含六个冻结字段")

/-- What the snapshot holds of one capability: its value, and the source that forced it. -/
structure RuntimeCapability where
  value : Json
  forceSource : Option Json

/-- One turn of the loop over the six capabilities. -/
def runtimeCapability (H : Host) (b : VoiceRuntimeBundle) (current : Option Json)
    (now : PyDatetime) (testUser : Bool) (k : VoiceCapability) (capability : Json) :
    Except SnapshotError RuntimeCapability := do
  let dimensions ← currentDimensions current k
  let resolved ← orRaise (resolveRuntimeCapability H capability dimensions now)
    (refusal "运行时快照拒绝非法能力状态或当前维度")
  let anchorValid := !(capability.field "verification_status").isStr "verified" ||
    b.anchorValid H k capability now
  let resolved := if anchorValid then resolved else disabledProjection resolved "stale"
  let source := b.forceSource k
  let projected ← orRaise
    (scopeCapabilityForCall capability resolved testUser (anchorValid && source.isSome))
    (refusal "运行时快照拒绝缺失能力状态")
  .ok ⟨projected, source.filter fun _ => forcedByConfig projected⟩

def runtimeCapabilities (H : Host) (b : VoiceRuntimeBundle) (current : Option Json)
    (now : PyDatetime) (testUser : Bool) (capabilities : Json) :
    List VoiceCapability → Except SnapshotError (List (VoiceCapability × RuntimeCapability))
  | [] => .ok []
  | k :: rest => do
    let first ← runtimeCapability H b current now testUser k (capabilities.field k.key)
    let more ← runtimeCapabilities H b current now testUser capabilities rest
    .ok ((k, first) :: more)

/-- `{**defaults, **value}`. -/
def mergeDefaults (defaults : List (String × Json)) (value : Json) : Except SnapshotError Json :=
  match value with
  | .obj fields => .ok (.obj (fields.foldl (fun merged e => Dict.set merged e.1 e.2)
      (defaults.map fun e => (e.1.toList, e.2))))
  | _ => .error (.raised .typeError)

/-- `document.setdefault(key, value)`. -/
def setDefault (document : Json) (key : String) (value : Json) : Json :=
  if document.has key then document else document.put key value

/-- Old documents get what was added to the schema since. -/
def completeConfig (D : RuntimeDefaults) (config : Json) : Except SnapshotError Json := do
  let config := setDefault config "summary" (.obj [("model".toList, D.summaryModel)])
  let connection ← mergeDefaults D.connection (config.field "concurrency")
  let config := config.put "concurrency" connection
  let interaction ← mergeDefaults D.interaction ((config.get "interaction").getD (.obj []))
  .ok (config.put "interaction" interaction)

def completeScript (D : RuntimeDefaults) (script : Json) : Except SnapshotError Json := do
  let script := setDefault script "summary" (.obj [("prompt_template".toList, D.summaryPrompt)])
  let memory ← mergeDefaults D.memory (script.field "memory")
  .ok (script.put "memory" memory)

/-- The persona is one of a published row, or the one the fallback was made for. -/
def personaAnchored (b : VoiceRuntimeBundle) (config : Json) : Bool :=
  match personaRefShape (config.field "persona_ref") with
  | none => false
  | some ref =>
    b.mysqlAnchorsAvailable && personaRefIsAnchored ref b.personaAnchors b.voicePersonaAnchors ||
      b.config.technicalFallback && decide (personaRefShape b.fallbackPersonaAnchor = some ref)

/-- No dimensions of an unknown capability. -/
def checkCurrent (current : Option Json) : Except SnapshotError Unit :=
  match current with
  | none => .ok ()
  | some (.obj entries) =>
    require (entries.all (fun e => VoiceCapability.all.any fun k => decide (k.key.toList = e.1)) = true)
      (refusal "当前能力维度包含未知能力位")
  | some _ => .error (refusal "当前能力维度必须是对象")

/-- `voice_call.config_snapshot` and `voice_call.capability_snapshot`. -/
structure VoiceRuntimeSnapshot where
  masterSwitchEnabled : Option Bool
  masterSwitchVersion : Option ℤ
  config : LoadedVoiceConfig
  script : LoadedVoiceConfig
  resolvedConfig : Json
  resolvedScript : Json
  capabilitySnapshot : Json

/-- The capabilities with the sources that forced them. -/
def withForceSources (runtime : List (VoiceCapability × RuntimeCapability)) : Json :=
  .obj (runtime.map fun e => (e.1.key.toList, match e.2.forceSource with
    | some source => e.2.value.put "force_source" source
    | none => e.2.value))

/-- `build_snapshot`. -/
def buildSnapshot (H : Host) (D : RuntimeDefaults) (b : VoiceRuntimeBundle)
    (current : Option Json) (now : PyDatetime) (userId : Option ℤ) :
    Except SnapshotError VoiceRuntimeSnapshot := do
  let config ← validateLoadedMetadata H D .voiceCallConfig b.config
  let script ← validateLoadedMetadata H D .voiceCallScript b.script
  require (trustedRuntimeIssues H.sectionIssues .voiceCallConfig config = [] ∧
    trustedRuntimeIssues H.sectionIssues .voiceCallScript script = [])
    (refusal "运行时快照拒绝不完整或含禁用字段的配置")
  let config ← completeConfig D config
  let script ← completeScript D script
  require (personaAnchored b config = true)
    (refusal "运行时快照拒绝无法由可信发布锚核验的 persona_ref")
  checkCurrent current
  let testUser := isTestUser ((config.field "global").field "test_user_ids") userId
  let runtime ← runtimeCapabilities H b current now testUser (config.field "capabilities")
    VoiceCapability.all
  let capabilities : Json := .obj (runtime.map fun e => (e.1.key.toList, e.2.value))
  let resolved := config.put "capabilities" capabilities
  require (trustedRuntimeIssues H.sectionIssues .voiceCallConfig resolved = [])
    (refusal "运行时快照拒绝非法能力投影")
  .ok
    { masterSwitchEnabled := b.masterSwitchEnabled
      masterSwitchVersion := b.masterSwitchVersion
      config := b.config
      script := b.script
      resolvedConfig := resolved
      resolvedScript := script
      capabilitySnapshot := withForceSources runtime }

end CompanionBackend.RuntimeSnapshots
