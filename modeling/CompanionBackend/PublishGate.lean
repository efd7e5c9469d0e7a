import CompanionBackend.CapabilityEvidence

/-!
# The evidence gate before a publication

What runs for everyone is checked again against its row of evidence and the current
dimensions when a configuration is published or rolled back. Every problem found is
reported, with its field.
-/
namespace CompanionBackend.PublishGate

open Runs ProviderEvents Dictionaries CapabilityRules CapabilityEvidence

/-- Reads the current dimensions of a capability; it may fail. -/
abbrev DimensionsProvider := VoiceCapability → Json → Option Json

/-- What can be wrong with a capability that runs for everyone. -/
inductive EvidenceProblem
  | reportMissing | rowMissing | sourceUnknown | hashMalformed | capabilityMismatch | notPassed
  | rowDimensions | rowFingerprint
  | dimension (d : EvidenceDimension)
  | fingerprint | reportMismatch | resultMismatch | rowTtl | ttl
  | verifiedAt | testedLate | verifiedLate | expiresAt | expiresNotTtl | expired
  | s2sDimension (d : EvidenceDimension)
  | currentUnconfigured | currentUnreadable
  | currentDimension (d : EvidenceDimension)
  | currentFingerprint
  deriving DecidableEq, Repr

namespace EvidenceProblem

def code : EvidenceProblem → IssueCode
  | currentUnconfigured | currentUnreadable => .currentDimensionsUnavailable
  | _ => .allEvidenceInvalid

/-- The field below the capability's own path. -/
def fieldName : EvidenceProblem → String
  | reportMissing | rowMissing | sourceUnknown | hashMalformed | capabilityMismatch
  | reportMismatch => "evidence_report_id"
  | notPassed | resultMismatch => "last_test_result"
  | rowDimensions | rowFingerprint | fingerprint | currentFingerprint => "evidence_fingerprint"
  | dimension d | s2sDimension d | currentDimension d => d.field
  | rowTtl | ttl => "evidence_ttl_days"
  | verifiedAt | testedLate | verifiedLate => "verified_at"
  | expiresAt | expiresNotTtl | expired => "expires_at"
  | currentUnconfigured | currentUnreadable => "effective_scope"

def message : EvidenceProblem → String
  | reportMissing => "all 范围必须引用非空证据报告"
  | rowMissing => "引用的能力证据不存在"
  | sourceUnknown => "证据来源类型不在冻结枚举中"
  | hashMalformed => "证据 report_sha256 必须是 64 位小写十六进制"
  | capabilityMismatch => "证据报告与能力位不匹配"
  | notPassed => "只有 passed 证据可发布到 all"
  | rowDimensions => "证据行六维不完整，无法重算 fingerprint"
  | rowFingerprint => "证据行 fingerprint 与六维重算结果不一致"
  | dimension _ => "配置投影与证据行不一致"
  | fingerprint => "配置 fingerprint 与证据行不一致"
  | reportMismatch => "配置报告引用与证据行不一致"
  | resultMismatch => "配置测试结果与证据行不一致"
  | rowTtl => "证据行 TTL 不在冻结区间"
  | ttl => "配置 TTL 与证据行快照不一致"
  | verifiedAt => "配置 verified_at 与有效证据行不一致"
  | testedLate => "证据时间必须满足 tested_at <= verified_at"
  | verifiedLate => "verified_at 不得晚于当前时间"
  | expiresAt => "配置 expires_at 与有效证据行不一致"
  | expiresNotTtl => "expires_at 必须精确等于 verified_at 加证据 TTL"
  | expired => "能力证据已过期或过期时间无效"
  | s2sDimension _ => "能力证据维度与当前 S2S 配置不一致"
  | currentUnconfigured => "当前六维可信来源未配置，禁止发布到 all"
  | currentUnreadable => "当前六维可信读取失败，禁止发布到 all"
  | currentDimension _ => "当前可信六维与证据行不一致"
  | currentFingerprint => "当前可信六维 fingerprint 与证据行不一致"

def allowed : EvidenceProblem → Json
  | sourceUnknown => .arr [.str "admin_capability_test".toList, .str "phase0_import".toList]
  | _ => .null

def issue (k : VoiceCapability) (p : EvidenceProblem) : Issue :=
  ⟨p.code, "capabilities." ++ k.key ++ "." ++ p.fieldName, p.message, p.allowed⟩

end EvidenceProblem

/-- The problem, unless the condition holds. -/
def problemUnless (c : Prop) [Decidable c] (p : EvidenceProblem) : List EvidenceProblem :=
  if c then [] else [p]

@[simp] theorem problemUnless_eq_nil {c : Prop} [Decidable c] {p : EvidenceProblem} :
    problemUnless c p = [] ↔ c := by
  unfold problemUnless
  split_ifs with h <;> simp [h]

/-- `getattr(row, dimension)`, as values. -/
def rowDimensions (row : VoiceCapabilityEvidence) : Json :=
  dimensionsValue fun d => .str (row.dimension d)

def dimensionNames : List String := EvidenceDimension.all.map EvidenceDimension.field

/-- The current dimensions, or why they cannot be used. -/
def currentDimensionsForPublish (provider : Option DimensionsProvider) (k : VoiceCapability)
    (s2s : Json) : Except EvidenceProblem (EvidenceDimension → Text) := do
  let read ← orRaise provider .currentUnconfigured
  let provided ← orRaise (read k s2s) .currentUnreadable
  require (exactDict provided dimensionNames = true) .currentUnreadable
  (evidenceDimensions provided).mapError fun _ => .currentUnreadable

def currentProblems (H : Host) (provider : Option DimensionsProvider) (k : VoiceCapability)
    (s2s : Json) (row : VoiceCapabilityEvidence) : List EvidenceProblem :=
  match currentDimensionsForPublish provider k s2s with
  | .error p => [p]
  | .ok current =>
    (EvidenceDimension.all.flatMap fun d =>
      problemUnless (current d = row.dimension d) (.currentDimension d)) ++
    problemUnless (H.sha256 (fingerprintText current) = row.evidenceFingerprint) .currentFingerprint

def fingerprintProblems (H : Host) (row : VoiceCapabilityEvidence) : List EvidenceProblem :=
  match computeEvidenceFingerprint H (rowDimensions row) with
  | .error _ => [.rowDimensions, .rowFingerprint]
  | .ok recomputed => problemUnless (row.evidenceFingerprint = recomputed) .rowFingerprint

def ttlProblems (capability : Json) (row : VoiceCapabilityEvidence) : List EvidenceProblem :=
  let configured := capability.field "evidence_ttl_days"
  match validateEvidenceTtlDays (.int row.ttlDaysSnapshot) with
  | .error _ => .rowTtl :: problemUnless (isNull configured = true) .ttl
  | .ok n => problemUnless (Json.pyEq configured (.int n) = true) .ttl

/-- The instants: those of the row, and those the document names. -/
def timeProblems (H : Host) (now : Instant) (capability : Json) (row : VoiceCapabilityEvidence) :
    List EvidenceProblem :=
  let named (field : String) := (parseDatetime H (capability.field field)).map PyDatetime.utc
  problemUnless (row.verifiedAt.isSome ∧ named "verified_at" = row.verifiedAt) .verifiedAt ++
  problemUnless (∀ t ∈ row.verifiedAt, row.testedAt ≤ t) .testedLate ++
  problemUnless (∀ t ∈ row.verifiedAt, t ≤ now) .verifiedLate ++
  problemUnless (row.expiresAt.isSome ∧ named "expires_at" = row.expiresAt) .expiresAt ++
  problemUnless (∀ t ∈ row.verifiedAt, (7 ≤ row.ttlDaysSnapshot ∧ row.ttlDaysSnapshot ≤ 90) →
    row.expiresAt = some (t + days row.ttlDaysSnapshot)) .expiresNotTtl ++
  problemUnless (∃ t ∈ row.expiresAt, now < t) .expired

def rowProblems (H : Host) (provider : Option DimensionsProvider) (now : Instant) (s2s : Json)
    (k : VoiceCapability) (capability : Json) (row : VoiceCapabilityEvidence) :
    List EvidenceProblem :=
  problemUnless (row.sourceType = SourceType.phase0Import.name.toList ∨
    row.sourceType = SourceType.adminCapabilityTest.name.toList) .sourceUnknown ++
  problemUnless (isSha256 row.reportSha256 = true) .hashMalformed ++
  problemUnless (row.capabilityKey = k.key.toList) .capabilityMismatch ++
  problemUnless (row.verificationResult = EvidenceResult.passed.name.toList) .notPassed ++
  fingerprintProblems H row ++
  (EvidenceDimension.all.flatMap fun d =>
    problemUnless (hasText (capability.field d.field) (row.dimension d) = true) (.dimension d)) ++
  problemUnless (hasText (capability.field "evidence_fingerprint") row.evidenceFingerprint = true)
    .fingerprint ++
  problemUnless (hasText (capability.field "evidence_report_id") row.evidenceReportId = true)
    .reportMismatch ++
  problemUnless (hasText (capability.field "last_test_result") row.verificationResult = true)
    .resultMismatch ++
  ttlProblems capability row ++
  timeProblems H now capability row ++
  (([.modelVersion, .protocolProfile, .adapterVersion] : List EvidenceDimension).flatMap fun d =>
    problemUnless (hasText (s2s.field d.field) (row.dimension d) = true) (.s2sDimension d)) ++
  currentProblems H provider k s2s row

/-- The row with this report id. -/
def findEvidence (rows : List VoiceCapabilityEvidence) (reportId : Text) :
    Option VoiceCapabilityEvidence :=
  rows.find? fun row => decide (row.evidenceReportId = reportId)

def runsForAll (capability : Json) : Bool :=
  isTrue (capability.field "enabled") && (capability.field "effective_scope").isStr "all"

def capabilityProblems (H : Host) (rows : List VoiceCapabilityEvidence)
    (provider : Option DimensionsProvider) (now : Instant) (s2s : Json) (k : VoiceCapability)
    (capability : Json) : List EvidenceProblem :=
  if !(capability.isObj && runsForAll capability) then [] else
    match capability.field "evidence_report_id" with
    | .str reportId =>
      if !nonBlank reportId then [.reportMissing] else
        match findEvidence rows reportId with
        | none => [.rowMissing]
        | some row => rowProblems H provider now s2s k capability row
    | _ => [.reportMissing]

/-- The error codes of the configuration service. -/
inductive ConfigErrorCode
  | schemaInvalid | baseVersionConflict | revisionConflict | masterSwitchManaged | noDraft
  | versionNotFound | credentialMissing | personaRequired | personaRefInvalid
  | confirmTextInvalid | allEvidenceInvalid | forceForbidden | forceConfirmInvalid
  | forceReasonRequired | forceTestUsersRequired | forceStatusInvalid | forceScopeInvalid
  deriving DecidableEq, Repr

inductive ConfigError
  | config (code : ConfigErrorCode) (errors : List Issue)
  | evidence (error : EvidenceError)
  /-- Not an error of the services. -/
  | raised (error : PyError)

/-- `_ensure_all_scope_evidence`. -/
def ensureAllScopeEvidence (H : Host) (rows : List VoiceCapabilityEvidence)
    (provider : Option DimensionsProvider) (now : Instant) (config : Json) :
    Except ConfigError Unit :=
  let capabilities := config.field "capabilities"
  let s2s := config.field "s2s"
  if !(capabilities.isObj && s2s.isObj) then .error (.config .allEvidenceInvalid []) else
    let issues := VoiceCapability.all.flatMap fun k =>
      (capabilityProblems H rows provider now s2s k (capabilities.field k.key)).map
        (EvidenceProblem.issue k)
    if issues.isEmpty then .ok () else .error (.config .allEvidenceInvalid issues)

end CompanionBackend.PublishGate
