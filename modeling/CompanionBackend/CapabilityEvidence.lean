import CompanionBackend.CapabilityRules

/-!
# Capability evidence

A report of a test run becomes an immutable row and is projected into the capability it is
about. Its fingerprint is the digest of six dimensions written as one document. The
digest, the calendar, the writer of documents and the checks of a report's payload are
parameters.
-/
namespace CompanionBackend.CapabilityEvidence

open Runs ProviderEvents Dictionaries CapabilityRules
open TurnRecords (isBlank)

/-- Microseconds of UTC. -/
abbrev Instant := ℤ

/-- A `datetime`, with its offset from UTC where it has one. -/
structure PyDatetime where
  wall : ℤ
  utcoffset : Option ℤ
  deriving DecidableEq

/-- `_utc_naive`, which `_normalized_evidence_datetime` does as well. -/
def PyDatetime.utc (t : PyDatetime) : Instant := t.wall - t.utcoffset.getD 0

def days (n : ℤ) : ℤ := n * 86400000000

/-- What the code uses of its platform, and the checks that are not embedded. -/
structure Host where
  /-- `hashlib.sha256(text.encode("utf-8")).hexdigest()`. -/
  sha256 : Text → Text
  casefold : Text → Text
  fromisoformat : Text → Option PyDatetime
  /-- A UTC instant, written with a `Z`. -/
  isoformat : Instant → Text
  /-- `json.dumps` with sorted keys. -/
  canonicalJson : Json → Text
  /-- The payload of a record, its causal order and its versions. -/
  payloadAccepted : Json → Bool
  unsafeValues : Json → Bool
  /-- The environment variable is there and not empty. -/
  getenv : Text → Bool
  sectionIssues : SectionIssues

inductive EvidenceErrorCode
  | schemaInvalid | uuidInvalid | hashInvalid | timeInvalid | capabilityInvalid | resultInvalid
  | sourceInvalid | dimensionInvalid | fingerprintInvalid | ttlInvalid | payloadInvalid
  | expired | sensitiveData | runIncomplete | runConflict | selectionInvalid | importConflict
  | storageMismatch | draftUnavailable | draftInvalid | accessDenied
  deriving DecidableEq, Repr

structure EvidenceError where
  code : EvidenceErrorCode
  field : String
  deriving DecidableEq

inductive EvidenceResult
  | passed | failed | error
  deriving DecidableEq, Repr

def EvidenceResult.name : EvidenceResult → String
  | .passed => "passed"
  | .failed => "failed"
  | .error => "error"

/-- `_RESULT_STATUS`. -/
def EvidenceResult.status : EvidenceResult → String
  | .passed => "verified"
  | .failed => "failed"
  | .error => "unverified"

inductive SourceType
  | phase0Import | adminCapabilityTest
  deriving DecidableEq, Repr

def SourceType.name : SourceType → String
  | .phase0Import => "phase0_import"
  | .adminCapabilityTest => "admin_capability_test"

/-- A record that passed its checks. Its instants are still texts. -/
structure EvidenceRecord where
  evidenceReportId : Text
  evidenceRunId : Text
  capability : VoiceCapability
  result : EvidenceResult
  source : SourceType
  dimension : EvidenceDimension → Text
  fingerprint : Text
  payload : Json
  testedAt : Text
  verifiedAt : Option Text
  ttlDays : ℤ
  expiresAt : Option Text
  reportSha256 : Text

/-- A row of `voice_capability_evidence`. -/
structure VoiceCapabilityEvidence where
  evidenceReportId : Text
  evidenceRunId : Text
  capabilityKey : Text
  verificationResult : Text
  sourceType : Text
  dimension : EvidenceDimension → Text
  evidenceFingerprint : Text
  evidencePayload : Json
  reportSha256 : Text
  testedAt : Instant
  verifiedAt : Option Instant
  ttlDaysSnapshot : ℤ
  expiresAt : Option Instant
  operatorId : Option ℕ

/-! ### Values of a document -/

/-- The value is this text. -/
def hasText (j : Json) (t : Text) : Bool :=
  match j with
  | .str s => decide (s = t)
  | _ => false

theorem hasText_iff {j : Json} {t : Text} : hasText j t = true ↔ j = .str t := by
  cases j <;> simp [hasText]

def textOf : Json → Text
  | .str t => t
  | _ => []

def optionalText : Json → Option Text
  | .str t => some t
  | _ => none

/-- A text, or null. -/
def ofOptional : Option Text → Json
  | some t => .str t
  | none => .null

def isNull : Json → Bool
  | .null => true
  | _ => false

/-- `value.strip()`. -/
def strip (t : Text) : Text := ((t.dropWhile isBlank).reverse.dropWhile isBlank).reverse

/-- `value.replace("Z", "+00:00")`. -/
def replaceZ (t : Text) : Text := t.flatMap fun c => if c = 'Z' then "+00:00".toList else [c]

/-- `_parse_datetime` and `_parse_projected_datetime`, of a value in a document. -/
def parseDatetime (H : Host) (value : Json) : Option PyDatetime :=
  match value with
  | .str t => if nonBlank t then H.fromisoformat (replaceZ (strip t)) else none
  | _ => none

/-! ### Fingerprints -/

/-- `^[A-Za-z0-9][A-Za-z0-9_.:@+-]*$`. -/
def safeDimension : Text → Bool
  | [] => false
  | c :: rest =>
    c.isAlphanum && rest.all fun c => c.isAlphanum || "_.:@+-".toList.contains c

def evidenceDimensions (value : Json) : Except EvidenceError (EvidenceDimension → Text) :=
  match EvidenceDimension.all.find? fun d =>
    match value.field d.field with | .str t => !safeDimension t | _ => true with
  | some d => .error ⟨.dimensionInvalid, d.field⟩
  | none => .ok fun d => textOf (value.field d.field)

def quoted (t : Text) : Text := Char.ofNat 0x22 :: t ++ [Char.ofNat 0x22]

/-- The dimensions by their sorted names. -/
def sortedDimensions : List EvidenceDimension :=
  [.adapterVersion, .evidenceSuiteVersion, .modelVersion, .protocolProfile, .providerProfile,
    .sdkVersion]

/-- The canonical document of six dimensions, none of which needs an escape. -/
def fingerprintText (dims : EvidenceDimension → Text) : Text :=
  Char.ofNat 0x7b ::
    ([','].intercalate (sortedDimensions.map fun d =>
      quoted d.field.toList ++ ':' :: quoted (dims d)) ++ [Char.ofNat 0x7d])

def computeEvidenceFingerprint (H : Host) (value : Json) : Except EvidenceError Text := do
  let dims ← evidenceDimensions value
  .ok (H.sha256 (fingerprintText dims))

/-- The six dimensions as an object. -/
def dimensionsValue (dims : EvidenceDimension → Json) : Json :=
  .obj (EvidenceDimension.all.map fun d => (d.field.toList, dims d))

/-! ### Records -/

def validateEvidenceTtlDays (value : Json) : Except EvidenceError ℤ :=
  match value with
  | .int n => do
    require (7 ≤ n ∧ n ≤ 90) ⟨.ttlInvalid, "evidence_ttl_days"⟩
    .ok n
  | _ => .error ⟨.ttlInvalid, "evidence_ttl_days"⟩

def evidenceExpiresAt (verifiedAt : PyDatetime) (ttlDays : ℤ) : PyDatetime :=
  { verifiedAt with wall := verifiedAt.wall + days ttlDays }

/-- A dictionary with these keys and no others. -/
def exactDict (value : Json) (fields : List String) : Bool :=
  match value with
  | .obj entries =>
    fields.all (fun f => value.has f) &&
      entries.all fun e => fields.any fun f => decide (f.toList = e.1)
  | _ => false

def isHexDigit (c : Char) : Bool := c.isDigit || ('a' ≤ c && c ≤ 'f')

/-- The form 8-4-4-4-12 in hexadecimal digits of either case. -/
def isUuid (t : Text) : Bool :=
  t.length == 36 && t.zipIdx.all fun e =>
    if e.2 ∈ [8, 13, 18, 23] then e.1 == '-' else isHexDigit e.1.toLower

def requireUuid (value : Json) (path : String) : Except EvidenceError Text :=
  match value with
  | .str t => do
    require (isUuid t = true) ⟨.uuidInvalid, path⟩
    .ok t
  | _ => .error ⟨.uuidInvalid, path⟩

/-- `^[0-9a-f]{64}$`. -/
def isSha256 (t : Text) : Bool := t.length == 64 && t.all isHexDigit

def requireSha256 (value : Json) (path : String) : Except EvidenceError Text :=
  match value with
  | .str t => do
    require (isSha256 t = true) ⟨.hashInvalid, path⟩
    .ok t
  | _ => .error ⟨.hashInvalid, path⟩

/-- A text with a `Z` that is the canonical writing of its UTC instant. -/
def parseEvidenceDatetime (H : Host) (value : Json) (path : String) :
    Except EvidenceError Instant :=
  match value with
  | .str t => do
    require (t.getLast? = some 'Z') ⟨.timeInvalid, path⟩
    let parsed ← orRaise (H.fromisoformat (t.dropLast ++ "+00:00".toList)) ⟨.timeInvalid, path⟩
    require (parsed.utcoffset = some 0) ⟨.timeInvalid, path⟩
    require (H.isoformat parsed.utc = t) ⟨.timeInvalid, path⟩
    .ok parsed.utc
  | _ => .error ⟨.timeInvalid, path⟩

def capabilityOf (value : Json) : Option VoiceCapability :=
  VoiceCapability.all.find? fun k => value.isStr k.key

/-- Phase 0 imports no diagnosis. -/
def resultOf (allowError : Bool) (value : Json) : Option EvidenceResult :=
  ((if allowError then [.passed, .failed, .error] else [.passed, .failed] :
    List EvidenceResult)).find? fun r => value.isStr r.name

def recordFields : List String :=
  ["evidence_report_id", "evidence_run_id", "capability_key", "verification_result", "source_type"]
    ++ EvidenceDimension.all.map EvidenceDimension.field ++
  ["evidence_fingerprint", "evidence_payload", "tested_at", "verified_at",
    "evidence_ttl_days_snapshot", "expires_at", "report_sha256"]

def lengthLimit : EvidenceDimension → ℕ
  | .providerProfile => 255
  | _ => 128

/-- The digest of a document without one of its keys. -/
def hashWithout (H : Host) (value : Json) (key : String) : Text :=
  H.sha256 (H.canonicalJson (value.remove key))

/-- The instants of a record agree with its result and its lifetime. -/
def checkTimes (H : Host) (value : Json) (result : EvidenceResult) (tested ttl now : ℤ)
    (path : String) : Except EvidenceError Unit :=
  match result with
  | .passed => do
    let verified ← parseEvidenceDatetime H (value.field "verified_at") (path ++ ".verified_at")
    let expires ← parseEvidenceDatetime H (value.field "expires_at") (path ++ ".expires_at")
    require (verified = tested) ⟨.timeInvalid, path ++ ".verified_at"⟩
    require (expires = verified + days ttl) ⟨.timeInvalid, path ++ ".expires_at"⟩
    require (now < expires) ⟨.expired, path ++ ".expires_at"⟩
  | _ => require (isNull (value.field "verified_at") ∧ isNull (value.field "expires_at"))
      ⟨.timeInvalid, path ++ ".verified_at"⟩

def validateEvidenceRecord (H : Host) (value : Json) (source : SourceType) (allowError : Bool)
    (now : Instant) (path : String) : Except EvidenceError EvidenceRecord := do
  require (exactDict value recordFields = true) ⟨.schemaInvalid, path⟩
  let reportId ← requireUuid (value.field "evidence_report_id") (path ++ ".evidence_report_id")
  let runId ← requireUuid (value.field "evidence_run_id") (path ++ ".evidence_run_id")
  let capability ← orRaise (capabilityOf (value.field "capability_key"))
    ⟨.capabilityInvalid, path ++ ".capability_key"⟩
  let result ← orRaise (resultOf allowError (value.field "verification_result"))
    ⟨.resultInvalid, path ++ ".verification_result"⟩
  require ((value.field "source_type").isStr source.name = true)
    ⟨.sourceInvalid, path ++ ".source_type"⟩
  let dims ← evidenceDimensions value
  require (∀ d ∈ EvidenceDimension.all, (dims d).length ≤ lengthLimit d)
    ⟨.dimensionInvalid, path⟩
  let fingerprint := H.sha256 (fingerprintText dims)
  require (hasText (value.field "evidence_fingerprint") fingerprint = true)
    ⟨.fingerprintInvalid, path ++ ".evidence_fingerprint"⟩
  require (H.payloadAccepted value = true) ⟨.payloadInvalid, path ++ ".evidence_payload"⟩
  let tested ← parseEvidenceDatetime H (value.field "tested_at") (path ++ ".tested_at")
  let ttl ← validateEvidenceTtlDays (value.field "evidence_ttl_days_snapshot")
  checkTimes H value result tested ttl now path
  let hash ← requireSha256 (value.field "report_sha256") (path ++ ".report_sha256")
  require (hash = hashWithout H value "report_sha256") ⟨.hashInvalid, path ++ ".report_sha256"⟩
  require (H.unsafeValues value = false) ⟨.sensitiveData, path⟩
  .ok
    { evidenceReportId := reportId
      evidenceRunId := runId
      capability := capability
      result := result
      source := source
      dimension := dims
      fingerprint := fingerprint
      payload := value.field "evidence_payload"
      testedAt := textOf (value.field "tested_at")
      verifiedAt := optionalText (value.field "verified_at")
      ttlDays := ttl
      expiresAt := optionalText (value.field "expires_at")
      reportSha256 := hash }

def records (value : Json) : List Json :=
  match value.field "records" with
  | .arr items => items
  | _ => []

/-- All records in their order, or the first error. -/
def validateRecords (f : ℕ → Json → Except EvidenceError EvidenceRecord) :
    ℕ → List Json → Except EvidenceError (List EvidenceRecord)
  | _, [] => .ok []
  | index, value :: rest => do
    let record ← f index value
    let more ← validateRecords f (index + 1) rest
    .ok (record :: more)

def recordPath (index : ℕ) : String := "bundle.records[" ++ toString index ++ "]"

/-- An accepted file: its run, its digest and the records to import. -/
structure ValidatedBundle where
  evidenceRunId : Text
  bundleSha256 : Text
  records : List EvidenceRecord

def bundleFields : List String :=
  ["schema_version", "evidence_run_id", "record_count", "production_source_of_truth", "records",
    "bundle_sha256"]

/-- Every capability occurs, and no value of `f` twice. -/
def oncePerCapability {α : Type} [DecidableEq α] (capabilities : List VoiceCapability)
    (ids : List α) : Prop :=
  (∀ k ∈ VoiceCapability.all, k ∈ capabilities) ∧ ids.Nodup

instance {α : Type} [DecidableEq α] (capabilities : List VoiceCapability) (ids : List α) :
    Decidable (oncePerCapability capabilities ids) :=
  inferInstanceAs (Decidable ((∀ k ∈ VoiceCapability.all, k ∈ capabilities) ∧ ids.Nodup))

/-- One run: the same dimensions, lifetime and instant in every record. -/
def sameRun (a b : EvidenceRecord) : Prop :=
  (∀ d ∈ EvidenceDimension.all, b.dimension d = a.dimension d) ∧ b.ttlDays = a.ttlDays ∧
    b.testedAt = a.testedAt

instance (a b : EvidenceRecord) : Decidable (sameRun a b) :=
  inferInstanceAs (Decidable ((∀ d ∈ EvidenceDimension.all, b.dimension d = a.dimension d) ∧
    b.ttlDays = a.ttlDays ∧ b.testedAt = a.testedAt))

def validatePhase0EvidenceBundle (H : Host) (value : Json) (now : Instant) :
    Except EvidenceError ValidatedBundle := do
  require (exactDict value bundleFields = true) ⟨.schemaInvalid, "bundle"⟩
  require ((value.field "schema_version").isStr "phase0-evidence-bundle/v1" = true)
    ⟨.schemaInvalid, "bundle.schema_version"⟩
  let runId ← requireUuid (value.field "evidence_run_id") "bundle.evidence_run_id"
  require (isInt (value.field "record_count") 6 = true) ⟨.runIncomplete, "bundle.record_count"⟩
  require ((value.field "production_source_of_truth").isBool = true)
    ⟨.schemaInvalid, "bundle.production_source_of_truth"⟩
  require ((records value).length = 6) ⟨.runIncomplete, "bundle.records"⟩
  let accepted ← validateRecords (fun index record =>
    validateEvidenceRecord H record .phase0Import false now (recordPath index)) 0 (records value)
  require (∀ record ∈ accepted, record.evidenceRunId = runId)
    ⟨.runConflict, "bundle.records.evidence_run_id"⟩
  require (oncePerCapability (accepted.map (·.capability)) (accepted.map (·.capability)))
    ⟨.runIncomplete, "bundle.records.capability_key"⟩
  require ((accepted.map (·.evidenceReportId)).Nodup)
    ⟨.runConflict, "bundle.records.evidence_report_id"⟩
  require (∀ first ∈ accepted.head?, ∀ record ∈ accepted, sameRun first record)
    ⟨.runConflict, "bundle.records"⟩
  let hash ← requireSha256 (value.field "bundle_sha256") "bundle.bundle_sha256"
  require (hash = hashWithout H value "bundle_sha256") ⟨.hashInvalid, "bundle.bundle_sha256"⟩
  require (H.unsafeValues value = false) ⟨.sensitiveData, "bundle"⟩
  .ok ⟨runId, hash, accepted⟩
where
  isInt (j : Json) (n : ℤ) : Bool :=
    match j with
    | .int m => decide (m = n)
    | _ => false

/-- What a selection reads of every record of the file, selected or not. -/
structure RawRecord where
  evidenceReportId : Text
  capability : VoiceCapability
  dimension : EvidenceDimension → Text
  value : Json

def readRawRecord (H : Host) (runId : Text) (index : ℕ) (value : Json) :
    Except EvidenceError RawRecord := do
  let path := recordPath index
  require (exactDict value recordFields = true) ⟨.schemaInvalid, path⟩
  let reportId ← requireUuid (value.field "evidence_report_id") (path ++ ".evidence_report_id")
  require (hasText (value.field "evidence_run_id") runId = true ∧
    (value.field "source_type").isStr "phase0_import" = true) ⟨.runConflict, path⟩
  require (hasText (value.field "report_sha256") (hashWithout H value "report_sha256") = true)
    ⟨.hashInvalid, path⟩
  require ((value.field "verification_result").strIn ["passed", "failed", "error"] = true)
    ⟨.resultInvalid, path⟩
  let capability ← orRaise (capabilityOf (value.field "capability_key")) ⟨.runConflict, path⟩
  let dims ← evidenceDimensions value
  .ok ⟨reportId, capability, dims, value⟩

def readRawRecords (H : Host) (runId : Text) :
    ℕ → List Json → Except EvidenceError (List RawRecord)
  | _, [] => .ok []
  | index, value :: rest => do
    let raw ← readRawRecord H runId index value
    let more ← readRawRecords H runId (index + 1) rest
    .ok (raw :: more)

def sameRawRun (a b : RawRecord) : Bool :=
  EvidenceDimension.all.all (fun d => decide (b.dimension d = a.dimension d)) &&
    Json.pyEq (b.value.field "tested_at") (a.value.field "tested_at") &&
    Json.pyEq (b.value.field "evidence_ttl_days_snapshot")
      (a.value.field "evidence_ttl_days_snapshot")

/-- The whole file is checked first, then the chosen records as what they state. -/
def validatePhase0EvidenceSelection (H : Host) (value : Json) (reportIds : List Text)
    (now : Instant) : Except EvidenceError ValidatedBundle := do
  require (exactDict value bundleFields = true) ⟨.schemaInvalid, "bundle"⟩
  let runId ← requireUuid (value.field "evidence_run_id") "bundle.evidence_run_id"
  require ((value.field "schema_version").isStr "phase0-evidence-bundle/v1" = true ∧
    validatePhase0EvidenceBundle.isInt (value.field "record_count") 6 = true ∧
    (value.field "production_source_of_truth").isBool = true ∧ (records value).length = 6)
    ⟨.schemaInvalid, "bundle"⟩
  let hash ← requireSha256 (value.field "bundle_sha256") "bundle.bundle_sha256"
  require (hash = hashWithout H value "bundle_sha256") ⟨.hashInvalid, "bundle"⟩
  require (1 ≤ reportIds.length ∧ reportIds.length ≤ 6) ⟨.selectionInvalid, "report_ids"⟩
  require (reportIds.all isUuid = true) ⟨.uuidInvalid, "report_ids"⟩
  require reportIds.Nodup ⟨.selectionInvalid, "report_ids"⟩
  let raws ← readRawRecords H runId 0 (records value)
  require (oncePerCapability (raws.map (·.capability)) (raws.map (·.evidenceReportId)))
    ⟨.runConflict, "bundle.records"⟩
  require (∀ first ∈ raws.head?, ∀ raw ∈ raws, sameRawRun first raw = true)
    ⟨.runConflict, "bundle.records"⟩
  require (∀ id ∈ reportIds, id ∈ raws.map (·.evidenceReportId))
    ⟨.selectionInvalid, "report_ids"⟩
  let selected := (raws.filter fun raw => decide (raw.evidenceReportId ∈ reportIds)).map (·.value)
  let accepted ← validateRecords (fun _ record =>
    validateEvidenceRecord H record .phase0Import true now "record") 0 selected
  require (H.unsafeValues value = false) ⟨.sensitiveData, "bundle"⟩
  .ok ⟨runId, hash, accepted⟩

/-! ### Rows and projections -/

/-- An instant of a record that was checked before. -/
def rowInstant (H : Host) (text : Option Text) (path : String) :
    Except EvidenceError (Option Instant) :=
  match text with
  | none => .ok none
  | some t => do
    let instant ← parseEvidenceDatetime H (.str t) path
    .ok (some instant)

def newEvidenceRow (H : Host) (record : EvidenceRecord) (operatorId : ℕ) :
    Except EvidenceError VoiceCapabilityEvidence := do
  let tested ← parseEvidenceDatetime H (.str record.testedAt) "record.tested_at"
  let verified ← rowInstant H record.verifiedAt "record.verified_at"
  let expires ← rowInstant H record.expiresAt "record.expires_at"
  .ok
    { evidenceReportId := record.evidenceReportId
      evidenceRunId := record.evidenceRunId
      capabilityKey := record.capability.key.toList
      verificationResult := record.result.name.toList
      sourceType := record.source.name.toList
      dimension := record.dimension
      evidenceFingerprint := record.fingerprint
      evidencePayload := record.payload
      reportSha256 := record.reportSha256
      testedAt := tested
      verifiedAt := verified
      ttlDaysSnapshot := record.ttlDays
      expiresAt := expires
      operatorId := some operatorId }

/-- `_stored_record_projection(row) == record`. -/
def storedAs (H : Host) (row : VoiceCapabilityEvidence) (record : EvidenceRecord) : Bool :=
  decide (row.evidenceReportId = record.evidenceReportId) &&
    decide (row.evidenceRunId = record.evidenceRunId) &&
    decide (row.capabilityKey = record.capability.key.toList) &&
    decide (row.verificationResult = record.result.name.toList) &&
    decide (row.sourceType = record.source.name.toList) &&
    EvidenceDimension.all.all (fun d => decide (row.dimension d = record.dimension d)) &&
    decide (row.evidenceFingerprint = record.fingerprint) &&
    Json.pyEq row.evidencePayload record.payload &&
    decide (H.isoformat row.testedAt = record.testedAt) &&
    decide (row.verifiedAt.map H.isoformat = record.verifiedAt) &&
    decide (row.ttlDaysSnapshot = record.ttlDays) &&
    decide (row.expiresAt.map H.isoformat = record.expiresAt) &&
    decide (row.reportSha256 = record.reportSha256)

/-- The entries a record writes into a capability. -/
def projectedEntries (record : EvidenceRecord) : List (String × Json) :=
  [("verification_status", .str record.result.status.toList), ("enabled", .bool false),
    ("forced_enabled", .bool false), ("effective_scope", .str "off".toList)] ++
  EvidenceDimension.all.map (fun d => (d.field, .str (record.dimension d))) ++
  [("evidence_fingerprint", .str record.fingerprint), ("evidence_ttl_days", .int record.ttlDays),
    ("verified_at", ofOptional record.verifiedAt), ("expires_at", ofOptional record.expiresAt),
    ("evidence_report_id", .str record.evidenceReportId),
    ("last_test_result", .str record.result.name.toList)]

def projectRecordToCapability (capability : Json) (record : EvidenceRecord) : Json :=
  capability.update (projectedEntries record)

end CompanionBackend.CapabilityEvidence
