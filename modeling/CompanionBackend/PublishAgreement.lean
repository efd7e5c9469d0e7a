import CompanionBackend.PublishGate
import CompanionBackend.SnapshotSoundness
import CompanionBackend.RuntimeLoading

/-!
# Two gates for one row

Publication and the runtime check the evidence of a capability in different modules. Both
come down to one relation between the capability, its row, the current dimensions and the
instant: what may be published to all is what a snapshot then runs for all.
-/
namespace CompanionBackend.PublishAgreement

open Runs ProviderEvents Dictionaries CapabilityRules CapabilityEvidence PublishGate
  RuntimeSnapshots RuntimeLoading

/-! ### The relation -/

/-- The instants of a row, and those that the capability names. -/
structure TimesVouched (H : Host) (capability : Json) (row : VoiceCapabilityEvidence)
    (now verified expires : Instant) : Prop where
  verifiedAt : row.verifiedAt = some verified
  expiresAt : row.expiresAt = some expires
  namedVerified : (parseDatetime H (capability.field "verified_at")).map PyDatetime.utc = some verified
  namedExpires : (parseDatetime H (capability.field "expires_at")).map PyDatetime.utc = some expires
  tested : row.testedAt ≤ verified
  begun : verified ≤ now
  lifetime : expires = verified + days row.ttlDaysSnapshot
  ahead : now < expires

/-- A row vouches for a capability with the dimensions that run now. -/
structure Vouched (H : Host) (k : VoiceCapability) (capability current : Json) (now : Instant)
    (row : VoiceCapabilityEvidence) : Prop where
  capabilityKey : row.capabilityKey = k.key.toList
  passed : row.verificationResult = "passed".toList
  safe : ∀ d : EvidenceDimension, safeDimension (row.dimension d) = true
  rowFingerprint : row.evidenceFingerprint = H.sha256 (fingerprintText row.dimension)
  projected : ∀ d : EvidenceDimension, capability.field d.field = .str (row.dimension d)
  fingerprint : capability.field "evidence_fingerprint" = .str row.evidenceFingerprint
  report : capability.field "evidence_report_id" = .str row.evidenceReportId
  lastTest : capability.field "last_test_result" = .str "passed".toList
  ttlRange : 7 ≤ row.ttlDaysSnapshot ∧ row.ttlDaysSnapshot ≤ 90
  ttl : capability.field "evidence_ttl_days" = .int row.ttlDaysSnapshot
  times : ∃ verified expires, TimesVouched H capability row now verified expires
  current : ∀ d : EvidenceDimension, current.field d.field = .str (row.dimension d)

/-! ### Publication -/

/-- The bundle was loaded with these rows, and the dimensions of a capability are those that
publication reads. -/
structure SameEvidence (b : VoiceRuntimeBundle) (rows : List VoiceCapabilityEvidence)
    (provider : Option DimensionsProvider) (current : Option Json) : Prop where
  anchors : b.evidenceAnchors = evidenceAnchors rows
  available : b.evidenceAnchorsAvailable = true
  dimensions : ∀ k : VoiceCapability,
    (provider.bind fun read => read k (b.config.payload.field "s2s")) =
      current.bind fun c => c.get k.key

/-- Verified, and running for everyone. -/
def Live (item : Json) : Prop :=
  item.field "verification_status" = .str "verified".toList ∧ item.field "enabled" = .bool true ∧
    item.field "effective_scope" = .str "all".toList

end CompanionBackend.PublishAgreement
