import CompanionBackend.RuntimeLoading
import CompanionBackend.TrustedDrafts

/-!
# Forced tests and what is logged of them

A super administrator forces an untested capability for the test users. The draft gets it, and
the operation log an entry with the source of the test: who forced what, when and why, and the
digest of the whole draft as it then was. A refused request leaves an entry without a source.
-/
namespace CompanionBackend.ForcedTests

open Runs ProviderEvents Dictionaries CapabilityRules CapabilityEvidence ConfigDrafts
  RuntimeSnapshots RuntimeLoading

def roleName : AdminRole → String
  | .superAdmin => "super_admin"
  | .aiTrainer => "ai_trainer"
  | .techOps => "tech_ops"
  | .opsAdmin => "ops_admin"
  | .observer => "observer"

/-! ### The summary of an operation -/

/-- One field of each capability; writing sorts the keys. -/
def shownCapabilities (config : Json) (field : String) : Json :=
  match config.field "capabilities" with
  | .obj entries => .obj (entries.map fun e => (e.1, e.2.field field))
  | _ => .null

def noteDigest (H : Host) (note : Text) : Text := "sha256:".toList ++ H.sha256 note

/-- A note is not kept, only its length and digest. -/
def noteSummary (H : Host) (note : Option Text) : Json :=
  match note with
  | none => .null
  | some text => .obj [("present".toList, .bool true), ("length".toList, .int text.length),
      ("sha256".toList, .str (noteDigest H text))]

def optionalInt (n : Option ℤ) : Json := (n.map Json.int).getD .null

/-- What `_audit_projection` is given of an operation on the call configuration. -/
structure Audit where
  action : String
  config : Json
  version : ℤ
  draftRevision : Option ℤ
  changedSections : List Text
  changeNote : Option Text
  permission : AdminRole
  result : String
  failureCategory : Json
  /-- `force_source` and `capability_audit`, of a forced test only. -/
  extras : List (String × Json)

/-- `_audit_projection`. -/
def auditProjection (H : Host) (a : Audit) : Json :=
  .obj (([("action", .str a.action.toList), ("config_key", .str "voice_call_config".toList),
    ("permission", .str (roleName a.permission).toList), ("config_version", .int a.version),
    ("base_version", .int a.version), ("draft_revision", optionalInt a.draftRevision),
    ("changed_sections", .arr (a.changedSections.map Json.str)),
    ("change_note", noteSummary H a.changeNote),
    ("verification_status", shownCapabilities a.config "verification_status"),
    ("forced_enabled", shownCapabilities a.config "forced_enabled"),
    ("effective_scope", shownCapabilities a.config "effective_scope"),
    ("result", .str a.result.toList), ("failure_category", a.failureCategory),
    ("content_sha256", .str (ConfigDrafts.contentSha256 H a.config))] ++ a.extras).map
      fun e => (e.1.toList, e.2))

/-! ### Entries of the log -/

/-- A forced test that was written to the draft. -/
structure ForceEvent where
  audit : ForceAudit
  operator : AdminUser
  /-- Of the active configuration. -/
  version : ℤ
  reason : Text
  forcedAt : Instant
  /-- When the row of the log was made. -/
  createdAt : Instant

def forceSourceValue (H : Host) (e : ForceEvent) : Json :=
  .obj ([("source", Json.str "admin_force_test".toList),
    ("capability_key", .str e.audit.capability.key.toList),
    ("draft_revision", .int e.audit.draftRevision),
    ("config_content_sha256", .str (ConfigDrafts.contentSha256 H e.audit.config)),
    ("operator_id", .int e.operator.id), ("forced_at", .str (H.isoformat e.forcedAt)),
    ("reason_length", .int e.reason.length), ("reason_sha256", .str (noteDigest H e.reason))].map
      fun f => (f.1.toList, f.2))

def capabilityAudit (e : ForceEvent) : Json :=
  let item := (e.audit.config.field "capabilities").field e.audit.capability.key
  .obj (("capability_key".toList, .str e.audit.capability.key.toList) ::
    ["fallback_mode", "effective_scope", "evidence_report_id", "evidence_suite_version",
      "evidence_fingerprint"].map fun f => (f.toList, item.field f))

def forceAudit (H : Host) (e : ForceEvent) : Audit where
  action := "force_enable"
  config := e.audit.config
  version := e.version
  draftRevision := some e.audit.draftRevision
  changedSections := ["capabilities".toList]
  changeNote := some e.reason
  permission := e.audit.permission
  result := "success"
  failureCategory := .null
  extras := [("force_source", forceSourceValue H e), ("capability_audit", capabilityAudit e)]

/-- A request that was refused: its reason as it came, and the configuration it met. -/
structure Refusal where
  operator : AdminUser
  config : Json
  version : ℤ
  draftRevision : Option ℤ
  changedSections : List Text
  reason : Text
  failureCategory : Text
  createdAt : Instant

def refusalAudit (r : Refusal) : Audit where
  action := "force_enable"
  config := r.config
  version := r.version
  draftRevision := r.draftRevision
  changedSections := r.changedSections
  changeNote := some r.reason
  permission := r.operator.role
  result := "failed"
  failureCategory := .str r.failureCategory
  extras := []

inductive ForceEntry
  | forced (e : ForceEvent)
  | refused (r : Refusal)

/-- `log_operation`: the row that the runtime reads. -/
def forceLogRow (H : Host) : ForceEntry → ForceLogRow
  | .forced e => ⟨some e.operator.id, auditProjection H (forceAudit H e), ⟨e.createdAt, none⟩⟩
  | .refused r => ⟨some r.operator.id, auditProjection H (refusalAudit r), ⟨r.createdAt, none⟩⟩

/-! ### Runs -/

/-- The rows of the call configuration, and the log with its newest entry first. -/
structure ForceWorld where
  store : ConfigStore
  log : List ForceEntry

/-- A request to force a capability, and what is read while it is served. -/
structure ForceCall where
  admin : AdminUser
  request : ForceRequest
  forcedAt : Instant
  createdAt : Instant
  /-- How a refusal is classed. -/
  category : Text

inductive Input
  | force (call : ForceCall)
  | other (op : Operation)

def refusalOf (w : ForceWorld) (call : ForceCall) : Refusal where
  operator := call.admin
  config := w.store.selectedConfig.getD (.obj [])
  version := w.store.currentVersion
  draftRevision := w.store.currentRevision
  changedSections := changedSections (parseConfigValue w.store.active)
    (parseConfigValue w.store.draft)
  reason := call.request.reason
  failureCategory := call.category
  createdAt := call.createdAt

def eventOf (w : ForceWorld) (call : ForceCall) (audit : ForceAudit) : ForceEvent where
  audit := audit
  operator := call.admin
  version := w.store.currentVersion
  reason := strip call.request.reason
  forcedAt := call.forcedAt
  createdAt := call.createdAt

/-- `force_capability_test`. -/
def ForceWorld.force (H : Host) (w : ForceWorld) (call : ForceCall) : Option ForceWorld :=
  match forceCapabilityTest H call.admin call.request w.store with
  | .ok store => store.forceLog.getLast?.map fun audit =>
      ⟨store, .forced (eventOf w call audit) :: w.log⟩
  | .error (.config _ _) => some { w with log := .refused (refusalOf w call) :: w.log }
  | .error _ => some w

def isForce : Operation → Bool
  | .forceCapabilityTest _ _ => true
  | _ => false

def ForceWorld.step (H : Host) (template : ConfigKey → Json) (w : ForceWorld) :
    Input → Option ForceWorld
  | .force call => w.force H call
  | .other op =>
    if isForce op then none else
      match transact H template .voiceCallConfig op w.store with
      | .ok store => some { w with store := store }
      | .error _ => some w

/-- All requests on the call configuration, from rows that were never written. -/
def forcing (H : Host) (template : ConfigKey → Json) : Machine ForceWorld Input where
  start w := w = ⟨emptyStore, []⟩
  step := ForceWorld.step H template

/-- A capability in the draft. -/
def ForceWorld.drafted (w : ForceWorld) (k : VoiceCapability) : Option Json :=
  w.store.draft.map fun d => (d.configValue.field "capabilities").field k.key

/-- A forced test wrote the capability, and it has stayed in the draft as it was written. -/
def ForcedSince (H : Host) (template : ConfigKey → Json) (w : ForceWorld) (k : VoiceCapability) :
    Prop :=
  ∃ before call store after inputs, (forcing H template).Reachable before ∧
    forceCapabilityTest H call.admin call.request before.store = .ok store ∧
    capabilityOf (.str call.request.capabilityKey) = some k ∧
    (forcing H template).step before (.force call) = some after ∧
    (forcing H template).run after inputs = some w ∧
    ∀ first w', first <+: inputs → (forcing H template).run after first = some w' →
      w'.drafted k = after.drafted k

/-! ### Reading after a publication -/

/-- The database as the runtime finds it: the active row, and the log. -/
structure ReadsOf (H : Host) (store : ConfigStore) (log : List ForceEntry) (mysql : MysqlReads) :
    Prop where
  config : ∀ a, store.active = some a → ∃ row, activeRow mysql.configRows = some row ∧
    row.configValue = .document a.configValue ∧ row.version = a.version ∧
    row.updatedAt.isSome = true
  forceLogs : mysql.forceLogs = some (log.map (forceLogRow H))

end CompanionBackend.ForcedTests
