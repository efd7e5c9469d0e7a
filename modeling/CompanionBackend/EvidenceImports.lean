import CompanionBackend.DraftSteps
import CompanionBackend.TaskSystems

/-!
# Importers of evidence side by side

An importer checks what it was given, takes its locks, compares with the rows and the logs
that are there, and writes rows, draft and log in one commit. Two imports of files exclude each
other through the rows of the configuration; a test result of an administrator is
appended without that lock. Other transactions on the configuration run in between.
-/
namespace CompanionBackend.EvidenceImports

open TaskSystems Runs ProviderEvents Dictionaries CapabilityRules CapabilityEvidence PublishGate
  ConfigDrafts

/-- What an importer is given. -/
inductive ImportContent
  | bundle (value : Json)
  | selection (value : Json) (reportIds : List Text)
  | record (value : Json)

/-- What passed the checks. -/
inductive Validated
  | bundle (v : ValidatedBundle)
  | selection (v : ValidatedBundle)
  | record (r : EvidenceRecord)

namespace Validated

def records : Validated → List EvidenceRecord
  | .bundle v | .selection v => v.records
  | .record r => [r]

/-- Files are imported under the lock of the configuration's rows. -/
def anchors : Validated → Bool
  | .bundle _ | .selection _ => true
  | .record _ => false

/-- What the log holds of the file. -/
def log : Validated → List ImportAudit
  | .bundle v => [⟨v.evidenceRunId, v.bundleSha256, false⟩]
  | .selection v => [⟨v.evidenceRunId, v.bundleSha256, true⟩]
  | .record _ => []

end Validated

def validateContent (H : Host) (c : ImportContent) (now : Instant) :
    Except EvidenceError Validated :=
  match c with
  | .bundle value => do
    let v ← validatePhase0EvidenceBundle H value now
    .ok (.bundle v)
  | .selection value reportIds => do
    let v ← validatePhase0EvidenceSelection H value reportIds now
    .ok (.selection v)
  | .record value => do
    let r ← validateEvidenceRecord H value .adminCapabilityTest true now "record"
    .ok (.record r)

/-- The records that have to be written; none of them when everything is there already. -/
def decideImport (H : Host) (v : Validated) (s : ConfigStore) :
    Except ConfigError (List EvidenceRecord) :=
  match v with
  | .bundle b =>
    let ids := b.records.map (·.evidenceReportId)
    let existing := s.evidence.filter fun row =>
      decide (row.evidenceRunId = b.evidenceRunId ∨ row.evidenceReportId ∈ ids)
    if existing.isEmpty then .ok b.records
    else do
      let hashes := (s.importLog.filter fun log =>
        !log.selection && decide (log.evidenceRunId = b.evidenceRunId)).map (·.bundleSha256)
      require (existing.length = b.records.length ∧
        (b.records.all fun record => existing.any fun row => storedAs H row record) = true ∧
        hashes = [b.bundleSha256]) (importConflict "bundle")
      .ok []
  | .selection b => do
    require (∀ log ∈ s.importLog, log.evidenceRunId = b.evidenceRunId →
      log.bundleSha256 = b.bundleSha256) (importConflict "bundle")
    pendingRecords H s b.records
  | .record r => pendingRecords H s [r]

/-- The unique keys of `voice_capability_evidence`. -/
structure UniqueEvidence (rows : List VoiceCapabilityEvidence) : Prop where
  reports : (rows.map fun row => row.evidenceReportId).Nodup
  runs : (rows.map fun row => (row.evidenceRunId, row.capabilityKey)).Nodup

instance (rows : List VoiceCapabilityEvidence) : Decidable (UniqueEvidence rows) :=
  decidable_of_iff ((rows.map fun row => row.evidenceReportId).Nodup ∧
    (rows.map fun row => (row.evidenceRunId, row.capabilityKey)).Nodup)
    ⟨fun h => ⟨h.1, h.2⟩, fun h => ⟨h.reports, h.runs⟩⟩

/-- A selection reads its rows back. -/
def checkReadBack (H : Host) (v : Validated) (rows : List VoiceCapabilityEvidence)
    (pending : List EvidenceRecord) : Except ConfigError Unit :=
  match v with
  | .selection _ => require ((rows.zip pending).all (fun e => storedAs H e.1 e.2) = true)
      (.evidence ⟨.storageMismatch, "record"⟩)
  | _ => .ok ()

/-- Rows, draft and log are written together. -/
def commitImport (H : Host) (v : Validated) (user : AdminUser) (pending : List EvidenceRecord)
    (s : ConfigStore) : Except ConfigError (List VoiceCapabilityEvidence × ConfigStore) := do
  let rows ← (newRows H user.id pending).mapError ConfigError.evidence
  require (UniqueEvidence (s.evidence ++ rows)) (importConflict "record")
  checkReadBack H v rows pending
  let (_, written) ← appendRecords H user pending s
  .ok (rows, { written with importLog := s.importLog ++ v.log })

/-! ### Calls -/

structure ImportData where
  store : ConfigStore
  /-- The reports whose appending was logged. -/
  appendLog : List Text
  /-- Some import holds the rows of the configuration. -/
  anchorLocked : Bool
  /-- The rows of files, each with the digest of the file it came from. The code keeps no such
  record. -/
  origins : List (VoiceCapabilityEvidence × Text)
  /-- What was imported by calls that returned. -/
  succeeded : List ImportContent
  /-- How many calls raised. -/
  raised : ℕ

/-- A call between two of its awaits, with the number of calls that had returned before it. -/
inductive ImportTask
  | called (c : ImportContent) (seen : ℕ)
  | validated (c : ImportContent) (seen : ℕ) (v : Validated)
  | opened (c : ImportContent) (seen : ℕ) (v : Validated)
  | planned (c : ImportContent) (seen : ℕ) (v : Validated) (user : AdminUser)
      (pending : List EvidenceRecord)
  | other (op : Operation)

namespace ImportTask

def holdsAnchor : ImportTask → Bool
  | .opened _ _ v | .planned _ _ v _ _ => v.anchors
  | _ => false

/-- The call was made before, and returned before this one began. -/
def Repeats (d : ImportData) : ImportTask → Prop
  | .called c seen | .validated c seen _ | .opened c seen _ | .planned c seen _ _ _ =>
    c ∈ d.succeeded.take seen
  | .other _ => False

end ImportTask

inductive ImportInput
  | call (c : ImportContent)
  | admin (op : Operation)
  /-- The clock, the row of the operator, and whether the database refuses. -/
  | proceed (now : Instant) (operator : Option AdminUser) (refused : Bool)
  /-- The call is cancelled. -/
  | abort

/-- The transaction is not one of the importers. -/
def notImport : Operation → Bool
  | .importPhase0EvidenceBundle _ _ _ | .importPhase0EvidenceSelection _ _ _ _
  | .appendAdminCapabilityEvidence _ _ _ => false
  | _ => true

namespace ImportData

def release (d : ImportData) (t : ImportTask) : ImportData :=
  if t.holdsAnchor then { d with anchorLocked := false } else d

/-- The call raises; its transaction is rolled back. -/
def fail (d : ImportData) (t : ImportTask) : ImportData :=
  { d.release t with raised := d.raised + 1 }

def succeed (d : ImportData) (t : ImportTask) (c : ImportContent) : ImportData :=
  { d.release t with succeeded := d.succeeded ++ [c] }

/-- The rows that a file brought. -/
def originsOf (v : Validated) (rows : List VoiceCapabilityEvidence) :
    List (VoiceCapabilityEvidence × Text) :=
  match v with
  | .bundle b | .selection b => rows.map (·, b.bundleSha256)
  | .record _ => []

/-- The commit of an import. -/
def commit (d : ImportData) (v : Validated) (rows : List VoiceCapabilityEvidence)
    (s : ConfigStore) : ImportData :=
  { d with
    store := s
    appendLog := d.appendLog ++ match v with
      | .record r => [r.evidenceReportId]
      | _ => []
    origins := d.origins ++ originsOf v rows }

/-- What the call does up to its next await. -/
def proceed (H : Host) (template : ConfigKey → Json) (d : ImportData) (t : ImportTask)
    (now : Instant) (operator : Option AdminUser) (refused : Bool) :
    Option (ImportData × List ImportTask) :=
  match t with
  | .called c seen =>
    match validateContent H c now with
    | .error _ => some (d.fail t, [])
    | .ok v => some (d, [.validated c seen v])
  | .validated c seen v =>
    if refused then some (d.fail t, [])
    else if !v.anchors then some (d, [.opened c seen v])
    else if d.anchorLocked then none
    else match lockImportAnchor d.store with
      | .error _ => some (d.fail t, [])
      | .ok _ => some ({ d with anchorLocked := true }, [.opened c seen v])
  | .opened c seen v =>
    if refused then some (d.fail t, [])
    else match verifiedOperator operator, decideImport H v d.store with
      | .ok user, .ok pending =>
        if pending.isEmpty then some (d.succeed t c, [])
        else some (d, [.planned c seen v user pending])
      | _, _ => some (d.fail t, [])
  | .planned c _ v user pending =>
    if refused then some (d.fail t, [])
    else match commitImport H v user pending d.store with
      | .error _ => some (d.fail t, [])
      | .ok (rows, s) => some ((d.commit v rows s).succeed t c, [])
  | .other op =>
    match transact H template .voiceCallConfig op d.store with
    | .ok s => some (if refused then d else { d with store := s }, [])
    | .error _ => some (d, [])

end ImportData

/-- The importers and the other transactions on the configuration, before the first import. -/
def importSystem (H : Host) (template : ConfigKey → Json) :
    TaskSystem ImportData ImportTask ImportInput where
  initial d := (d.store.evidence = [] ∧ d.store.importLog = []) ∧ d.anchorLocked = false ∧
    d.origins = [] ∧ d.succeeded = []
  accept d i :=
    match i with
    | .call c => some [.called c d.succeeded.length]
    | .admin op => if notImport op then some [.other op] else none
    | _ => none
  advance d t i :=
    match i with
    | .proceed now operator refused => d.proceed H template t now operator refused
    | .abort => some (d.fail t, [])
    | _ => none

end CompanionBackend.EvidenceImports
