import CompanionBackend.TaskSystems
import CompanionBackend.EvidenceImports
import CompanionBackend.DraftLocking

/-!
# Imports are atomic, immutable and idempotent

Rows only grow and stay unique; a call that raises leaves everything as it was; a call
that was made before writes nothing; and all rows of a file's run come from one file.
-/
namespace CompanionBackend.EvidenceImports

open TaskSystems Runs ProviderEvents Dictionaries CapabilityRules CapabilityEvidence PublishGate
  ConfigDrafts

variable {H : Host} {template : ConfigKey → Json}

/-! ### Checks at another time -/

/-- Two computations that give the same result wherever both give one. -/
def Agree {ε α : Type} (x y : Except ε α) : Prop := ∀ a b, x = .ok a → y = .ok b → a = b

theorem Agree.refl {ε α : Type} (x : Except ε α) : Agree x x := fun _ _ ha hb =>
  Except.ok.inj (ha.symm.trans hb)

theorem Agree.unit {ε : Type} (x y : Except ε Unit) : Agree x y := fun _ _ _ _ => rfl

theorem Agree.bind {ε α β : Type} {x y : Except ε α} {f g : α → Except ε β} (h : Agree x y)
    (hfg : ∀ a, Agree (f a) (g a)) : Agree (x >>= f) (y >>= g) := by
  intro b b' hb hb'
  obtain ⟨a, ha, hb⟩ := bind_eq_ok.mp hb
  obtain ⟨a', ha', hb'⟩ := bind_eq_ok.mp hb'
  obtain rfl := h a a' ha ha'
  exact hfg a b b' hb hb'

/-- A record says the same whenever it is accepted. -/
theorem validateEvidenceRecord_agree (value : Json) (source : SourceType) (allowError : Bool)
    (now now' : Instant) (path : String) :
    Agree (validateEvidenceRecord H value source allowError now path)
      (validateEvidenceRecord H value source allowError now' path) := by
  unfold validateEvidenceRecord
  iterate 12 refine (Agree.refl _).bind fun _ => ?_
  refine (Agree.unit _ _).bind fun _ => ?_
  iterate 3 refine (Agree.refl _).bind fun _ => ?_
  exact Agree.refl _

theorem validateRecords_agree {f g : ℕ → Json → Except EvidenceError EvidenceRecord}
    (h : ∀ n value, Agree (f n value) (g n value)) (n : ℕ) (values : List Json) :
    Agree (validateRecords f n values) (validateRecords g n values) := by
  induction values generalizing n with
  | nil => exact Agree.refl _
  | cons value values ih =>
    exact (h n value).bind fun _ => (ih (n + 1)).bind fun _ => Agree.refl _

theorem validatePhase0EvidenceBundle_agree (value : Json) (now now' : Instant) :
    Agree (validatePhase0EvidenceBundle H value now)
      (validatePhase0EvidenceBundle H value now') := by
  unfold validatePhase0EvidenceBundle
  iterate 6 refine (Agree.refl _).bind fun _ => ?_
  refine (validateRecords_agree (fun _ _ => validateEvidenceRecord_agree _ _ _ _ _ _) _ _).bind
    fun _ => ?_
  iterate 7 refine (Agree.refl _).bind fun _ => ?_
  exact Agree.refl _

theorem validatePhase0EvidenceSelection_agree (value : Json) (reportIds : List Text)
    (now now' : Instant) : Agree (validatePhase0EvidenceSelection H value reportIds now)
      (validatePhase0EvidenceSelection H value reportIds now') := by
  unfold validatePhase0EvidenceSelection
  iterate 12 refine (Agree.refl _).bind fun _ => ?_
  refine (validateRecords_agree (fun _ _ => validateEvidenceRecord_agree _ _ _ _ _ _) _ _).bind
    fun _ => ?_
  iterate 1 refine (Agree.refl _).bind fun _ => ?_
  exact Agree.refl _

theorem validateContent_agree (c : ImportContent) (now now' : Instant) :
    Agree (validateContent H c now) (validateContent H c now') := by
  cases c with
  | bundle value => exact (validatePhase0EvidenceBundle_agree _ _ _).bind fun _ => Agree.refl _
  | selection value ids =>
    exact (validatePhase0EvidenceSelection_agree _ _ _ _).bind fun _ => Agree.refl _
  | record value => exact (validateEvidenceRecord_agree _ _ _ _ _ _).bind fun _ => Agree.refl _

/-! ### What an accepted content is about -/

theorem validateEvidenceRecord_ids {value : Json} {source : SourceType} {allowError : Bool}
    {now : Instant} {path : String} {record : EvidenceRecord}
    (h : validateEvidenceRecord H value source allowError now path = .ok record) :
    record.source = source ∧
      requireUuid (value.field "evidence_run_id") (path ++ ".evidence_run_id") =
        .ok record.evidenceRunId := by
  unfold validateEvidenceRecord at h
  obtain ⟨_, -, h⟩ := bind_eq_ok.mp h
  obtain ⟨reportId, -, h⟩ := bind_eq_ok.mp h
  obtain ⟨runId, hrun, h⟩ := bind_eq_ok.mp h
  obtain ⟨capability, -, h⟩ := bind_eq_ok.mp h
  obtain ⟨result, -, h⟩ := bind_eq_ok.mp h
  obtain ⟨_, -, h⟩ := bind_eq_ok.mp h
  obtain ⟨dims, -, h⟩ := bind_eq_ok.mp h
  obtain ⟨_, -, h⟩ := bind_eq_ok.mp h
  obtain ⟨_, -, h⟩ := bind_eq_ok.mp h
  obtain ⟨_, -, h⟩ := bind_eq_ok.mp h
  obtain ⟨tested, -, h⟩ := bind_eq_ok.mp h
  obtain ⟨ttl, -, h⟩ := bind_eq_ok.mp h
  obtain ⟨_, -, h⟩ := bind_eq_ok.mp h
  obtain ⟨hash, -, h⟩ := bind_eq_ok.mp h
  obtain ⟨_, -, h⟩ := bind_eq_ok.mp h
  obtain ⟨_, -, h⟩ := bind_eq_ok.mp h
  obtain rfl := Except.ok.inj h
  exact ⟨rfl, hrun⟩

theorem validateRecords_mem {f : ℕ → Json → Except EvidenceError EvidenceRecord} {n : ℕ}
    {values : List Json} {records : List EvidenceRecord}
    (h : validateRecords f n values = .ok records) :
    ∀ record ∈ records, ∃ m, ∃ value ∈ values, f m value = .ok record := by
  induction values generalizing n records with
  | nil =>
    obtain rfl := Except.ok.inj h
    simp
  | cons value values ih =>
    obtain ⟨record, hrecord, h⟩ := bind_eq_ok.mp h
    obtain ⟨more, hmore, h⟩ := bind_eq_ok.mp h
    obtain rfl := Except.ok.inj h
    refine List.forall_mem_cons.mpr ⟨⟨n, value, List.mem_cons_self, hrecord⟩, fun r hr => ?_⟩
    obtain ⟨m, v, hv, hm⟩ := ih hmore r hr
    exact ⟨m, v, List.mem_cons_of_mem _ hv, hm⟩

theorem readRawRecord_run {runId : Text} {n : ℕ} {value : Json} {raw : RawRecord}
    (h : readRawRecord H runId n value = .ok raw) :
    raw.value.field "evidence_run_id" = .str runId := by
  unfold readRawRecord at h
  obtain ⟨_, -, h⟩ := bind_eq_ok.mp h
  obtain ⟨reportId, -, h⟩ := bind_eq_ok.mp h
  obtain ⟨_, hrun, h⟩ := bind_eq_ok.mp h
  obtain ⟨_, -, h⟩ := bind_eq_ok.mp h
  obtain ⟨_, -, h⟩ := bind_eq_ok.mp h
  obtain ⟨capability, -, h⟩ := bind_eq_ok.mp h
  obtain ⟨dims, -, h⟩ := bind_eq_ok.mp h
  obtain rfl := Except.ok.inj h
  rw [require_eq_ok] at hrun
  exact hasText_iff.mp hrun.1

theorem readRawRecords_run {runId : Text} {n : ℕ} {values : List Json} {raws : List RawRecord}
    (h : readRawRecords H runId n values = .ok raws) :
    ∀ raw ∈ raws, raw.value.field "evidence_run_id" = .str runId := by
  induction values generalizing n raws with
  | nil =>
    obtain rfl := Except.ok.inj h
    simp
  | cons value values ih =>
    obtain ⟨raw, hraw, h⟩ := bind_eq_ok.mp h
    obtain ⟨more, hmore, h⟩ := bind_eq_ok.mp h
    obtain rfl := Except.ok.inj h
    exact List.forall_mem_cons.mpr ⟨readRawRecord_run hraw, ih hmore⟩

theorem requireUuid_eq_ok {value : Json} {path : String} {t : Text}
    (h : requireUuid value path = .ok t) : value = .str t := by
  cases value with
  | str s =>
    obtain ⟨_, -, h⟩ := bind_eq_ok.mp h
    rw [Except.ok.inj h]
  | _ => simp [requireUuid] at h

/-- The records of a file are imported ones of the file's run. -/
def OfRun (b : ValidatedBundle) : Prop :=
  ∀ r ∈ b.records, r.source = .phase0Import ∧ r.evidenceRunId = b.evidenceRunId

/-- What the records of an accepted content have in common. -/
def Coherent : Validated → Prop
  | .bundle b | .selection b => OfRun b
  | .record r => r.source = .adminCapabilityTest

theorem validatePhase0EvidenceBundle_ofRun {value : Json} {now : Instant} {b : ValidatedBundle}
    (h : validatePhase0EvidenceBundle H value now = .ok b) : OfRun b := by
  unfold validatePhase0EvidenceBundle at h
  obtain ⟨_, -, h⟩ := bind_eq_ok.mp h
  obtain ⟨_, -, h⟩ := bind_eq_ok.mp h
  obtain ⟨runId, -, h⟩ := bind_eq_ok.mp h
  obtain ⟨_, -, h⟩ := bind_eq_ok.mp h
  obtain ⟨_, -, h⟩ := bind_eq_ok.mp h
  obtain ⟨_, -, h⟩ := bind_eq_ok.mp h
  obtain ⟨accepted, haccepted, h⟩ := bind_eq_ok.mp h
  obtain ⟨_, hrun, h⟩ := bind_eq_ok.mp h
  obtain ⟨_, -, h⟩ := bind_eq_ok.mp h
  obtain ⟨_, -, h⟩ := bind_eq_ok.mp h
  obtain ⟨_, -, h⟩ := bind_eq_ok.mp h
  obtain ⟨hash, -, h⟩ := bind_eq_ok.mp h
  obtain ⟨_, -, h⟩ := bind_eq_ok.mp h
  obtain ⟨_, -, h⟩ := bind_eq_ok.mp h
  obtain rfl := Except.ok.inj h
  rw [require_eq_ok] at hrun
  have hsource := validateRecords_forall (P := fun r => r.source = .phase0Import)
    (fun _ _ _ hrecord => (validateEvidenceRecord_ids hrecord).1) haccepted
  exact fun r hr => ⟨hsource r hr, hrun r hr⟩

theorem validatePhase0EvidenceSelection_ofRun {value : Json} {ids : List Text} {now : Instant}
    {b : ValidatedBundle} (h : validatePhase0EvidenceSelection H value ids now = .ok b) :
    OfRun b := by
  unfold validatePhase0EvidenceSelection at h
  obtain ⟨_, -, h⟩ := bind_eq_ok.mp h
  obtain ⟨runId, -, h⟩ := bind_eq_ok.mp h
  obtain ⟨_, -, h⟩ := bind_eq_ok.mp h
  obtain ⟨hash, -, h⟩ := bind_eq_ok.mp h
  obtain ⟨_, -, h⟩ := bind_eq_ok.mp h
  obtain ⟨_, -, h⟩ := bind_eq_ok.mp h
  obtain ⟨_, -, h⟩ := bind_eq_ok.mp h
  obtain ⟨_, -, h⟩ := bind_eq_ok.mp h
  obtain ⟨raws, hraws, h⟩ := bind_eq_ok.mp h
  obtain ⟨_, -, h⟩ := bind_eq_ok.mp h
  obtain ⟨_, -, h⟩ := bind_eq_ok.mp h
  obtain ⟨_, -, h⟩ := bind_eq_ok.mp h
  obtain ⟨accepted, haccepted, h⟩ := bind_eq_ok.mp h
  obtain ⟨_, -, h⟩ := bind_eq_ok.mp h
  obtain rfl := Except.ok.inj h
  intro r hr
  obtain ⟨n, v, hv, hrecord⟩ := validateRecords_mem haccepted r hr
  obtain ⟨raw, hraw, rfl⟩ := List.mem_map.mp hv
  obtain ⟨hsource, hid⟩ := validateEvidenceRecord_ids hrecord
  have hrun := readRawRecords_run hraws raw (List.mem_of_mem_filter hraw)
  rw [requireUuid_eq_ok hid] at hrun
  exact ⟨hsource, by simpa using hrun⟩

theorem validateContent_coherent {c : ImportContent} {now : Instant} {v : Validated}
    (h : validateContent H c now = .ok v) : Coherent v := by
  cases c with
  | bundle value =>
    obtain ⟨b, hb, h⟩ := bind_eq_ok.mp h
    obtain rfl := Except.ok.inj h
    exact validatePhase0EvidenceBundle_ofRun hb
  | selection value ids =>
    obtain ⟨b, hb, h⟩ := bind_eq_ok.mp h
    obtain rfl := Except.ok.inj h
    exact validatePhase0EvidenceSelection_ofRun hb
  | record value =>
    obtain ⟨r, hr, h⟩ := bind_eq_ok.mp h
    obtain rfl := Except.ok.inj h
    exact (validateEvidenceRecord_ids hr).1

/-! ### What is there already -/

/-- A row has the identity of the record. -/
structure Identifies (row : VoiceCapabilityEvidence) (r : EvidenceRecord) : Prop where
  report : row.evidenceReportId = r.evidenceReportId
  run : row.evidenceRunId = r.evidenceRunId
  capability : row.capabilityKey = r.capability.key.toList

/-- There is a row of the record. -/
def Present (s : ConfigStore) (r : EvidenceRecord) : Prop := ∃ row ∈ s.evidence, Identifies row r

theorem identifies_of_storedAs {row : VoiceCapabilityEvidence} {r : EvidenceRecord}
    (h : storedAs H row r = true) : Identifies row r := by
  simp only [storedAs, Bool.and_eq_true, decide_eq_true_eq] at h
  obtain ⟨⟨⟨⟨⟨⟨⟨⟨⟨⟨⟨⟨hreport, hrun⟩, hcapability⟩, -⟩, -⟩, -⟩, -⟩, -⟩, -⟩, -⟩, -⟩, -⟩, -⟩ := h
  exact ⟨hreport, hrun, hcapability⟩

theorem mem_existingAdminRows {s : ConfigStore} {row : VoiceCapabilityEvidence}
    {r : EvidenceRecord} (hrow : row ∈ s.evidence) (h : Identifies row r) :
    row ∈ existingAdminRows s r := by
  simp [existingAdminRows, hrow, h.report]

/-- A record is pending or there. -/
theorem pendingRecords_covers {s : ConfigStore} {records pending : List EvidenceRecord}
    (h : pendingRecords H s records = .ok pending) : ∀ r ∈ records, r ∈ pending ∨ Present s r := by
  induction records generalizing pending with
  | nil => simp
  | cons record records ih =>
    obtain ⟨more, hmore, h⟩ := bind_eq_ok.mp h
    have hrest := ih hmore
    split at h
    · obtain rfl := Except.ok.inj h
      refine List.forall_mem_cons.mpr ⟨.inl List.mem_cons_self, fun r hr => ?_⟩
      exact (hrest r hr).imp_left (List.mem_cons_of_mem _)
    · rename_i row hexisting
      obtain ⟨_, hstored, h⟩ := bind_eq_ok.mp h
      obtain rfl := Except.ok.inj h
      rw [require_eq_ok] at hstored
      have hrow : row ∈ s.evidence := List.mem_of_mem_filter (hexisting ▸ List.mem_singleton_self row)
      exact List.forall_mem_cons.mpr ⟨.inr ⟨row, hrow, identifies_of_storedAs hstored⟩, hrest⟩
    · simp at h

/-- Nothing is pending where everything is there. -/
theorem pendingRecords_of_present {s : ConfigStore} {records pending : List EvidenceRecord}
    (h : pendingRecords H s records = .ok pending) (hpresent : ∀ r ∈ records, Present s r) :
    pending = [] := by
  induction records generalizing pending with
  | nil => exact (Except.ok.inj h).symm
  | cons record records ih =>
    obtain ⟨more, hmore, h⟩ := bind_eq_ok.mp h
    obtain ⟨⟨row, hrow, hids⟩, hrest⟩ := List.forall_mem_cons.mp hpresent
    have hmem := mem_existingAdminRows hrow hids
    split at h
    · rename_i hnone
      simp [hnone] at hmem
    · obtain ⟨_, -, h⟩ := bind_eq_ok.mp h
      obtain rfl := Except.ok.inj h
      exact ih hmore hrest
    · simp at h

/-- A decision leaves no record out. -/
theorem decideImport_covers {v : Validated} {s : ConfigStore} {pending : List EvidenceRecord}
    (h : decideImport H v s = .ok pending) : ∀ r ∈ v.records, r ∈ pending ∨ Present s r := by
  cases v with
  | bundle b =>
    simp only [decideImport] at h
    split_ifs at h
    · obtain rfl := Except.ok.inj h
      exact fun r hr => .inl hr
    · obtain ⟨_, hok, h⟩ := bind_eq_ok.mp h
      rw [require_eq_ok] at hok
      refine fun r hr => .inr ?_
      obtain ⟨row, hrow, hstored⟩ := List.any_eq_true.mp (List.all_eq_true.mp hok.2.1 r hr)
      exact ⟨row, List.mem_of_mem_filter hrow, identifies_of_storedAs hstored⟩
  | selection b =>
    obtain ⟨_, -, h⟩ := bind_eq_ok.mp h
    exact pendingRecords_covers h
  | record r => exact pendingRecords_covers h

/-- Content that is there is not written again. -/
theorem decideImport_of_present {v : Validated} {s : ConfigStore} {pending : List EvidenceRecord}
    (h : decideImport H v s = .ok pending) (hpresent : ∀ r ∈ v.records, Present s r) :
    pending = [] := by
  cases v with
  | bundle b =>
    simp only [decideImport] at h
    split_ifs at h with hempty
    · obtain rfl := Except.ok.inj h
      rw [List.isEmpty_iff, List.filter_eq_nil_iff] at hempty
      refine List.eq_nil_iff_forall_not_mem.mpr fun r hr => ?_
      obtain ⟨row, hrow, hids⟩ := hpresent r hr
      have hnot := hempty row hrow
      rw [decide_eq_true_eq, hids.report] at hnot
      exact hnot (.inr (List.mem_map_of_mem hr))
    · obtain ⟨_, -, h⟩ := bind_eq_ok.mp h
      exact (Except.ok.inj h).symm
  | selection b =>
    obtain ⟨_, -, h⟩ := bind_eq_ok.mp h
    exact pendingRecords_of_present h hpresent
  | record r => exact pendingRecords_of_present h hpresent

theorem decideImport_subset {v : Validated} {s : ConfigStore} {pending : List EvidenceRecord}
    (h : decideImport H v s = .ok pending) : ∀ r ∈ pending, r ∈ v.records := by
  cases v with
  | bundle b =>
    simp only [decideImport] at h
    split_ifs at h
    · obtain rfl := Except.ok.inj h
      exact fun r hr => hr
    · obtain ⟨_, -, h⟩ := bind_eq_ok.mp h
      obtain rfl := Except.ok.inj h
      simp
  | selection b =>
    obtain ⟨_, -, h⟩ := bind_eq_ok.mp h
    exact pendingRecords_subset h
  | record r => exact pendingRecords_subset h

/-! ### The rows of a commit -/

theorem newEvidenceRow_identifies {r : EvidenceRecord} {operatorId : ℕ}
    {row : VoiceCapabilityEvidence} (h : newEvidenceRow H r operatorId = .ok row) :
    Identifies row r ∧ row.sourceType = r.source.name.toList := by
  unfold newEvidenceRow at h
  obtain ⟨tested, -, h⟩ := bind_eq_ok.mp h
  obtain ⟨verified, -, h⟩ := bind_eq_ok.mp h
  obtain ⟨expires, -, h⟩ := bind_eq_ok.mp h
  obtain rfl := Except.ok.inj h
  exact ⟨⟨rfl, rfl, rfl⟩, rfl⟩

/-- Every record gets its row, and there are no other rows. -/
theorem newRows_forall₂ {operatorId : ℕ} {records : List EvidenceRecord}
    {rows : List VoiceCapabilityEvidence} (h : newRows H operatorId records = .ok rows) :
    List.Forall₂ (fun r row => Identifies row r ∧ row.sourceType = r.source.name.toList)
      records rows := by
  induction records generalizing rows with
  | nil =>
    obtain rfl := Except.ok.inj h
    exact .nil
  | cons record records ih =>
    obtain ⟨row, hrow, h⟩ := bind_eq_ok.mp h
    obtain ⟨more, hmore, h⟩ := bind_eq_ok.mp h
    obtain rfl := Except.ok.inj h
    exact .cons (newEvidenceRow_identifies hrow) (ih hmore)

theorem exists_of_forall₂ {α β : Type} {R : α → β → Prop} {xs : List α} {ys : List β}
    (h : List.Forall₂ R xs ys) {y : β} (hy : y ∈ ys) : ∃ x ∈ xs, R x y := by
  induction h with
  | nil => simp at hy
  | cons hxy _ ih =>
    rcases List.mem_cons.mp hy with rfl | hy
    · exact ⟨_, List.mem_cons_self, hxy⟩
    · obtain ⟨x, hx, hR⟩ := ih hy
      exact ⟨x, List.mem_cons_of_mem _ hx, hR⟩

/-- What a commit writes. -/
structure Committed (v : Validated) (pending : List EvidenceRecord)
    (rows : List VoiceCapabilityEvidence) (s s' : ConfigStore) : Prop where
  evidence : s'.evidence = s.evidence ++ rows
  importLog : s'.importLog = s.importLog ++ v.log
  unique : UniqueEvidence (s.evidence ++ rows)
  rows : List.Forall₂ (fun r row => Identifies row r ∧ row.sourceType = r.source.name.toList)
    pending rows

/-- The parts of a commit. -/
theorem commitImport_parts {v : Validated} {user : AdminUser} {pending : List EvidenceRecord}
    {rows : List VoiceCapabilityEvidence} {s s' : ConfigStore}
    (h : commitImport H v user pending s = .ok (rows, s')) :
    UniqueEvidence (s.evidence ++ rows) ∧ checkReadBack H v rows pending = .ok () ∧
      ∃ written, appendRecords H user pending s = .ok (rows, written) ∧
        s' = { written with importLog := s.importLog ++ v.log } := by
  unfold commitImport at h
  obtain ⟨rows', hrows, h⟩ := bind_eq_ok.mp h
  obtain ⟨_, hunique, h⟩ := bind_eq_ok.mp h
  obtain ⟨_, hread, h⟩ := bind_eq_ok.mp h
  obtain ⟨⟨rows'', written⟩, happend, h⟩ := bind_eq_ok.mp h
  obtain ⟨rfl, rfl⟩ := by simpa using h
  rw [require_eq_ok] at hunique
  obtain rfl := Except.ok.inj ((mapError_eq_ok.mp hrows).symm.trans (appendRecords_spec happend).1)
  exact ⟨hunique, hread, written, happend, rfl⟩

theorem commitImport_spec {v : Validated} {user : AdminUser} {pending : List EvidenceRecord}
    {rows : List VoiceCapabilityEvidence} {s s' : ConfigStore}
    (h : commitImport H v user pending s = .ok (rows, s')) : Committed v pending rows s s' := by
  obtain ⟨hunique, -, written, happend, rfl⟩ := commitImport_parts h
  obtain ⟨hrows, base, -, -, rfl⟩ := appendRecords_spec happend
  exact ⟨rfl, rfl, hunique, newRows_forall₂ hrows⟩

/-! ### Calls that run alone -/

def lockFor (v : Validated) (s : ConfigStore) : Except ConfigError Unit :=
  if v.anchors then lockImportAnchor s else .ok ()

/-- The steps of a call with nothing in between. -/
def importAlone (H : Host) (c : ImportContent) (operator : Option AdminUser) (now : Instant)
    (s : ConfigStore) : Except ConfigError ConfigStore := do
  let v ← (validateContent H c now).mapError ConfigError.evidence
  lockFor v s
  let user ← verifiedOperator operator
  let pending ← decideImport H v s
  if pending.isEmpty then .ok s
  else do
    let (_, written) ← commitImport H v user pending s
    .ok written

/-- The transaction of the call on the rows as a whole. -/
def importWhole (H : Host) (c : ImportContent) (operator : Option AdminUser) (now : Instant)
    (s : ConfigStore) : Except ConfigError ConfigStore :=
  match c with
  | .bundle value => importPhase0EvidenceBundle H value operator now s
  | .selection value ids => importPhase0EvidenceSelection H value ids operator now s
  | .record value => appendAdminCapabilityEvidence H value operator now s

theorem validateRecords_length {f : ℕ → Json → Except EvidenceError EvidenceRecord} {n : ℕ}
    {values : List Json} {records : List EvidenceRecord}
    (h : validateRecords f n values = .ok records) : records.length = values.length := by
  induction values generalizing n records with
  | nil =>
    obtain rfl := Except.ok.inj h
    rfl
  | cons value values ih =>
    obtain ⟨record, -, h⟩ := bind_eq_ok.mp h
    obtain ⟨more, hmore, h⟩ := bind_eq_ok.mp h
    obtain rfl := Except.ok.inj h
    simp [ih hmore]

theorem validatePhase0EvidenceBundle_nonempty {value : Json} {now : Instant} {b : ValidatedBundle}
    (h : validatePhase0EvidenceBundle H value now = .ok b) : b.records.isEmpty = false := by
  unfold validatePhase0EvidenceBundle at h
  obtain ⟨_, -, h⟩ := bind_eq_ok.mp h
  obtain ⟨_, -, h⟩ := bind_eq_ok.mp h
  obtain ⟨runId, -, h⟩ := bind_eq_ok.mp h
  obtain ⟨_, -, h⟩ := bind_eq_ok.mp h
  obtain ⟨_, -, h⟩ := bind_eq_ok.mp h
  obtain ⟨_, hsix, h⟩ := bind_eq_ok.mp h
  obtain ⟨accepted, haccepted, h⟩ := bind_eq_ok.mp h
  obtain ⟨_, -, h⟩ := bind_eq_ok.mp h
  obtain ⟨_, -, h⟩ := bind_eq_ok.mp h
  obtain ⟨_, -, h⟩ := bind_eq_ok.mp h
  obtain ⟨_, -, h⟩ := bind_eq_ok.mp h
  obtain ⟨hash, -, h⟩ := bind_eq_ok.mp h
  obtain ⟨_, -, h⟩ := bind_eq_ok.mp h
  obtain ⟨_, -, h⟩ := bind_eq_ok.mp h
  obtain rfl := Except.ok.inj h
  rw [require_eq_ok] at hsix
  have hlength := (validateRecords_length haccepted).trans hsix
  cases accepted with
  | nil => simp at hlength
  | cons r rest => rfl

/-- A call that runs alone does what its transaction does. -/
theorem importAlone_whole {c : ImportContent} {operator : Option AdminUser} {now : Instant}
    {s s' : ConfigStore} (h : importAlone H c operator now s = .ok s') :
    importWhole H c operator now s = .ok s' := by
  obtain ⟨v, hv, h⟩ := bind_eq_ok.mp h
  obtain ⟨_, hlock, h⟩ := bind_eq_ok.mp h
  obtain ⟨user, huser, h⟩ := bind_eq_ok.mp h
  obtain ⟨pending, hdecide, h⟩ := bind_eq_ok.mp h
  rw [mapError_eq_ok] at hv
  cases c with
  | bundle value =>
    obtain ⟨b, hb, hv⟩ := bind_eq_ok.mp hv
    obtain rfl := Except.ok.inj hv
    refine bind_eq_ok.mpr ⟨b, mapError_eq_ok.mpr hb, bind_eq_ok.mpr ⟨(), hlock,
      bind_eq_ok.mpr ⟨user, huser, ?_⟩⟩⟩
    simp only [decideImport] at hdecide
    split_ifs at hdecide with hempty
    · obtain rfl := Except.ok.inj hdecide
      rw [if_neg (by simp [validatePhase0EvidenceBundle_nonempty hb])] at h
      obtain ⟨⟨rows, s₁⟩, hcommit, h⟩ := bind_eq_ok.mp h
      obtain rfl := Except.ok.inj h
      obtain ⟨-, -, written, happend, rfl⟩ := commitImport_parts hcommit
      dsimp only
      rw [if_pos hempty]
      exact bind_eq_ok.mpr ⟨(rows, written), happend, rfl⟩
    · obtain ⟨_, hsame, hdecide⟩ := bind_eq_ok.mp hdecide
      obtain rfl := Except.ok.inj hdecide
      obtain rfl := Except.ok.inj h
      dsimp only
      rw [if_neg hempty]
      exact bind_eq_ok.mpr ⟨(), hsame, rfl⟩
  | selection value ids =>
    obtain ⟨b, hb, hv⟩ := bind_eq_ok.mp hv
    obtain rfl := Except.ok.inj hv
    obtain ⟨_, hlogs, hdecide⟩ := bind_eq_ok.mp hdecide
    refine bind_eq_ok.mpr ⟨b, mapError_eq_ok.mpr hb, bind_eq_ok.mpr ⟨(), hlock,
      bind_eq_ok.mpr ⟨user, huser, bind_eq_ok.mpr ⟨(), hlogs, bind_eq_ok.mpr ⟨pending, hdecide, ?_⟩⟩⟩⟩⟩
    dsimp only
    split_ifs at h ⊢ with hempty
    · exact h
    · obtain ⟨⟨rows, s₁⟩, hcommit, h⟩ := bind_eq_ok.mp h
      obtain rfl := Except.ok.inj h
      obtain ⟨-, hread, written, happend, rfl⟩ := commitImport_parts hcommit
      exact bind_eq_ok.mpr ⟨(rows, written), happend, bind_eq_ok.mpr ⟨(), hread, rfl⟩⟩
  | record value =>
    obtain ⟨r, hr, hv⟩ := bind_eq_ok.mp hv
    obtain rfl := Except.ok.inj hv
    refine bind_eq_ok.mpr ⟨r, mapError_eq_ok.mpr hr, bind_eq_ok.mpr ⟨user, huser, ?_⟩⟩
    obtain ⟨more, hmore, hdecide⟩ := bind_eq_ok.mp hdecide
    obtain rfl := Except.ok.inj hmore
    split at hdecide
    · obtain rfl := Except.ok.inj hdecide
      obtain ⟨⟨rows, s₁⟩, hcommit, h⟩ := bind_eq_ok.mp h
      obtain rfl := Except.ok.inj h
      obtain ⟨-, -, written, happend, rfl⟩ := commitImport_parts hcommit
      refine bind_eq_ok.mpr ⟨(rows, written), happend, ?_⟩
      obtain ⟨-, base, -, -, rfl⟩ := appendRecords_spec happend
      simp [ConfigStore.imported, Validated.log]
    · obtain ⟨_, hstored, hdecide⟩ := bind_eq_ok.mp hdecide
      obtain rfl := Except.ok.inj hdecide
      obtain rfl := Except.ok.inj h
      exact bind_eq_ok.mpr ⟨(), hstored, rfl⟩
    · simp at hdecide

/-! ### Other transactions -/

/-- Whatever the computation gives. -/
def Ensures {ε α : Type} (P : α → Prop) (x : Except ε α) : Prop := ∀ a, x = .ok a → P a

theorem Ensures.ok {ε α : Type} {P : α → Prop} {a : α} (h : P a) :
    Ensures P (Except.ok a : Except ε α) := by
  intro b hb
  obtain rfl := Except.ok.inj hb
  exact h

theorem Ensures.bind {ε α β : Type} {P : β → Prop} {x : Except ε α} {f : α → Except ε β}
    (h : ∀ a, Ensures P (f a)) : Ensures P (x >>= f) := by
  intro b hb
  obtain ⟨a, -, hb⟩ := bind_eq_ok.mp hb
  exact h a b hb

/-- Rows of evidence and logs of imports are as before. -/
def SameEvidence (s s' : ConfigStore) : Prop :=
  s'.evidence = s.evidence ∧ s'.importLog = s.importLog

theorem discardDraftSection_sameEvidence (key : ConfigKey) (sec : String) (s : ConfigStore) :
    Ensures (SameEvidence s) (discardDraftSection key sec s) := by
  unfold discardDraftSection
  iterate 2 refine Ensures.bind fun _ => ?_
  dsimp only
  split_ifs
  · exact .ok ⟨rfl, rfl⟩
  · exact .ok ⟨rfl, rfl⟩

theorem forceCapabilityTest_sameEvidence (admin : AdminUser) (request : ForceRequest)
    (s : ConfigStore) : Ensures (SameEvidence s) (forceCapabilityTest H admin request s) := by
  unfold forceCapabilityTest
  iterate 7 refine Ensures.bind fun _ => ?_
  exact .ok ⟨rfl, rfl⟩

theorem initializeDefaults_sameEvidence (key : ConfigKey) (ref : Option Json) (s : ConfigStore) :
    Ensures (SameEvidence s) (initializeDefaults H template key ref s) := by
  unfold initializeDefaults
  split_ifs
  · exact .ok ⟨rfl, rfl⟩
  · iterate 2 refine Ensures.bind fun _ => ?_
    exact .ok ⟨rfl, rfl⟩

/-- Only the importers touch the evidence. -/
theorem transact_sameEvidence {op : Operation} (hop : notImport op = true) (s : ConfigStore) :
    Ensures (SameEvidence s) (transact H template .voiceCallConfig op s) := by
  cases op with
  | saveDraftSection sec version revision content =>
    change Ensures _ (saveDraftSection H _ sec version revision content s)
    unfold saveDraftSection
    iterate 7 refine Ensures.bind fun _ => ?_
    exact .ok ⟨rfl, rfl⟩
  | discardDraftSection sec => exact discardDraftSection_sameEvidence _ sec s
  | discardDraft => exact Ensures.bind fun _ => .ok ⟨rfl, rfl⟩
  | forceCapabilityTest admin request => exact forceCapabilityTest_sameEvidence admin request s
  | importPhase0EvidenceBundle bundle operator t => simp [notImport] at hop
  | importPhase0EvidenceSelection bundle ids operator t => simp [notImport] at hop
  | appendAdminCapabilityEvidence record operator t => simp [notImport] at hop
  | publish request =>
    exact Ensures.bind fun _ => Ensures.bind fun _ => Ensures.bind fun _ => .ok ⟨rfl, rfl⟩
  | rollback version request =>
    exact Ensures.bind fun _ => Ensures.bind fun _ => Ensures.bind fun _ => .ok ⟨rfl, rfl⟩
  | initializeDefaults ref => exact initializeDefaults_sameEvidence _ ref s

/-! ### What calls rely on -/

/-- The logs of the file's run are of this file. -/
def LogFits (s : ConfigStore) : Validated → Prop
  | .bundle b | .selection b =>
    ∀ log ∈ s.importLog, log.evidenceRunId = b.evidenceRunId → log.bundleSha256 = b.bundleSha256
  | .record _ => True

/-- A call that is going to write. -/
structure PlanFits (d : ImportData) (c : ImportContent) (seen : ℕ) (v : Validated)
    (pending : List EvidenceRecord) : Prop where
  fresh : c ∉ d.succeeded.take seen
  nonempty : pending ≠ []
  subset : ∀ r ∈ pending, r ∈ v.records
  covers : ∀ r ∈ v.records, r ∈ pending ∨ Present d.store r
  log : LogFits d.store v

/-- The content was accepted at some time. -/
def Accepted (H : Host) (c : ImportContent) (v : Validated) : Prop :=
  ∃ now, validateContent H c now = .ok v

def Relies (H : Host) (d : ImportData) : ImportTask → Prop
  | .called _ seen => seen ≤ d.succeeded.length
  | .validated c seen v => seen ≤ d.succeeded.length ∧ Accepted H c v
  | .opened c seen v => seen ≤ d.succeeded.length ∧ Accepted H c v ∧
      (v.anchors = true → d.anchorLocked = true)
  | .planned c seen v _ pending => seen ≤ d.succeeded.length ∧ Accepted H c v ∧
      (v.anchors = true → d.anchorLocked = true) ∧ PlanFits d c seen v pending
  | .other op => notImport op = true

/-- What is kept about rows, logs and calls that returned. -/
structure Kept (H : Host) (d : ImportData) : Prop where
  unique : UniqueEvidence d.store.evidence
  traced : ∀ row ∈ d.store.evidence, row.sourceType = SourceType.phase0Import.name.toList →
    ∃ hash, (row, hash) ∈ d.origins
  logged : ∀ e ∈ d.origins, ∃ log ∈ d.store.importLog,
    log.evidenceRunId = e.1.evidenceRunId ∧ log.bundleSha256 = e.2
  oneFile : ∀ log ∈ d.store.importLog, ∀ log' ∈ d.store.importLog,
    log.evidenceRunId = log'.evidenceRunId → log.bundleSha256 = log'.bundleSha256
  stored : ∀ log ∈ d.store.importLog, ∃ row ∈ d.store.evidence,
    row.evidenceRunId = log.evidenceRunId
  done : ∀ c ∈ d.succeeded, ∀ v, Accepted H c v → ∀ r ∈ v.records, Present d.store r

/-- Rows and returned calls are only added. -/
structure Grows (d d' : ImportData) : Prop where
  evidence : d.store.evidence <+: d'.store.evidence
  succeeded : d.succeeded <+: d'.succeeded

/-- The logs of imports are left to the holder of the configuration's rows. -/
def LeavesLog (d d' : ImportData) : Prop :=
  d'.store.importLog = d.store.importLog ∧ d'.anchorLocked = true

theorem Present.mono {s s' : ConfigStore} {r : EvidenceRecord} (h : Present s r)
    (hs : s.evidence <+: s'.evidence) : Present s' r :=
  have ⟨row, hrow, hids⟩ := h
  ⟨row, hs.subset hrow, hids⟩

theorem take_eq_of_isPrefix {α : Type*} {xs ys : List α} {n : ℕ} (h : xs <+: ys) (hn : n ≤ xs.length) :
    ys.take n = xs.take n := by
  obtain ⟨rest, rfl⟩ := h
  exact List.take_append_of_le_length hn

theorem LogFits.of_eq {s s' : ConfigStore} {v : Validated} (h : LogFits s v)
    (hlog : v.anchors = true → s'.importLog = s.importLog) : LogFits s' v := by
  cases v with
  | bundle b =>
    rw [LogFits, hlog rfl]
    exact h
  | selection b =>
    rw [LogFits, hlog rfl]
    exact h
  | record r => trivial

theorem Relies.mono {d d' : ImportData} {t : ImportTask} (h : Relies H d t) (hs : Grows d d')
    (hlock : t.holdsAnchor = true → LeavesLog d d') : Relies H d' t := by
  have hle := hs.succeeded.length_le
  cases t with
  | called c seen => exact le_trans h hle
  | validated c seen v => exact ⟨h.1.trans hle, h.2⟩
  | opened c seen v => exact ⟨h.1.trans hle, h.2.1, fun hv => (hlock hv).2⟩
  | planned c seen v user pending =>
    obtain ⟨hseen, haccepted, -, hplan⟩ := h
    refine ⟨hseen.trans hle, haccepted, fun hv => (hlock hv).2, ?_, hplan.nonempty, hplan.subset,
      fun r hr => (hplan.covers r hr).imp_right fun hp => hp.mono hs.evidence,
      hplan.log.of_eq fun hv => (hlock hv).1⟩
    rw [take_eq_of_isPrefix hs.succeeded hseen]
    exact hplan.fresh
  | other op => exact h

theorem lockDiscipline : TaskSystem.LockDiscipline (Relies H) ImportTask.holdsAnchor
    (fun d => d.anchorLocked = true) Grows LeavesLog where
  locked {d t} h ht := by
    cases t with
    | opened c seen v => exact h.2.2 ht
    | planned c seen v user pending => exact h.2.2.1 ht
    | _ => simp [ImportTask.holdsAnchor] at ht
  stable h hs hlock := h.mono hs hlock

/-- What one step of a call may not do. -/
structure StepSound (d : ImportData) (t : ImportTask) (d' : ImportData) : Prop where
  immutable : d.store.evidence <+: d'.store.evidence
  raised : d'.raised ≠ d.raised → d'.store = d.store ∧ d'.appendLog = d.appendLog
  repeated : t.Repeats d → d'.store = d.store ∧ d'.appendLog = d.appendLog

structure StepSpec (H : Host) (d d' : ImportData) (t : ImportTask) (ts : List ImportTask) :
    Prop where
  lock : TaskSystem.LockStep (Kept H) (Relies H) ImportTask.holdsAnchor
    (fun d => d.anchorLocked = true) Grows LeavesLog d d' t ts
  sound : StepSound d t d'

/-! ### Steps that write nothing -/

/-- The rows, the logs and the returned calls are as before. -/
structure Same (d d' : ImportData) : Prop where
  store : d'.store = d.store
  appendLog : d'.appendLog = d.appendLog
  origins : d'.origins = d.origins
  succeeded : d'.succeeded = d.succeeded

theorem same_refl (d : ImportData) : Same d d := ⟨rfl, rfl, rfl, rfl⟩

theorem same_release (d : ImportData) (t : ImportTask) : Same d (d.release t) := by
  unfold ImportData.release
  split_ifs <;> exact ⟨rfl, rfl, rfl, rfl⟩

theorem same_fail (d : ImportData) (t : ImportTask) : Same d (d.fail t) :=
  have h := same_release d t
  ⟨h.store, h.appendLog, h.origins, h.succeeded⟩

theorem Same.kept {d d' : ImportData} (h : Same d d') (hd : Kept H d) : Kept H d' where
  unique := h.store ▸ hd.unique
  traced := by rw [h.store, h.origins]; exact hd.traced
  logged := by rw [h.store, h.origins]; exact hd.logged
  oneFile := h.store ▸ hd.oneFile
  stored := h.store ▸ hd.stored
  done := by rw [h.store, h.succeeded]; exact hd.done

theorem Same.grows {d d' : ImportData} (h : Same d d') : Grows d d' :=
  ⟨h.store ▸ List.prefix_refl _, h.succeeded ▸ List.prefix_refl _⟩

theorem Same.sound {d d' : ImportData} {t : ImportTask} (h : Same d d') : StepSound d t d' :=
  ⟨h.grows.evidence, fun _ => ⟨h.store, h.appendLog⟩, fun _ => ⟨h.store, h.appendLog⟩⟩

/-- The lock stays with its holder when another call ends. -/
theorem release_anchorLocked {d : ImportData} {t : ImportTask} (ht : t.holdsAnchor = false)
    (hlocked : d.anchorLocked = true) : (d.release t).anchorLocked = true := by
  simpa [ImportData.release, ht] using hlocked

/-- A call raises. -/
theorem spec_fail {d : ImportData} (t : ImportTask) (hd : Kept H d) :
    StepSpec H d (d.fail t) t [] where
  lock :=
    { data := (same_fail d t).kept hd
      frame := (same_fail d t).grows
      tasks := by simp
      single := by simp
      guarded := fun ht hlocked =>
        ⟨⟨by rw [(same_fail d t).store], release_anchorLocked ht hlocked⟩, by simp⟩ }
  sound := (same_fail d t).sound

/-- A call goes on. -/
theorem spec_next {d : ImportData} {t t' : ImportTask} (hd : Kept H d) (ht' : Relies H d t')
    (hholds : t'.holdsAnchor = true → t.holdsAnchor = true) : StepSpec H d d t [t'] where
  lock :=
    { data := hd
      frame := (same_refl d).grows
      tasks := by simpa using ht'
      single := by simp
      guarded := fun ht hlocked => ⟨⟨rfl, hlocked⟩, by
        simp only [List.mem_singleton, forall_eq]
        cases h : t'.holdsAnchor with
        | false => rfl
        | true => rw [hholds h] at ht; exact ht⟩ }
  sound := (same_refl d).sound

/-- What a call that returns has to have done. -/
theorem done_append {d : ImportData} {c : ImportContent} {v : Validated} {s : ConfigStore}
    (hdone : ∀ c' ∈ d.succeeded, ∀ v', Accepted H c' v' → ∀ r ∈ v'.records, Present s r)
    (hc : Accepted H c v) (hpresent : ∀ r ∈ v.records, Present s r) :
    ∀ c' ∈ d.succeeded ++ [c], ∀ v', Accepted H c' v' → ∀ r ∈ v'.records, Present s r := by
  intro c' hc' v' hv'
  rcases List.mem_append.mp hc' with hc' | hc'
  · exact hdone c' hc' v' hv'
  · obtain rfl := List.mem_singleton.mp hc'
    obtain ⟨now, hnow⟩ := hc
    obtain ⟨now', hnow'⟩ := hv'
    obtain rfl := validateContent_agree c' now now' _ _ hnow hnow'
    exact hpresent

theorem kept_succeed {d : ImportData} (t : ImportTask) {c : ImportContent} {v : Validated}
    (hd : Kept H d) (hc : Accepted H c v) (hpresent : ∀ r ∈ v.records, Present d.store r) :
    Kept H (d.succeed t c) := by
  have hr := same_release d t
  have hkept := hr.kept hd
  refine ⟨hkept.unique, hkept.traced, hkept.logged, hkept.oneFile, hkept.stored, ?_⟩
  change ∀ c' ∈ d.succeeded ++ [c], ∀ v', Accepted H c' v' →
    ∀ r ∈ v'.records, Present (d.release t).store r
  rw [hr.store]
  exact done_append hd.done hc hpresent

/-- A call returns without having written. -/
theorem spec_idempotent {d : ImportData} (t : ImportTask) {c : ImportContent} {v : Validated}
    (hd : Kept H d) (hc : Accepted H c v) (hpresent : ∀ r ∈ v.records, Present d.store r) :
    StepSpec H d (d.succeed t c) t [] := by
  have hr := same_release d t
  have hstore : (d.succeed t c).store = d.store := hr.store
  have hlog : (d.succeed t c).appendLog = d.appendLog := hr.appendLog
  exact
    { lock :=
        { data := kept_succeed t hd hc hpresent
          frame := ⟨hstore ▸ List.prefix_refl _, List.prefix_append _ _⟩
          tasks := by simp
          single := by simp
          guarded := fun ht hlocked => ⟨⟨by rw [hstore], release_anchorLocked ht hlocked⟩, by simp⟩ }
      sound := ⟨hstore ▸ List.prefix_refl _, fun _ => ⟨hstore, hlog⟩, fun _ => ⟨hstore, hlog⟩⟩ }

/-! ### The commit -/

/-- The rows of a commit are traced to its file. -/
theorem traced_commit {d : ImportData} {v : Validated} {pending : List EvidenceRecord}
    {rows : List VoiceCapabilityEvidence} {s : ConfigStore} (hd : Kept H d) (hv : Coherent v)
    (hsubset : ∀ r ∈ pending, r ∈ v.records) (h : Committed v pending rows d.store s) :
    ∀ row ∈ s.evidence, row.sourceType = SourceType.phase0Import.name.toList →
      ∃ hash, (row, hash) ∈ (d.commit v rows s).origins := by
  intro row hrow hsource
  rw [h.evidence] at hrow
  rcases List.mem_append.mp hrow with hold | hnew
  · obtain ⟨hash, hmem⟩ := hd.traced row hold hsource
    exact ⟨hash, List.mem_append_left _ hmem⟩
  · cases v with
    | bundle b => exact ⟨b.bundleSha256, List.mem_append_right _ (List.mem_map_of_mem hnew)⟩
    | selection b => exact ⟨b.bundleSha256, List.mem_append_right _ (List.mem_map_of_mem hnew)⟩
    | record r =>
      obtain ⟨r', hr', -, hkind⟩ := exists_of_forall₂ h.rows hnew
      obtain rfl : r' = r := by simpa [Validated.records] using hsubset r' hr'
      rw [hsource, show r'.source = .adminCapabilityTest from hv] at hkind
      exact absurd hkind (by decide)

/-- Every traced row has a log of its file. -/
theorem log_of_origin {v : Validated} {pending : List EvidenceRecord}
    {rows : List VoiceCapabilityEvidence} {s s' : ConfigStore} (hv : Coherent v)
    (hsubset : ∀ r ∈ pending, r ∈ v.records) (h : Committed v pending rows s s') :
    ∀ e ∈ ImportData.originsOf v rows, ∃ log ∈ v.log,
      log.evidenceRunId = e.1.evidenceRunId ∧ log.bundleSha256 = e.2 := by
  have hrun : ∀ b : ValidatedBundle, v.records = b.records → OfRun b → ∀ row ∈ rows,
      b.evidenceRunId = row.evidenceRunId := by
    intro b hb hof row hrow
    obtain ⟨r, hr, hids, -⟩ := exists_of_forall₂ h.rows hrow
    rw [hids.run, (hof r (hb ▸ hsubset r hr)).2]
  cases v with
  | bundle b =>
    intro e he
    obtain ⟨row, hrow, rfl⟩ := List.mem_map.mp he
    exact ⟨_, List.mem_singleton_self _, hrun b rfl hv row hrow, rfl⟩
  | selection b =>
    intro e he
    obtain ⟨row, hrow, rfl⟩ := List.mem_map.mp he
    exact ⟨_, List.mem_singleton_self _, hrun b rfl hv row hrow, rfl⟩
  | record r => simp [ImportData.originsOf]

/-- The new log is of the file that the old logs of its run are of. -/
theorem LogFits.agrees {s : ConfigStore} {v : Validated} (h : LogFits s v) :
    ∀ log ∈ s.importLog, ∀ log' ∈ v.log, log.evidenceRunId = log'.evidenceRunId →
      log.bundleSha256 = log'.bundleSha256 := by
  intro log hlog log' hlog' hrun
  cases v with
  | bundle b =>
    obtain rfl := List.mem_singleton.mp hlog'
    exact h log hlog hrun
  | selection b =>
    obtain rfl := List.mem_singleton.mp hlog'
    exact h log hlog hrun
  | record r => simp [Validated.log] at hlog'

theorem log_unique {v : Validated} {log log' : ImportAudit} (h : log ∈ v.log) (h' : log' ∈ v.log) :
    log = log' := by
  cases v with
  | bundle b => rw [List.mem_singleton.mp h, List.mem_singleton.mp h']
  | selection b => rw [List.mem_singleton.mp h, List.mem_singleton.mp h']
  | record r => simp [Validated.log] at h

/-- A log is of the run of every record of its file. -/
theorem log_run {v : Validated} {log : ImportAudit} {r : EvidenceRecord} (hv : Coherent v)
    (hlog : log ∈ v.log) (hr : r ∈ v.records) : r.evidenceRunId = log.evidenceRunId := by
  cases v with
  | bundle b =>
    rw [List.mem_singleton.mp hlog]
    exact (hv r hr).2
  | selection b =>
    rw [List.mem_singleton.mp hlog]
    exact (hv r hr).2
  | record r' => simp [Validated.log] at hlog

/-- After a commit the written records are there. -/
theorem Committed.present {v : Validated} {pending : List EvidenceRecord}
    {rows : List VoiceCapabilityEvidence} {s s' : ConfigStore}
    (h : Committed v pending rows s s') : ∀ r ∈ pending, Present s' r := by
  intro r hr
  obtain ⟨row, hrow, hids, -⟩ := exists_of_forall₂ h.rows.flip hr
  exact ⟨row, h.evidence ▸ List.mem_append_right _ hrow, hids⟩

theorem Committed.grows {v : Validated} {pending : List EvidenceRecord}
    {rows : List VoiceCapabilityEvidence} {s s' : ConfigStore}
    (h : Committed v pending rows s s') : s.evidence <+: s'.evidence :=
  h.evidence ▸ List.prefix_append _ _

theorem kept_commit {d : ImportData} {v : Validated} {c : ImportContent} {seen : ℕ}
    {pending : List EvidenceRecord} {rows : List VoiceCapabilityEvidence} {s : ConfigStore}
    (hd : Kept H d) (hv : Coherent v) (hplan : PlanFits d c seen v pending)
    (h : Committed v pending rows d.store s) : Kept H (d.commit v rows s) where
  unique := by
    change UniqueEvidence s.evidence
    rw [h.evidence]
    exact h.unique
  traced := traced_commit hd hv hplan.subset h
  logged e he := by
    change ∃ log ∈ s.importLog, _
    rw [h.importLog]
    rcases List.mem_append.mp he with hold | hnew
    · obtain ⟨log, hlog, hsame⟩ := hd.logged e hold
      exact ⟨log, List.mem_append_left _ hlog, hsame⟩
    · obtain ⟨log, hlog, hsame⟩ := log_of_origin hv hplan.subset h e hnew
      exact ⟨log, List.mem_append_right _ hlog, hsame⟩
  oneFile log hlog log' hlog' hrun := by
    change log ∈ s.importLog at hlog
    change log' ∈ s.importLog at hlog'
    rw [h.importLog] at hlog hlog'
    rcases List.mem_append.mp hlog with hold | hnew <;>
      rcases List.mem_append.mp hlog' with hold' | hnew'
    · exact hd.oneFile log hold log' hold' hrun
    · exact hplan.log.agrees log hold log' hnew' hrun
    · exact (hplan.log.agrees log' hold' log hnew hrun.symm).symm
    · rw [log_unique hnew hnew']
  stored log hlog := by
    change log ∈ s.importLog at hlog
    rw [h.importLog] at hlog
    rcases List.mem_append.mp hlog with hold | hnew
    · obtain ⟨row, hrow, hrun⟩ := hd.stored log hold
      exact ⟨row, h.grows.subset hrow, hrun⟩
    · obtain ⟨r, hr⟩ := List.exists_mem_of_ne_nil _ hplan.nonempty
      obtain ⟨row, hrow, hids⟩ := h.present r hr
      exact ⟨row, hrow, hids.run.trans (log_run hv hnew (hplan.subset r hr))⟩
  done c' hc' v' hv' r hr := (hd.done c' hc' v' hv' r hr).mono h.grows

/-- A call commits and returns. -/
theorem spec_commit {d : ImportData} {c : ImportContent} {seen : ℕ} {v : Validated}
    {user : AdminUser} {pending : List EvidenceRecord} {rows : List VoiceCapabilityEvidence}
    {s : ConfigStore} (hd : Kept H d) (ht : Relies H d (.planned c seen v user pending))
    (h : Committed v pending rows d.store s) :
    StepSpec H d ((d.commit v rows s).succeed (.planned c seen v user pending) c)
      (.planned c seen v user pending) [] := by
  obtain ⟨-, hc, -, hplan⟩ := ht
  have hv : Coherent v := by
    obtain ⟨now, hnow⟩ := hc
    exact validateContent_coherent hnow
  have hpresent : ∀ r ∈ v.records, Present (d.commit v rows s).store r := fun r hr =>
    (hplan.covers r hr).elim (h.present r) fun hp => hp.mono h.grows
  have hr := same_release (d.commit v rows s) (.planned c seen v user pending)
  have hstore : ((d.commit v rows s).succeed (.planned c seen v user pending) c).store = s :=
    hr.store
  have hgrows : d.store.evidence <+:
      ((d.commit v rows s).succeed (.planned c seen v user pending) c).store.evidence := by
    rw [hstore]
    exact h.grows
  exact
    { lock :=
        { data := kept_succeed _ (kept_commit hd hv hplan h) hc hpresent
          frame := ⟨hgrows, List.prefix_append _ _⟩
          tasks := by simp
          single := by simp
          guarded := fun hfree hlocked => by
            refine ⟨⟨?_, release_anchorLocked hfree hlocked⟩, by simp⟩
            rw [hstore, h.importLog]
            cases v with
            | record r => exact List.append_nil _
            | _ => simp [ImportTask.holdsAnchor, Validated.anchors] at hfree }
      sound :=
        { immutable := hgrows
          raised := fun hne => absurd (by
            unfold ImportData.succeed ImportData.release
            split_ifs <;> rfl) hne
          repeated := fun hrepeats => absurd hrepeats hplan.fresh } }

/-! ### Runs -/

/-- Where a bundle finds no row of its run there is no log of it either. -/
theorem logFits_of_decide {d : ImportData} {v : Validated} {pending : List EvidenceRecord}
    (hd : Kept H d) (hne : pending ≠ []) (h : decideImport H v d.store = .ok pending) :
    LogFits d.store v := by
  cases v with
  | bundle b =>
    simp only [decideImport] at h
    split_ifs at h with hempty
    · intro log hlog hrun
      rw [List.isEmpty_iff, List.filter_eq_nil_iff] at hempty
      obtain ⟨row, hrow, hsame⟩ := hd.stored log hlog
      have hnot := hempty row hrow
      rw [decide_eq_true_eq] at hnot
      exact absurd (Or.inl (hsame.trans hrun)) hnot
    · obtain ⟨_, -, h⟩ := bind_eq_ok.mp h
      exact absurd (Except.ok.inj h).symm hne
  | selection b =>
    obtain ⟨_, hok, -⟩ := bind_eq_ok.mp h
    rw [require_eq_ok] at hok
    exact hok
  | record r => trivial

/-- A decision to write is a plan of a call that was not made before. -/
theorem planFits_of_decide {d : ImportData} {c : ImportContent} {seen : ℕ} {v : Validated}
    {pending : List EvidenceRecord} (hd : Kept H d) (hc : Accepted H c v) (hne : pending ≠ [])
    (h : decideImport H v d.store = .ok pending) : PlanFits d c seen v pending where
  fresh hseen := hne (decideImport_of_present h (hd.done c (List.mem_of_mem_take hseen) v hc))
  nonempty := hne
  subset := decideImport_subset h
  covers := decideImport_covers h
  log := logFits_of_decide hd hne h

theorem spec_open {d : ImportData} {c : ImportContent} {seen : ℕ} {v : Validated}
    (hd : Kept H d) (hfree : d.anchorLocked = false) (hseen : seen ≤ d.succeeded.length)
    (hc : Accepted H c v) :
    StepSpec H d { d with anchorLocked := true } (.validated c seen v) [.opened c seen v] := by
  have hsame : Same d { d with anchorLocked := true } := ⟨rfl, rfl, rfl, rfl⟩
  exact
    { lock :=
        { data := hsame.kept hd
          frame := hsame.grows
          tasks := by
            simp only [List.mem_singleton, forall_eq]
            exact ⟨hseen, hc, fun _ => rfl⟩
          single := by simp
          guarded := fun _ hlocked => by simp [hfree] at hlocked }
      sound := hsame.sound }

theorem spec_other {d : ImportData} {op : Operation} {s : ConfigStore} (hd : Kept H d)
    (h : SameEvidence d.store s) : StepSpec H d { d with store := s } (.other op) [] := by
  obtain ⟨hevidence, hlog⟩ := h
  exact
    { lock :=
        { data :=
            { unique := by rw [hevidence]; exact hd.unique
              traced := by rw [hevidence]; exact hd.traced
              logged := by rw [hlog]; exact hd.logged
              oneFile := by rw [hlog]; exact hd.oneFile
              stored := by rw [hevidence, hlog]; exact hd.stored
              done := fun c hc v hv r hr => (hd.done c hc v hv r hr).mono
                (hevidence ▸ List.prefix_refl _) }
          frame := ⟨hevidence ▸ List.prefix_refl _, List.prefix_refl _⟩
          tasks := by simp
          single := by simp
          guarded := fun _ hlocked => ⟨⟨hlog, hlocked⟩, by simp⟩ }
      sound := ⟨hevidence ▸ List.prefix_refl _, fun hne => absurd rfl hne, False.elim⟩ }

/-- What one task does. -/
theorem proceed_spec {d d' : ImportData} {t : ImportTask} {now : Instant}
    {operator : Option AdminUser} {refused : Bool} {ts : List ImportTask} (hd : Kept H d)
    (ht : Relies H d t) (h : d.proceed H template t now operator refused = some (d', ts)) :
    StepSpec H d d' t ts := by
  cases t with
  | called c seen =>
    simp only [ImportData.proceed] at h
    split at h
    · cases h
      exact spec_fail _ hd
    · rename_i v hv
      cases h
      exact spec_next hd ⟨ht, now, hv⟩ (by simp [ImportTask.holdsAnchor])
  | validated c seen v =>
    obtain ⟨hseen, hc⟩ := ht
    simp only [ImportData.proceed] at h
    split_ifs at h with hrefused hrecord hlocked
    · cases h
      exact spec_fail _ hd
    · cases h
      have hanchors : v.anchors = false := by simpa using hrecord
      exact spec_next hd ⟨hseen, hc, by simp [hanchors]⟩ (by simp [ImportTask.holdsAnchor, hanchors])
    · split at h
      · cases h
        exact spec_fail _ hd
      · cases h
        exact spec_open hd (by simpa using hlocked) hseen hc
  | opened c seen v =>
    obtain ⟨hseen, hc, hlock⟩ := ht
    simp only [ImportData.proceed] at h
    split_ifs at h with hrefused
    · cases h
      exact spec_fail _ hd
    · split at h
      · rename_i user pending huser hpending
        split_ifs at h with hempty
        · cases h
          rw [List.isEmpty_iff] at hempty
          refine spec_idempotent _ hd hc fun r hr => ?_
          simpa [hempty] using decideImport_covers hpending r hr
        · cases h
          rw [List.isEmpty_iff] at hempty
          exact spec_next hd ⟨hseen, hc, hlock, planFits_of_decide hd hc hempty hpending⟩ id
      · cases h
        exact spec_fail _ hd
  | planned c seen v user pending =>
    simp only [ImportData.proceed] at h
    split_ifs at h with hrefused
    · cases h
      exact spec_fail _ hd
    · split at h
      · cases h
        exact spec_fail _ hd
      · rename_i rows s hcommit
        cases h
        exact spec_commit hd ht (commitImport_spec hcommit)
  | other op =>
    simp only [ImportData.proceed] at h
    split at h
    · rename_i s hs
      cases h
      have hsame := transact_sameEvidence (show notImport op = true from ht) d.store s hs
      split_ifs
      · exact spec_other hd ⟨rfl, rfl⟩
      · exact spec_other hd hsame
    · cases h
      exact spec_other hd ⟨rfl, rfl⟩

theorem advance_spec {d d' : ImportData} {t : ImportTask} {i : ImportInput} {ts : List ImportTask}
    (hd : Kept H d) (ht : Relies H d t)
    (h : (importSystem H template).advance d t i = some (d', ts)) : StepSpec H d d' t ts := by
  cases i with
  | call c => simp [importSystem] at h
  | admin op => simp [importSystem] at h
  | proceed now operator refused => exact proceed_spec hd ht h
  | abort =>
    cases h
    exact spec_fail t hd

theorem accept_relies {d : ImportData} {i : ImportInput} {ts : List ImportTask}
    (h : (importSystem H template).accept d i = some ts) :
    (∀ t ∈ ts, Relies H d t) ∧ ts.Pairwise (TaskSystem.Apart ImportTask.holdsAnchor) ∧
      ∀ u, ∀ t ∈ ts, TaskSystem.Apart ImportTask.holdsAnchor u t := by
  cases i with
  | call c =>
    obtain rfl := Option.some.inj h
    simp [Relies, TaskSystem.Apart, ImportTask.holdsAnchor]
  | admin op =>
    simp only [importSystem] at h
    split_ifs at h with hop
    obtain rfl := Option.some.inj h
    simp [Relies, TaskSystem.Apart, ImportTask.holdsAnchor, hop]
  | _ => simp [importSystem] at h

theorem kept_initial {d : ImportData} (h : (importSystem H template).initial d) : Kept H d := by
  obtain ⟨⟨hevidence, hlog⟩, -, horigins, hsucceeded⟩ := h
  exact ⟨hevidence ▸ ⟨.nil, .nil⟩, by simp [hevidence], by simp [horigins], by simp [hlog],
    by simp [hlog], by simp [hsucceeded]⟩

/-- In every reachable state rows are unique, all rows of a file's run come from one file, and
no step changes a row, leaves traces of a call that raised or writes again for a call that
returned before. -/
structure ImportsSound (H : Host) (template : ConfigKey → Json) (w : World ImportData ImportTask) :
    Prop where
  unique : UniqueEvidence w.data.store.evidence
  traced : ∀ row ∈ w.data.store.evidence, row.sourceType = SourceType.phase0Import.name.toList →
    ∃ hash, (row, hash) ∈ w.data.origins
  oneFile : ∀ e ∈ w.data.origins, ∀ e' ∈ w.data.origins,
    e.1.evidenceRunId = e'.1.evidenceRunId → e.2 = e'.2
  step : ∀ t ∈ w.tasks, ∀ i d' ts, (importSystem H template).advance w.data t i = some (d', ts) →
    StepSound w.data t d'

theorem imports_sound (H : Host) (template : ConfigKey → Json) {w : World ImportData ImportTask}
    (hw : (importSystem H template).machine.Reachable w) : ImportsSound H template w := by
  have h := TaskSystem.reachable_holds TaskSystem.apart_symm (fun _ => kept_initial)
    (fun _ _ _ _ => accept_relies)
    (fun _ _ _ _ _ hd ht hadvance => (advance_spec hd ht hadvance).lock.establishes lockDiscipline)
    hw
  refine ⟨h.data.unique, h.data.traced, fun e he e' he' hrun => ?_,
    fun t ht i d' ts hadvance => (advance_spec h.data (h.tasks t ht) hadvance).sound⟩
  obtain ⟨log, hlog, hlogRun, hhash⟩ := h.data.logged e he
  obtain ⟨log', hlog', hlogRun', hhash'⟩ := h.data.logged e' he'
  rw [← hhash, ← hhash']
  exact h.data.oneFile log hlog log' hlog' (hlogRun.trans (hrun.trans hlogRun'.symm))

/-! ### A result that is appended twice -/

/-- A platform with one instant and one digest. -/
def importHost : Host :=
  { plainHost with
    sha256 := fun _ => List.replicate 64 '0'
    fromisoformat := fun _ => some ⟨0, some 0⟩
    isoformat := fun _ => "1970-01-01T00:00:00Z".toList
    payloadAccepted := fun _ => true
    unsafeValues := fun _ => false }

def digestText : Json := .str (List.replicate 64 '0')

/-- A failed test of an administrator. -/
def failedRecord : Json :=
  seedSection ([("evidence_report_id", .str "00000000-0000-0000-0000-000000000001".toList),
    ("evidence_run_id", .str "00000000-0000-0000-0000-000000000000".toList),
    ("capability_key", .str VoiceCapability.replyCancel.key.toList),
    ("verification_result", .str "failed".toList),
    ("source_type", .str "admin_capability_test".toList)] ++
    EvidenceDimension.all.map (fun d => (d.field, Json.str "v1".toList)) ++
    [("evidence_fingerprint", digestText), ("evidence_payload", .obj []),
      ("tested_at", .str "1970-01-01T00:00:00Z".toList), ("verified_at", .null),
      ("evidence_ttl_days_snapshot", .int 30), ("expires_at", .null),
      ("report_sha256", digestText)])

/-- An active version with six empty capabilities. -/
def sixEmpty : AdminConfig :=
  ⟨seedSection [("capabilities",
    seedSection (VoiceCapability.all.map fun k => (k.key, .obj [])))], 1, none⟩

def importer : AdminUser := ⟨1, .techOps, true, false⟩

/-- The only task goes on. -/
def goOn : Input ImportInput := .task 0 (.proceed 0 (some importer) false)

/-- The result is appended, and once more. -/
def appendedTwice : List (Input ImportInput) :=
  [.request (.call (.record failedRecord)), goOn, goOn, goOn, goOn,
    .request (.call (.record failedRecord)), goOn, goOn, goOn]

def beforeImports : World ImportData ImportTask :=
  ⟨⟨{ emptyStore with active := some sixEmpty }, [], false, [], [], 0⟩, []⟩

theorem imports_sound_repeated : ∃ w,
    (importSystem importHost plainTemplate).machine.run beforeImports appendedTwice = some w ∧
      (w.data.store.evidence.length = 1 ∧ w.data.succeeded.length = 2) ∧
      ImportsSound importHost plainTemplate w := by
  have hrun : ((importSystem importHost plainTemplate).machine.run beforeImports appendedTwice).any
      (fun w => decide (w.data.store.evidence.length = 1 ∧ w.data.succeeded.length = 2)) = true := by
    decide
  obtain ⟨w, hw, hlengths⟩ := (Option.any_eq_true _ _).mp hrun
  exact ⟨w, hw, of_decide_eq_true hlengths, imports_sound importHost plainTemplate
    ⟨beforeImports, appendedTwice, ⟨⟨⟨rfl, rfl⟩, rfl, rfl, rfl⟩, rfl⟩, hw⟩⟩

end CompanionBackend.EvidenceImports
