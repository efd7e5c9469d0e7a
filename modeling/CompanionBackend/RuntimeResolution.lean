import CompanionBackend.DocumentReadings
import CompanionBackend.RuntimeLoading
import CompanionBackend.SnapshotSoundness

/-!
# Where the configuration of a call comes from

Each key is the document of its active row or, as a whole, the canonical one. A call that is
not turned away found the master switch on, and the gates of what is published open to its
user; where neither a row nor an envelope can be read, there are no gates to ask.
-/
namespace CompanionBackend.RuntimeLoading

open Runs ProviderEvents Dictionaries CapabilityRules CapabilityEvidence RuntimeSnapshots

/-! ### One key -/

/-- A row with a bundle that passes the schema, a version and the instant of its
publication. -/
structure ValidRow (H : Host) (key : ConfigKey) (row : VoiceRow) (payload : Json)
    (publishedAt : PyDatetime) : Prop where
  document : row.configValue.value = some payload
  object : payload.isObj = true
  trusted : trustedRuntimeIssues H.sectionIssues key payload = []
  version : 1 ≤ row.version
  updated : row.updatedAt = some publishedAt

theorem parseCandidate_eq_some {H : Host} {key : ConfigKey} {raw : RawContent} {value : Json} :
    parseCandidate H key raw = some value ↔ raw.value = some value ∧ value.isObj = true ∧
      trustedRuntimeIssues H.sectionIssues key value = [] := by
  simp [parseCandidate, Option.filter_eq_some_iff]

theorem rowCandidate_eq_some {H : Host} {key : ConfigKey} {row : VoiceRow} {payload : Json}
    {publishedAt : PyDatetime} :
    rowCandidate H key row = some (payload, publishedAt) ↔
      ValidRow H key row payload publishedAt := by
  simp only [rowCandidate, Option.bind_eq_bind, Option.bind_eq_some_iff, parseCandidate_eq_some]
  constructor
  · rintro ⟨payload', ⟨hdoc, hobj, htrusted⟩, published', hupdated, h⟩
    split_ifs at h with hversion
    obtain ⟨rfl, rfl⟩ := Prod.mk.inj (Option.some.inj h)
    exact ⟨hdoc, hobj, htrusted, hversion, hupdated⟩
  · intro h
    exact ⟨payload, ⟨h.document, h.object, h.trusted⟩, publishedAt, h.updated, if_pos h.version⟩

/-- The active row of a key that can be its configuration. -/
def ActiveConfig (H : Host) (key : ConfigKey) (rows : List VoiceRow) (row : VoiceRow)
    (payload : Json) (publishedAt : PyDatetime) : Prop :=
  activeRow rows = some row ∧ ValidRow H key row payload publishedAt

/-- A cached copy with the digest of a row's document reads like it. -/
def DigestsTell (H : Host) (cached : RawContent) (rows : List VoiceRow) : Prop :=
  ∀ copy document, cached.value = some copy →
    (∃ row ∈ rows, row.configValue.value = some document) →
    contentSha256 H copy = contentSha256 H document → Json.Same copy document

/-- The document of the active row, or as a whole the canonical one. -/
structure ResolvedWhole (H : Host) (key : ConfigKey) (rows : List VoiceRow)
    (canonical : Json → Prop) (c : LoadedVoiceConfig) : Prop where
  published : ∀ row payload publishedAt, ActiveConfig H key rows row payload publishedAt →
    Json.Same c.payload payload ∧ c.version = row.version ∧
      c.publishedAt = some publishedAt ∧ c.technicalFallback = false
  fallback : (∀ row payload publishedAt, ¬ActiveConfig H key rows row payload publishedAt) →
    canonical c.payload ∧ c.version = 0 ∧ c.publishedAt = none ∧ c.technicalFallback = true

theorem resolveKey_whole {H : Host} {key : ConfigKey} {cached : RawContent} {rows : List VoiceRow}
    {canonical : Except SnapshotError Json} {c : LoadedVoiceConfig}
    (htell : DigestsTell H cached rows)
    (h : resolveKey H key cached (activeRow rows) canonical = .ok c) :
    ResolvedWhole H key rows (fun payload => canonical = .ok payload) c := by
  unfold resolveKey at h
  split at h
  · rename_i version payload published hfound
    obtain ⟨row, hrow, hpaired⟩ := Option.bind_eq_some_iff.mp hfound
    obtain ⟨⟨payload', published'⟩, hcandidate, heq⟩ := Option.map_eq_some_iff.mp hpaired
    obtain ⟨rfl, hpair⟩ := Prod.mk.inj heq
    obtain ⟨rfl, rfl⟩ := Prod.mk.inj hpair
    have hvalid := rowCandidate_eq_some.mp hcandidate
    refine ⟨fun row' payload'' publishedAt hactive => ?_,
      fun hnone => absurd ⟨hrow, hvalid⟩ (hnone row payload' published')⟩
    obtain rfl := Option.some.inj (hrow.symm.trans hactive.1)
    obtain rfl := Option.some.inj (hvalid.document.symm.trans hactive.2.document)
    obtain rfl := Option.some.inj (hvalid.updated.symm.trans hactive.2.updated)
    split at h
    · rename_i copy hcopy
      split_ifs at h with hdigest
      · -- the cache's copy, which has the digest of the row
        obtain rfl := Except.ok.inj h
        exact ⟨htell copy payload' (parseCandidate_eq_some.mp hcopy).1
          ⟨row, List.mem_of_find?_eq_some hrow, hvalid.document⟩ hdigest, rfl, rfl, rfl⟩
      · obtain rfl := Except.ok.inj h
        exact ⟨.refl _, rfl, rfl, rfl⟩
    · obtain rfl := Except.ok.inj h
      exact ⟨.refl _, rfl, rfl, rfl⟩
  · rename_i hnone
    obtain ⟨payload, hpayload, h⟩ := bind_eq_ok.mp h
    obtain rfl := Except.ok.inj h
    refine ⟨fun row payload' publishedAt hactive => ?_, fun _ => ⟨hpayload, rfl, rfl, rfl⟩⟩
    rw [hactive.1, Option.bind_some, rowCandidate_eq_some.mpr hactive.2] at hnone
    simp at hnone

/-- The canonical document of a key, with a persona that is published or in the envelope. -/
def IsCanonical (H : Host) (D : RuntimeDefaults) (mysql : Option MysqlReads) (external : Json)
    (envelope : Option PublishedEnvelope) (key : ConfigKey) (payload : Json) : Prop :=
  match key with
  | .voiceCallConfig => ∃ ref, resolveFallbackPersonaRef H mysql external envelope = .ok ref ∧
      payload = D.canonicalConfig (personaRefValue ref)
  | .voiceCallScript => payload = D.canonicalScript

theorem isCanonical_of_canonicalPayload {H : Host} {D : RuntimeDefaults} {key : ConfigKey}
    {mysql : Option MysqlReads} {external : Json} {envelope : Option PublishedEnvelope}
    {payload : Json} (h : canonicalPayload H D key mysql external envelope = .ok payload) :
    IsCanonical H D mysql external envelope key payload := by
  unfold canonicalPayload at h
  obtain ⟨payload', hpayload, h⟩ := bind_eq_ok.mp h
  obtain ⟨_, -, h⟩ := bind_eq_ok.mp h
  obtain rfl := Except.ok.inj h
  cases key with
  | voiceCallConfig =>
    obtain ⟨ref, href, hconfig⟩ := bind_eq_ok.mp hpayload
    exact ⟨ref, href, (Except.ok.inj hconfig).symm⟩
  | voiceCallScript => exact (Except.ok.inj hpayload).symm

/-! ### The gates -/

theorem Json.Same.isTrue {a b : Json} (h : Json.Same a b) :
    CapabilityRules.isTrue a = CapabilityRules.isTrue b := by
  have hshape := h.shape
  cases a <;> cases b <;> simp_all [Json.shape, CapabilityRules.isTrue]

theorem listed_of_same {a b : Json} (h : Json.Same a b) (userId : Option ℤ) :
    listed a userId = listed b userId := by
  have hshape := h.shape
  cases userId with
  | none => cases a <;> cases b <;> rfl
  | some u =>
    cases a <;> cases b <;> simp_all only [Json.shape, listed, reduceCtorEq]
    exact Json.any_pyEq_int_of_shapes u h.items

/-- The gates of documents that read the same turn the same users away. -/
theorem gate_of_same {a b : Json} (h : Json.Same a b) (userId : Option ℤ) :
    publishedGateBlocksCall a userId = publishedGateBlocksCall b userId := by
  have hrollout := h.field "rollout"
  simp only [publishedGateBlocksCall, Json.Same.isTrue (h.field "maintenance_mode"),
    Json.Same.isTrue (h.field "soft_stop"), (hrollout.field "mode").isStr,
    listed_of_same (hrollout.field "user_ids")]

/-- The one active row of the master switch says that it is on. -/
def MasterSwitchOn (mysql : MysqlReads) : Prop :=
  ∃ row value, mysql.masterRows = [row] ∧ row.isActive = true ∧ 1 ≤ row.version ∧
    row.configValue.value = some value ∧ value.field "enabled" = .bool true

theorem masterSwitchOn_of_parse {mysql : MysqlReads} {version : ℤ}
    (h : parseMasterSwitchRows mysql.masterRows = some (true, version)) : MasterSwitchOn mysql := by
  unfold parseMasterSwitchRows at h
  split at h
  · rename_i row hrows
    split at h
    · rename_i value hvalue
      split_ifs at h with hvalid
      simp only [Bool.and_eq_true, decide_eq_true_eq] at hvalid
      obtain ⟨⟨⟨⟨hactive, hversion⟩, -⟩, -⟩, -⟩ := hvalid
      exact ⟨row, value, hrows, hactive, hversion, hvalue,
        isTrue_iff.mp (Prod.mk.inj (Option.some.inj h)).1⟩
    · simp at h
  · simp at h

/-- No active row of the call configuration is valid. -/
def NoActiveConfig (H : Host) (mysql : MysqlReads) : Prop :=
  ∀ row payload publishedAt,
    ¬ActiveConfig H .voiceCallConfig mysql.configRows row payload publishedAt

/-- The master switch is on, and what gates there are admit the user: those of the active row,
or without one those of the envelope. -/
structure Admitted (H : Host) (redis : RedisReads) (mysql : MysqlReads) (userId : Option ℤ) :
    Prop where
  master : MasterSwitchOn mysql
  row : ∀ row payload publishedAt,
    ActiveConfig H .voiceCallConfig mysql.configRows row payload publishedAt →
    publishedGateBlocksCall (payload.field "global") userId = false
  envelope : NoActiveConfig H mysql → ∀ e, parsePublishedEnvelope H redis.envelope = some e →
    publishedGateBlocksCall e.gateGlobal userId = false

/-- The rows of a key, none where the database cannot be read. -/
def rowsOf (rows : MysqlReads → List VoiceRow) (mysql : Option MysqlReads) : List VoiceRow :=
  (mysql.map rows).getD []

theorem activeRow_rowsOf (rows : MysqlReads → List VoiceRow) (mysql : Option MysqlReads) :
    (mysql.bind fun m => activeRow (rows m)) = activeRow (rowsOf rows mysql) := by
  cases mysql <;> rfl

/-- Both keys are resolved as a whole, and no call is admitted against a gate. -/
structure RuntimeResolved (H : Host) (D : RuntimeDefaults) (redis : RedisReads)
    (mysql : Option MysqlReads) (external : Json) (b : VoiceRuntimeBundle) : Prop where
  config : ResolvedWhole H .voiceCallConfig (rowsOf MysqlReads.configRows mysql)
    (IsCanonical H D mysql external (parsePublishedEnvelope H redis.envelope) .voiceCallConfig)
    b.config
  script : ResolvedWhole H .voiceCallScript (rowsOf MysqlReads.scriptRows mysql)
    (IsCanonical H D mysql external (parsePublishedEnvelope H redis.envelope) .voiceCallScript)
    b.script
  admitted : ∀ userId, b.shouldBlockNewCall userId = false →
    ∃ m, mysql = some m ∧ Admitted H redis m userId

theorem ResolvedWhole.imp {H : Host} {key : ConfigKey} {rows : List VoiceRow}
    {canonical canonical' : Json → Prop} {c : LoadedVoiceConfig}
    (h : ResolvedWhole H key rows canonical c) (himp : ∀ p, canonical p → canonical' p) :
    ResolvedWhole H key rows canonical' c where
  published := h.published
  fallback hnone := (h.fallback hnone).imp_left (himp c.payload)

/-- What a bundle consults before it admits a user. -/
theorem consulted_of_admitted {b : VoiceRuntimeBundle} {userId : Option ℤ}
    (h : b.shouldBlockNewCall userId = false) :
    b.masterSwitchEnabled = some true ∧
      (b.config.technicalFallback = false →
        publishedGateBlocksCall (b.config.payload.field "global") userId = false) ∧
      (b.config.technicalFallback = true → ∀ gate, b.fallbackGateGlobal = some gate →
        b.fallbackGateBlocked = publishedGateBlocksCall gate b.fallbackGateUserId →
        publishedGateBlocksCall gate userId = false) := by
  unfold VoiceRuntimeBundle.shouldBlockNewCall at h
  by_cases hmaster : b.masterSwitchEnabled = some true
  · rw [if_neg (not_not.mpr hmaster)] at h
    refine ⟨hmaster, fun hpublished => ?_, fun hfallback gate hgate hblocked => ?_⟩
    · rwa [hpublished, if_neg Bool.false_ne_true] at h
    · rw [if_pos hfallback, hgate] at h
      dsimp only at h
      by_cases huser : userId = b.fallbackGateUserId
      · rw [if_pos huser, hblocked] at h
        rw [huser, h]
      · rwa [if_neg huser] at h
  · rw [if_pos hmaster] at h
    simp at h

/-- A bundle is made of whole keys, and fails closed. -/
theorem load_bundle_resolved {H : Host} {D : RuntimeDefaults} {redis : RedisReads}
    {mysql : Option MysqlReads} {external : Json} {userId : Option ℤ} {b : VoiceRuntimeBundle}
    (hconfig : DigestsTell H redis.config (rowsOf MysqlReads.configRows mysql))
    (hscript : DigestsTell H redis.script (rowsOf MysqlReads.scriptRows mysql))
    (h : loadBundle H D redis mysql external userId = .ok b) :
    RuntimeResolved H D redis mysql external b := by
  unfold loadBundle at h
  obtain ⟨sources, -, h⟩ := bind_eq_ok.mp h
  obtain ⟨config, hresolvedConfig, h⟩ := bind_eq_ok.mp h
  obtain ⟨script, hresolvedScript, h⟩ := bind_eq_ok.mp h
  obtain rfl := Except.ok.inj h
  rw [activeRow_rowsOf] at hresolvedConfig hresolvedScript
  have hwhole := resolveKey_whole hconfig hresolvedConfig
  refine
    { config := hwhole.imp fun _ => isCanonical_of_canonicalPayload
      script := (resolveKey_whole hscript hresolvedScript).imp
        fun _ => isCanonical_of_canonicalPayload
      admitted := fun u hu => ?_ }
  obtain ⟨hmaster, hrow, henvelope⟩ := consulted_of_admitted hu
  obtain ⟨⟨on, version⟩, hfound, hon⟩ := Option.map_eq_some_iff.mp hmaster
  obtain rfl : on = true := hon
  obtain ⟨m, rfl, hparse⟩ := Option.bind_eq_some_iff.mp hfound
  refine ⟨m, rfl, masterSwitchOn_of_parse hparse, fun row payload publishedAt hactive => ?_,
    fun hnone e he => ?_⟩
  · obtain ⟨hsame, -, -, htechnical⟩ := hwhole.published row payload publishedAt hactive
    rw [← gate_of_same (hsame.field "global")]
    exact hrow htechnical
  · obtain ⟨-, -, -, htechnical⟩ := hwhole.fallback hnone
    refine henvelope htechnical e.gateGlobal ?_ ?_
    · simp [htechnical, he]
    · simp [htechnical, he]

/-! ### A first start without a gate -/

/-- What the canonical documents are like. -/
def startDefaults : RuntimeDefaults :=
  { sampleDefaults with
    canonicalConfig := fun ref => (weekConfig untestedCapability).put "persona_ref" ref
    canonicalScript := weekScript }

/-- A persona and the master switch are published, the call is not configured. -/
def startRows : MysqlReads where
  configRows := []
  scriptRows := []
  personaRows := [⟨some "p".toList, 1, true⟩]
  masterRows := [⟨.document (document [("enabled", .bool true)]), 1, true, some firstInstant⟩]
  evidence := some []
  forceLogs := some []

def emptyCache : RedisReads := ⟨.missing, .missing, .missing⟩

theorem start_loads : ∃ b,
    loadBundle snapshotHost startDefaults emptyCache (some startRows) .null (some 7) = .ok b ∧
      b.shouldBlockNewCall (some 7) = false := by
  have hrun : (loadBundle snapshotHost startDefaults emptyCache (some startRows) .null
      (some 7)).toOption.any (fun b => !b.shouldBlockNewCall (some 7)) = true := by
    decide +kernel
  obtain ⟨b, hload, hopen⟩ := exists_ok_of_any hrun
  exact ⟨b, hload, by simpa using hopen⟩

theorem noDigests (H : Host) (rows : List VoiceRow) : DigestsTell H .missing rows := by
  intro copy document hcopy
  simp [RawContent.value] at hcopy

theorem load_bundle_resolved_start : ∃ b,
    loadBundle snapshotHost startDefaults emptyCache (some startRows) .null (some 7) = .ok b ∧
      RuntimeResolved snapshotHost startDefaults emptyCache (some startRows) .null b := by
  obtain ⟨b, hload, -⟩ := start_loads
  exact ⟨b, hload, load_bundle_resolved (noDigests _ _) (noDigests _ _) hload⟩

/-- A gate was asked: the one of the valid row, or else the one of the envelope. -/
def GateConsulted (H : Host) (redis : RedisReads) (mysql : MysqlReads) (userId : Option ℤ) : Prop :=
  (∃ row payload publishedAt,
    ActiveConfig H .voiceCallConfig mysql.configRows row payload publishedAt ∧
    publishedGateBlocksCall (payload.field "global") userId = false) ∨
  NoActiveConfig H mysql ∧ ∃ e, parsePublishedEnvelope H redis.envelope = some e ∧
    publishedGateBlocksCall e.gateGlobal userId = false

/-- On a first start a call is admitted that no gate has seen. -/
theorem gate_not_consulted : ∃ b,
    loadBundle snapshotHost startDefaults emptyCache (some startRows) .null (some 7) = .ok b ∧
      b.shouldBlockNewCall (some 7) = false ∧
      ¬GateConsulted snapshotHost emptyCache startRows (some 7) := by
  obtain ⟨b, hload, hopen⟩ := start_loads
  refine ⟨b, hload, hopen, ?_⟩
  rintro (⟨row, payload, publishedAt, ⟨hactive, -⟩, -⟩ | ⟨-, e, he, -⟩)
  · simp [startRows, activeRow] at hactive
  · simp [emptyCache, parsePublishedEnvelope, RawContent.value] at he

end CompanionBackend.RuntimeLoading
