import Mathlib.Data.List.TakeWhile
import CompanionBackend.ForcedTests
import CompanionBackend.RuntimeResolution

/-!
# Which forced tests take effect

The runtime believes an entry of the log when it shows the active document: the digest of the
draft at the time of the test has to be that of what was published. A test before the last
change of the draft has another one.
-/
namespace CompanionBackend.ForcedTests

open Runs ProviderEvents Dictionaries CapabilityRules CapabilityEvidence ConfigDrafts
  RuntimeSnapshots RuntimeLoading TurnRecords

/-! ### Reading a summary -/

theorem get_map_values {α β γ : Type*} [DecidableEq α] (entries : Dict α β) (f : β → γ) (k : α) :
    Dict.get (entries.map fun e => (e.1, f e.2)) k = (Dict.get entries k).map f := by
  induction entries with
  | nil => rfl
  | cons e entries ih =>
    by_cases h : e.1 = k
    · simp [Dict.get, h]
    · simpa [Dict.get, h] using ih

/-- What a summary shows of a capability is the field of the capability. -/
theorem field_shownCapabilities {config : Json} (field : String) (key : String)
    (h : (config.field "capabilities").isObj = true) :
    (shownCapabilities config field).isObj = true ∧
      (shownCapabilities config field).field key =
        ((config.field "capabilities").field key).field field := by
  obtain ⟨entries, hentries⟩ := Json.isObj_iff.mp h
  rw [shownCapabilities, hentries]
  refine ⟨rfl, ?_⟩
  change (Dict.get (entries.map fun e => (e.1, e.2.field field)) key.toList).getD .null =
    ((Dict.get entries key.toList).getD .null).field field
  rw [get_map_values entries fun item => item.field field]
  cases Dict.get entries key.toList <;> rfl

/-- An object that is written out holds what is written under its key. -/
theorem field_entries (entries : List (String × Json)) (key : String) :
    (Json.obj (entries.map fun e => (e.1.toList, e.2))).field key =
      ((entries.find? fun e => decide (e.1 = key)).map Prod.snd).getD .null := by
  induction entries with
  | nil => rfl
  | cons e entries ih =>
    by_cases h : e.1 = key
    · simp [Json.field, Json.get, Dict.get, h]
    · have hne : e.1.toList ≠ key.toList := mt String.toList_inj.mp h
      simpa [Json.field, Json.get, Dict.get, hne, h] using ih

/-- What the runtime reads of the summary of a forced test. -/
structure EventShown (H : Host) (e : ForceEvent) (projection : Json) : Prop where
  action : projection.field "action" = .str "force_enable".toList
  configKey : projection.field "config_key" = .str "voice_call_config".toList
  result : projection.field "result" = .str "success".toList
  draftRevision : projection.field "draft_revision" = .int e.audit.draftRevision
  content : projection.field "content_sha256" =
    .str (ConfigDrafts.contentSha256 H e.audit.config)
  note : projection.field "change_note" = noteSummary H (some e.reason)
  status : projection.field "verification_status" =
    shownCapabilities e.audit.config "verification_status"
  forced : projection.field "forced_enabled" = shownCapabilities e.audit.config "forced_enabled"
  scope : projection.field "effective_scope" = shownCapabilities e.audit.config "effective_scope"
  source : projection.field "force_source" = forceSourceValue H e

theorem eventShown (H : Host) (e : ForceEvent) :
    EventShown H e (forceLogRow H (.forced e)).afterValue := by
  constructor <;> dsimp only [forceLogRow, auditProjection, forceAudit] <;>
    rw [field_entries] <;> simp [optionalInt]

theorem refused_source (H : Host) (r : Refusal) :
    (forceLogRow H (.refused r)).afterValue.field "force_source" = .null := by
  dsimp only [forceLogRow, auditProjection, refusalAudit]
  rw [field_entries]
  simp

/-- The source of a forced test, field by field. -/
structure SourceShown (H : Host) (e : ForceEvent) (source : Json) : Prop where
  exact : exactDict source forceSourceFields = true
  kind : source.field "source" = .str "admin_force_test".toList
  capability : source.field "capability_key" = .str e.audit.capability.key.toList
  draftRevision : source.field "draft_revision" = .int e.audit.draftRevision
  content : source.field "config_content_sha256" =
    .str (ConfigDrafts.contentSha256 H e.audit.config)
  operator : source.field "operator_id" = .int e.operator.id
  forcedAt : source.field "forced_at" = .str (H.isoformat e.forcedAt)
  reasonLength : source.field "reason_length" = .int e.reason.length
  reasonDigest : source.field "reason_sha256" = .str (noteDigest H e.reason)

theorem sourceShown (H : Host) (e : ForceEvent) : SourceShown H e (forceSourceValue H e) := by
  constructor
  · simp [exactDict, forceSourceFields, forceSourceValue, Json.has, Json.get, Dict.get]
  all_goals
    rw [forceSourceValue, field_entries]
    simp

/-- What the runtime reads of a note. -/
theorem noteShown (H : Host) (note : Text) :
    (noteSummary H (some note)).isObj = true ∧
      (noteSummary H (some note)).field "present" = .bool true ∧
      (noteSummary H (some note)).field "length" = .int note.length ∧
      (noteSummary H (some note)).field "sha256" = .str (noteDigest H note) := by
  simp [noteSummary, Json.isObj, Json.field, Json.get, Dict.get]

/-! ### Entries that are believed -/

/-- What is documented of digests, and of the instants that the log holds as texts. -/
structure HostDocumented (H : Host) (log : List ForceEntry) : Prop where
  digest : ∀ t, isSha256 (H.sha256 t) = true
  instant : ∀ e, .forced e ∈ log → ∃ read,
    readsInstant H (.str (H.isoformat e.forcedAt)) = some read ∧
      read.utcoffset.isSome = true ∧ read.utc = e.forcedAt

/-- The entry shows this document, its reason is short enough, and it was written at once. -/
structure Usable (H : Host) (hash : Text) (e : ForceEvent) : Prop where
  content : ConfigDrafts.contentSha256 H e.audit.config = hash
  reason : e.reason.length ≤ 500
  prompt : |e.forcedAt - e.createdAt| ≤ 5000000

/-- What every forced test leaves in its entry. -/
structure WellMade (e : ForceEvent) : Prop where
  revision : 1 ≤ e.audit.draftRevision
  reason : e.reason ≠ []
  capabilities : (e.audit.config.field "capabilities").isObj = true
  forced : forcedByConfig
    ((e.audit.config.field "capabilities").field e.audit.capability.key) = true

theorem capabilityOf_key (k : VoiceCapability) : capabilityOf (.str k.key.toList) = some k := by
  unfold capabilityOf
  cases hfind : VoiceCapability.all.find? fun k' => (Json.str k.key.toList).isStr k'.key with
  | none => exact absurd (Json.isStr_iff.mpr rfl) (List.find?_eq_none.mp hfind k k.mem_all)
  | some k' =>
    have hfound := List.find?_some hfind
    have hkey := Json.str.inj (Json.isStr_iff.mp hfound)
    rw [VoiceCapability.key_injective (String.toList_inj.mp hkey)]

theorem isContentDigest_note {H : Host} (hH : ∀ t, isSha256 (H.sha256 t) = true) (note : Text) :
    isContentDigest (.str (noteDigest H note)) = true := by
  have hdigest := hH note
  simp only [isSha256, Bool.and_eq_true, beq_iff_eq] at hdigest
  have hlength : "sha256:".toList.length = 7 := by simp
  have hstarts := List.isPrefixOf_iff_prefix.mpr
    (List.prefix_append "sha256:".toList (H.sha256 note))
  unfold isContentDigest noteDigest
  dsimp only
  rw [hstarts, List.length_append, hdigest.1, hlength, List.drop_left' hlength, hdigest.2]
  simp

theorem sourceWellFormed_event {H : Host} {log : List ForceEntry} (hH : HostDocumented H log)
    {e : ForceEvent} (he : .forced e ∈ log) (hmade : WellMade e) :
    sourceWellFormed H (forceLogRow H (.forced e)) (forceSourceValue H e) = true ↔
      e.reason.length ≤ 500 ∧ |e.forcedAt - e.createdAt| ≤ 5000000 := by
  have hs := sourceShown H e
  obtain ⟨read, hread, hoffset, hutc⟩ := hH.instant e he
  have hlength : 1 ≤ e.reason.length := List.length_pos_iff.mpr hmade.reason
  have hcreated : (⟨e.createdAt, none⟩ : PyDatetime).utc = e.createdAt := by
    simp [PyDatetime.utc]
  rw [sourceWellFormed, hs.exact, hs.kind, hs.draftRevision, hs.operator, hs.forcedAt,
    hs.reasonLength, hs.reasonDigest, isContentDigest_note hH.digest, hread]
  simp only [forceLogRow, isPositive, isInt, inRange, hmade.revision, hoffset, hutc, hcreated,
    Json.isStr, Option.any_some, Bool.and_eq_true, decide_eq_true_eq]
  constructor
  · rintro ⟨⟨⟨-, -, hrange⟩, -⟩, -, hprompt⟩
    exact ⟨by exact_mod_cast hrange, hprompt⟩
  · rintro ⟨hreason, hprompt⟩
    refine ⟨⟨⟨by simp, by exact_mod_cast hlength, by exact_mod_cast hreason⟩, trivial⟩, trivial,
      hprompt⟩

theorem pyEq_int_self (n : ℤ) : Json.pyEq (.int n) (.int n) = true := by
  simp [Json.pyEq, Json.numEq, Json.number]

theorem sourceMatchesLog_event {H : Host} {e : ForceEvent} {hash : Text} :
    sourceMatchesLog (forceLogRow H (.forced e)) (forceSourceValue H e) hash = true ↔
      ConfigDrafts.contentSha256 H e.audit.config = hash := by
  have hs := sourceShown H e
  have hp := eventShown H e
  obtain ⟨hnote, hpresent, hlength, hdigest⟩ := noteShown H e.reason
  rw [sourceMatchesLog, hp.action, hp.configKey, hp.result, hp.draftRevision, hp.content, hp.note,
    hs.draftRevision, hs.content, hs.reasonLength, hs.reasonDigest]
  simp only [hnote, hpresent, hlength, hdigest, Json.isStr, hasText, pyEq_int_self,
    CapabilityRules.isTrue, Json.pyEq_str_left, Bool.and_eq_true, decide_eq_true_eq, and_true,
    true_and, and_self]

/-- A refused request is no source. -/
theorem parse_refused {H : Host} {config : Json} {hash : Text} (r : Refusal) :
    parseForceSourceLog H config hash (forceLogRow H (.refused r)) = .ok none := by
  have hnone : capabilityOf ((Json.null).field "capability_key") = none := by
    simp [capabilityOf, Json.field, Json.get, Json.isStr]
  unfold parseForceSourceLog
  rw [refused_source]
  dsimp only
  rw [hnone]

/-- A source that is believed is that of its entry, which is usable. -/
theorem parse_event_some {H : Host} {log : List ForceEntry} (hH : HostDocumented H log)
    {config source : Json} {hash : Text} {e : ForceEvent} {k : VoiceCapability}
    (he : .forced e ∈ log) (hmade : WellMade e)
    (h : parseForceSourceLog H config hash (forceLogRow H (.forced e)) = .ok (some (k, source))) :
    k = e.audit.capability ∧ source = forceSourceValue H e ∧ Usable H hash e := by
  unfold parseForceSourceLog at h
  rw [(eventShown H e).source] at h
  dsimp only at h
  rw [(sourceShown H e).capability, capabilityOf_key] at h
  dsimp only at h
  split_ifs at h with hform
  · simp at h
  · obtain ⟨unproven, -, h⟩ := bind_eq_ok.mp h
    split_ifs at h
    · obtain ⟨rfl, rfl⟩ := Prod.mk.inj (Option.some.inj (Except.ok.inj h))
      simp only [Bool.not_eq_true, Bool.not_eq_false', Bool.and_eq_true] at hform
      obtain ⟨hreason, hprompt⟩ := (sourceWellFormed_event hH he hmade).mp hform.1.1
      exact ⟨rfl, rfl, sourceMatchesLog_event.mp hform.1.2, hreason, hprompt⟩
    · simp at h

/-- The active document has a capability as a forced test leaves it. -/
structure StillForced (item : Json) : Prop where
  isObj : item.isObj = true
  status : (item.field "verification_status").strIn ["unverified", "stale"] = true
  forced : forcedByConfig item = true

/-- A usable entry of a capability that is still forced is believed. -/
theorem parse_event_usable {H : Host} {log : List ForceEntry} (hH : HostDocumented H log)
    {config : Json} {hash : Text} {e : ForceEvent} (he : .forced e ∈ log) (hmade : WellMade e) (husable : Usable H hash e)
    (hitem : StillForced ((config.field "capabilities").field e.audit.capability.key))
    (hshown : ((e.audit.config.field "capabilities").field e.audit.capability.key).field
        "verification_status" =
      ((config.field "capabilities").field e.audit.capability.key).field "verification_status") :
    parseForceSourceLog H config hash (forceLogRow H (.forced e)) =
      .ok (some (e.audit.capability, forceSourceValue H e)) := by
  have hp := eventShown H e
  have hform := (sourceWellFormed_event hH he hmade).mpr ⟨husable.reason, husable.prompt⟩
  have hmatch := (sourceMatchesLog_event (H := H)).mpr husable.content
  obtain ⟨s, hs, hstatus⟩ := Json.strIn_iff.mp hitem.status
  have hforced := hmade.forced
  simp only [forcedByConfig, forcedToTest, Bool.and_eq_true] at hforced
  have hprojection : projectionMatches (forceLogRow H (.forced e)) e.audit.capability
      ((config.field "capabilities").field e.audit.capability.key) = true := by
    obtain ⟨hstatusObj, hstatusShown⟩ :=
      field_shownCapabilities "verification_status" e.audit.capability.key hmade.capabilities
    obtain ⟨hforcedObj, hforcedShown⟩ :=
      field_shownCapabilities "forced_enabled" e.audit.capability.key hmade.capabilities
    obtain ⟨hscopeObj, hscopeShown⟩ :=
      field_shownCapabilities "effective_scope" e.audit.capability.key hmade.capabilities
    simp only [projectionMatches, hp.status, hp.forced, hp.scope, hstatusObj, hstatusShown,
      hforcedObj, hforcedShown, hscopeObj, hscopeShown, hshown, hstatus, hforced.1.2, hforced.2,
      Json.pyEq_str_left.mpr rfl, Bool.and_self]
  unfold parseForceSourceLog
  rw [hp.source]
  dsimp only
  rw [(sourceShown H e).capability, capabilityOf_key]
  dsimp only
  rw [hform, hmatch, hitem.isObj, inSet, hstatus]
  simp only [Json.hashable, Bool.and_self, Bool.not_true, if_true, if_false, Bool.false_eq_true,
    Except.mapError, ok_bind, ← hstatus, hitem.status, hitem.forced, hprojection]

/-! ### The sources that are collected -/

theorem mem_collectSources {H : Host} {config : Json} {hash : Text} {logs : List ForceLogRow}
    {sources : List (VoiceCapability × Json)}
    (h : collectSources H config hash logs = .ok sources) (found : VoiceCapability × Json) :
    found ∈ sources ↔ ∃ log ∈ logs, parseForceSourceLog H config hash log = .ok (some found) := by
  induction logs generalizing sources with
  | nil =>
    obtain rfl := Except.ok.inj h
    simp
  | cons log logs ih =>
    obtain ⟨first, hfirst, h⟩ := bind_eq_ok.mp h
    obtain ⟨more, hmore, h⟩ := bind_eq_ok.mp h
    obtain rfl := Except.ok.inj h
    rw [List.mem_append, ih hmore, List.exists_mem_cons_iff, hfirst, Option.mem_toList,
      Except.ok.injEq]

/-- The newest entries that show a document. -/
def recentEntries (H : Host) (hash : Text) (log : List ForceEntry) : List ForceEntry :=
  (log.filter fun entry => mentions H hash (forceLogRow H entry)).take 128

theorem recentForceLogs_rows (H : Host) (hash : Text) (log : List ForceEntry) :
    recentForceLogs H hash (log.map (forceLogRow H)) =
      (recentEntries H hash log).map (forceLogRow H) := by
  rw [recentForceLogs, recentEntries, List.filter_map, List.map_take]
  rfl

/-- Among the newest entries that show the document there is a usable one of the capability. -/
def SourceSurvives (H : Host) (config : Json) (log : List ForceEntry) (k : VoiceCapability) :
    Prop :=
  ∃ e, .forced e ∈ recentEntries H (ConfigDrafts.contentSha256 H config) log ∧
    e.audit.capability = k ∧ Usable H (ConfigDrafts.contentSha256 H config) e

/-- Every forced test in the log is well made. -/
def LogSound (log : List ForceEntry) : Prop := ∀ e, .forced e ∈ log → WellMade e

/-- The sources of a document that is read with its log: each is that of an entry, and there
is one exactly where an entry survives. -/
theorem sources_of_log {H : Host} {config : Json} {log : List ForceEntry}
    (hH : HostDocumented H log) {sources : List (VoiceCapability × Json)} (hlog : LogSound log)
    (hsame : ∀ e, .forced e ∈ log →
      ConfigDrafts.contentSha256 H e.audit.config = ConfigDrafts.contentSha256 H config →
      Json.Same e.audit.config config)
    (h : collectSources H config (ConfigDrafts.contentSha256 H config)
      (recentForceLogs H (ConfigDrafts.contentSha256 H config) (log.map (forceLogRow H))) =
        .ok sources)
    {k : VoiceCapability} (hk : StillForced ((config.field "capabilities").field k.key)) :
    (∀ source, (k, source) ∈ sources → ∃ e, .forced e ∈ log ∧ e.audit.capability = k ∧
      source = forceSourceValue H e ∧ SourceSurvives H config log k) ∧
    (SourceSurvives H config log k → ∃ source, (k, source) ∈ sources) := by
  rw [recentForceLogs_rows] at h
  have hmem := mem_collectSources h
  have hwithin : ∀ entry ∈ recentEntries H (ConfigDrafts.contentSha256 H config) log,
      entry ∈ log :=
    fun entry hentry => List.mem_of_mem_filter (List.mem_of_mem_take hentry)
  refine ⟨fun source hsource => ?_, ?_⟩
  · obtain ⟨row, hrow, hparse⟩ := (hmem _).mp hsource
    obtain ⟨entry, hentry, rfl⟩ := List.mem_map.mp hrow
    cases entry with
    | refused r => simp [parse_refused] at hparse
    | forced e =>
      obtain ⟨rfl, rfl, husable⟩ := parse_event_some hH (hwithin _ hentry)
        (hlog e (hwithin _ hentry)) hparse
      exact ⟨e, hwithin _ hentry, rfl, rfl, e, hentry, rfl, husable⟩
  · rintro ⟨e, hentry, rfl, husable⟩
    have he := hwithin _ hentry
    -- the entry shows the same status, because it shows the same document
    have hdocument := hsame e he husable.content
    have hstatus := ((hdocument.field "capabilities").field e.audit.capability.key).field
      "verification_status"
    obtain ⟨s, -, hactive⟩ := Json.strIn_iff.mp hk.status
    have hshown := Json.eq_of_shape hstatus.shape.symm (by rw [hactive]; rfl)
    exact ⟨_, (hmem _).mpr ⟨_, List.mem_map_of_mem hentry,
      parse_event_usable hH he (hlog e he) husable hk hshown.symm⟩⟩

/-! ### What a forced test leaves -/

theorem strip_ne_nil {t : Text} (h : nonBlank t = true) : strip t ≠ [] := by
  obtain ⟨c, hc, hblank⟩ := List.any_eq_true.mp h
  have hdrop : t.dropWhile isBlank ≠ [] := by
    intro hnil
    have hall := List.dropWhile_eq_nil_iff.mp hnil c hc
    simp [hall] at hblank
  intro hnil
  rw [strip, List.reverse_eq_nil_iff, List.dropWhile_eq_nil_iff] at hnil
  have hhead := List.head_dropWhile_not isBlank hdrop
  rw [hnil _ (List.mem_reverse.mpr (List.head_mem hdrop))] at hhead
  simp at hhead

/-- What a successful request did. -/
structure Forced (H : Host) (call : ForceCall) (s s' : ConfigStore) (k : VoiceCapability)
    (selected : Json) : Prop where
  capability : capabilityOf (.str call.request.capabilityKey) = some k
  reason : nonBlank call.request.reason = true
  wellFormed : WellFormed selected
  status : (((selected.field "capabilities").field k.key).field "verification_status").strIn
    ["unverified", "stale"] = true
  written : s' = s.forced k call.admin.role (withCapability selected k
    (((selected.field "capabilities").field k.key).update forcedEntries))

theorem force_spec {H : Host} {call : ForceCall} {s s' : ConfigStore}
    (h : forceCapabilityTest H call.admin call.request s = .ok s') :
    ∃ k selected, Forced H call s s' k selected := by
  unfold forceCapabilityTest at h
  obtain ⟨k, hk, h⟩ := bind_eq_ok.mp h
  obtain ⟨selected, -, h⟩ := bind_eq_ok.mp h
  obtain ⟨_, htrusted, h⟩ := bind_eq_ok.mp h
  obtain ⟨_, -, h⟩ := bind_eq_ok.mp h
  obtain ⟨_, -, h⟩ := bind_eq_ok.mp h
  obtain ⟨_, hstatus, h⟩ := bind_eq_ok.mp h
  obtain ⟨_, -, h⟩ := bind_eq_ok.mp h
  obtain rfl := Except.ok.inj h
  obtain ⟨_, -, hk⟩ := bind_eq_ok.mp hk
  obtain ⟨_, -, hk⟩ := bind_eq_ok.mp hk
  obtain ⟨_, hreason, hk⟩ := bind_eq_ok.mp hk
  obtain ⟨k', hcapability, hk⟩ := bind_eq_ok.mp hk
  obtain ⟨_, -, hk⟩ := bind_eq_ok.mp hk
  obtain rfl := Except.ok.inj hk
  exact ⟨k', selected, orRaise_eq_ok.mp hcapability, require_eq_ok.mp hreason,
    wellFormed_of_requireTrusted htrusted, require_eq_ok.mp hstatus, rfl⟩

/-- The forced capability in the document that was written. -/
theorem Forced.item {H : Host} {call : ForceCall} {s s' : ConfigStore} {k : VoiceCapability}
    {selected : Json} (h : Forced H call s s' k selected) :
    StillForced (((selected.field "capabilities").field k.key).update forcedEntries) where
  isObj := (Json.isObj_update _ _).trans (h.wellFormed.capability k).isObj
  status := by
    rw [Json.field_update_ne (by simp [forcedEntries])]
    exact h.status
  forced := by
    have hobj := (h.wellFormed.capability k).isObj
    rw [forcedByConfig, forcedToTest,
      Json.field_update_of_mem hobj forcedEntries_nodup (v := .bool true) (by simp [forcedEntries]),
      Json.field_update_of_mem hobj forcedEntries_nodup (v := .bool true) (by simp [forcedEntries]),
      Json.field_update_of_mem hobj forcedEntries_nodup (v := .str "test".toList)
        (by simp [forcedEntries])]
    simp [CapabilityRules.isTrue, Json.isStr]

/-! ### Runs -/

/-- Versions and revisions count up from nothing. -/
structure Numbered (s : ConfigStore) : Prop where
  version : 0 ≤ s.currentVersion
  revision : 0 ≤ s.currentRevision.getD 0

theorem Numbered.written {s s' : ConfigStore} (h : Numbered s) (hactive : s'.active = s.active)
    (hrevision : s'.currentRevision = some s.nextRevision) : Numbered s' where
  version := by
    rw [ConfigStore.currentVersion, hactive]
    exact h.version
  revision := by
    have hold := h.revision
    rw [hrevision, Option.getD_some, ConfigStore.nextRevision]
    omega

theorem Numbered.published {s : ConfigStore} (h : Numbered s) (config : Json) :
    Numbered (publishConfig config s) where
  version := by
    have hold := h.version
    simp only [ConfigStore.currentVersion, publishConfig, Option.map_some, Option.getD_some] at hold ⊢
    omega
  revision := le_rfl

theorem numbered_of_effect {H : Host} {template : ConfigKey → Json} {key : ConfigKey}
    {s s' : ConfigStore} (heffect : Effect H template key s s') (h : Numbered s) : Numbered s' := by
  cases heffect with
  | unchanged => exact h
  | dropped _ => exact ⟨h.version, le_rfl⟩
  | saved _ _ _ _ => exact h.written rfl rfl
  | restored _ _ => exact h.written rfl rfl
  | forced _ _ _ _ _ => exact h.written rfl rfl
  | imported _ _ _ _ _ => exact h.written rfl rfl
  | published _ _ => exact h.published _
  | seeded _ _ => exact h.published _

structure ForceSound (w : ForceWorld) : Prop where
  numbered : Numbered w.store
  log : LogSound w.log

/-- The entry of a successful request is well made. -/
theorem Forced.wellMade {H : Host} {call : ForceCall} {w : ForceWorld} {s' : ConfigStore}
    {k : VoiceCapability} {selected : Json} (h : Forced H call w.store s' k selected)
    (hnumbered : Numbered w.store) :
    WellMade (eventOf w call ⟨k, call.admin.role, w.store.nextRevision, withCapability selected k
      (((selected.field "capabilities").field k.key).update forcedEntries)⟩) where
  revision := by
    have hold := hnumbered.revision
    simp only [eventOf, ConfigStore.nextRevision]
    omega
  reason := strip_ne_nil h.reason
  capabilities := by
    simp only [eventOf, withCapability]
    rw [Json.field_put_self h.wellFormed.isObj, Json.isObj_put]
    exact h.wellFormed.capabilities
  forced := by
    simp only [eventOf]
    rw [field_withCapability h.wellFormed.isObj h.wellFormed.capabilities, if_pos rfl]
    exact h.item.forced

/-- The world after a successful request: the draft it wrote, and its entry. -/
theorem force_world {H : Host} {call : ForceCall} {w w' : ForceWorld} {store : ConfigStore}
    {k : VoiceCapability} {selected : Json}
    (hok : forceCapabilityTest H call.admin call.request w.store = .ok store)
    (hforced : Forced H call w.store store k selected) (h : w.force H call = some w') :
    w' = ⟨store, .forced (eventOf w call ⟨k, call.admin.role, w.store.nextRevision,
      withCapability selected k
        (((selected.field "capabilities").field k.key).update forcedEntries)⟩) :: w.log⟩ := by
  unfold ForceWorld.force at h
  rw [hok] at h
  dsimp only at h
  rw [hforced.written, ConfigStore.forced, List.getLast?_concat, Option.map_some] at h
  rw [hforced.written]
  exact (Option.some.inj h).symm

theorem force_sound {H : Host} {call : ForceCall} {w w' : ForceWorld} (hw : ForceSound w)
    (h : w.force H call = some w') : ForceSound w' := by
  cases hok : forceCapabilityTest H call.admin call.request w.store with
  | error e =>
    unfold ForceWorld.force at h
    rw [hok] at h
    cases e with
    | config code errors =>
      obtain rfl := Option.some.inj h
      refine ⟨hw.numbered, fun e he => hw.log e ?_⟩
      simpa using he
    | evidence _ =>
      obtain rfl := Option.some.inj h
      exact hw
    | raised _ =>
      obtain rfl := Option.some.inj h
      exact hw
  | ok store =>
    obtain ⟨k, selected, hforced⟩ := force_spec hok
    obtain rfl := force_world hok hforced h
    refine ⟨@numbered_of_effect _ (fun _ => .null) _ _ _ (forceCapabilityTest_spec hok)
      hw.numbered, fun e he => ?_⟩
    rcases List.mem_cons.mp he with heq | hold
    · obtain rfl := ForceEntry.forced.inj heq
      exact hforced.wellMade hw.numbered
    · exact hw.log e hold

theorem step_sound {H : Host} {template : ConfigKey → Json} {w w' : ForceWorld} {i : Input}
    (hw : ForceSound w) (h : (forcing H template).step w i = some w') : ForceSound w' := by
  cases i with
  | force call => exact force_sound hw h
  | other op =>
    change w.step H template (.other op) = some w' at h
    unfold ForceWorld.step at h
    dsimp only at h
    split_ifs at h
    split at h
    · rename_i store hok
      obtain rfl := Option.some.inj h
      exact ⟨numbered_of_effect (transact_effect hok) hw.numbered, hw.log⟩
    · obtain rfl := Option.some.inj h
      exact hw

theorem reachable_forceSound {H : Host} {template : ConfigKey → Json} {w : ForceWorld}
    (hw : (forcing H template).Reachable w) : ForceSound w := by
  refine Machine.reachable_invariant (fun w hstart => ?_) (fun _ _ _ => step_sound) hw
  obtain rfl : w = ⟨emptyStore, []⟩ := hstart
  exact ⟨⟨le_rfl, le_rfl⟩, fun e he => absurd he (by simp)⟩

/-- A capability that was forced and not edited since is still forced in the draft. -/
theorem drafted_of_forcedSince {H : Host} {template : ConfigKey → Json} {w : ForceWorld}
    {k : VoiceCapability} (h : ForcedSince H template w k) :
    ∃ item, w.drafted k = some item ∧ StillForced item := by
  obtain ⟨before, call, store, after, inputs, -, hok, hk, hstep, hrun, hkept⟩ := h
  obtain ⟨k', selected, hforced⟩ := force_spec hok
  obtain rfl := Option.some.inj (hk.symm.trans hforced.capability)
  have hafter := force_world hok hforced hstep
  refine ⟨_, (hkept inputs w List.prefix_rfl hrun).trans ?_, hforced.item⟩
  rw [hafter, ForceWorld.drafted, hforced.written]
  simp only [ConfigStore.forced, ConfigStore.writeDraft, Option.map_some]
  rw [field_withCapability hforced.wellFormed.isObj hforced.wellFormed.capabilities, if_pos rfl]

/-! ### From the log to the bundle -/

/-- What the bundle has of the call configuration and of the forced tests. -/
theorem loadBundle_parts {H : Host} {D : RuntimeDefaults} {redis : RedisReads}
    {mysql : Option MysqlReads} {external : Json} {userId : Option ℤ} {b : VoiceRuntimeBundle}
    (h : loadBundle H D redis mysql external userId = .ok b) :
    forceSourcesOf H mysql = .ok (b.forceSources, b.forceSourcesAvailable) ∧
      resolveKey H .voiceCallConfig redis.config (activeRow (rowsOf MysqlReads.configRows mysql))
        (canonicalPayload H D .voiceCallConfig mysql external
          (parsePublishedEnvelope H redis.envelope)) = .ok b.config := by
  unfold loadBundle at h
  obtain ⟨sources, hsources, h⟩ := bind_eq_ok.mp h
  obtain ⟨config, hconfig, h⟩ := bind_eq_ok.mp h
  obtain ⟨script, -, h⟩ := bind_eq_ok.mp h
  obtain rfl := Except.ok.inj h
  rw [activeRow_rowsOf] at hconfig
  exact ⟨hsources, hconfig⟩

/-- The source of a forced capability is the newest that was collected. -/
theorem readForceSources_get {H : Host} {mysql : MysqlReads} {logs : List ForceLogRow}
    {found : Dict Text Json × Bool} {k : VoiceCapability} (hlogs : mysql.forceLogs = some logs)
    (hk : k ∈ forcedKeys mysql) (h : readForceSources H mysql = .ok found) :
    found.2 = true ∧ ∃ sources,
      collectSources H (activeDocument mysql)
          (RuntimeSnapshots.contentSha256 H (activeDocument mysql))
          (recentForceLogs H (RuntimeSnapshots.contentSha256 H (activeDocument mysql)) logs) =
        .ok sources ∧
      (∀ source, Dict.get found.1 k.key.toList = some source → (k, source) ∈ sources) ∧
      ((∃ source, (k, source) ∈ sources) → (Dict.get found.1 k.key.toList).isSome = true) := by
  have hsome : (forcedKeys mysql).isEmpty = false := by
    cases hkeys : forcedKeys mysql with
    | nil => simp [hkeys] at hk
    | cons _ _ => rfl
  unfold readForceSources at h
  rw [hsome, hlogs, if_neg Bool.false_ne_true] at h
  obtain ⟨sources, hsources, h⟩ := bind_eq_ok.mp h
  obtain rfl := Except.ok.inj h
  refine ⟨rfl, sources, hsources, fun source hget => ?_, fun ⟨source, hsource⟩ => ?_⟩
  · rw [Dict.get_foldl_setDefault (fun e : VoiceCapability × Json => e.1.key.toList) Prod.snd] at hget
    obtain ⟨⟨k', source'⟩, hfind, rfl⟩ := Option.map_eq_some_iff.mp hget
    have hkey := List.find?_some hfind
    obtain rfl : k' = k := VoiceCapability.key_injective
      (String.toList_inj.mp (of_decide_eq_true hkey))
    exact List.mem_of_mem_filter (List.mem_of_find?_eq_some hfind)
  · rw [Dict.get_foldl_setDefault (fun e : VoiceCapability × Json => e.1.key.toList) Prod.snd,
      Option.isSome_map, List.find?_isSome]
    exact ⟨(k, source), List.mem_filter.mpr ⟨hsource, decide_eq_true hk⟩, by simp⟩

theorem StillForced.of_same {item item' : Json} (h : StillForced item)
    (hsame : Json.Same item' item) : StillForced item' where
  isObj := by
    have hshape := hsame.shape
    obtain ⟨fields, hfields⟩ := Json.isObj_iff.mp h.isObj
    rw [hfields] at hshape
    cases item' <;> simp_all [Json.shape, Json.isObj]
  status := by
    have hstr := funext fun s => (hsame.field "verification_status").isStr s
    rw [Json.strIn, hstr]
    exact h.status
  forced := by
    simp only [forcedByConfig, forcedToTest, Json.Same.isTrue (hsame.field "enabled"),
      Json.Same.isTrue (hsame.field "forced_enabled"), (hsame.field "effective_scope").isStr]
    exact h.forced

/-- One turn of the loop over a forced capability. -/
theorem runtimeCapability_forced {H : Host} {b : VoiceRuntimeBundle} {current : Option Json}
    {now : PyDatetime} {testUser : Bool} {k : VoiceCapability} {capability : Json}
    {r : RuntimeCapability} (hitem : StillForced capability)
    (h : runtimeCapability H b current now testUser k capability = .ok r) :
    (testUser = true → ∀ source, b.forceSource k = some source →
      r.value.field "enabled" = .bool true ∧ r.value.field "forced_enabled" = .bool true ∧
        r.value.field "effective_scope" = .str "test".toList ∧ r.value.isObj = true ∧
        r.forceSource = some source) ∧
    ((testUser = false ∨ b.forceSource k = none) → Off r.value) := by
  obtain ⟨dimensions, -, h⟩ := bind_eq_ok.mp h
  obtain ⟨resolved, hresolve, h⟩ := bind_eq_ok.mp h
  obtain ⟨item, hscope, h⟩ := bind_eq_ok.mp h
  obtain rfl := Except.ok.inj h
  rw [orRaise_eq_ok] at hresolve hscope
  obtain ⟨s, hs, hstatus⟩ := Json.strIn_iff.mp hitem.status
  have hnon : s ∈ nonVerifiedStatuses := by
    simp only [List.mem_cons, List.not_mem_nil, or_false] at hs
    rcases hs with rfl | rfl <;> simp [nonVerifiedStatuses]
  have hunverified : (capability.field "verification_status").isStr "verified" = false := by
    simp only [List.mem_cons, List.not_mem_nil, or_false] at hs
    rw [hstatus]
    rcases hs with rfl | rfl <;> simp [Json.isStr]
  rw [resolve_of_unverified hnon hstatus] at hresolve
  obtain rfl := Option.some.inj hresolve
  have hobj : (disabledProjection capability s).isObj = true :=
    (isObj_disabledProjection capability s).trans hitem.isObj
  rw [hunverified, Bool.not_false, Bool.true_or, if_pos rfl, Bool.true_and] at hscope
  unfold scopeCapabilityForCall at hscope
  rw [status_disabledProjection hitem.isObj] at hscope
  dsimp only at hscope
  have hunproven : decide (s.toList = "unverified".toList ∨ s.toList = "stale".toList) = true := by
    simp only [List.mem_cons, List.not_mem_nil, or_false] at hs
    rcases hs with rfl | rfl <;> simp
  rw [hunproven, hitem.forced, Bool.and_true, Bool.and_true, find_nonVerified hnon] at hscope
  refine ⟨fun htester source hsource => ?_, fun hnot => ?_⟩
  · rw [hsource, htester, Option.isSome_some, Bool.and_true, if_pos rfl] at hscope
    obtain rfl := Option.some.inj hscope
    have hentry : ∀ {key : String} {v : Json}, (key, v) ∈ forcedEntries →
        ((disabledProjection capability s).update forcedEntries).field key = v :=
      fun hmem => Json.field_update_of_mem hobj forcedEntries_nodup hmem
    have henabled := hentry (show ("enabled", .bool true) ∈ forcedEntries by simp [forcedEntries])
    have hforced := hentry
      (show ("forced_enabled", .bool true) ∈ forcedEntries by simp [forcedEntries])
    have htest := hentry
      (show ("effective_scope", .str "test".toList) ∈ forcedEntries by simp [forcedEntries])
    have hconfig : forcedByConfig ((disabledProjection capability s).update forcedEntries) = true := by
      rw [forcedByConfig, forcedToTest, henabled, hforced, htest]
      simp [CapabilityRules.isTrue, Json.isStr]
    refine ⟨henabled, hforced, htest, (Json.isObj_update _ _).trans hobj, ?_⟩
    rw [hsource]
    exact Option.filter_some_pos (p := fun _ => forcedByConfig
      ((disabledProjection capability s).update forcedEntries)) hconfig
  · have hno : ((b.forceSource k).isSome && testUser) = false := by
      rcases hnot with hnot | hnot <;> simp [hnot]
    rw [hno, if_neg Bool.false_ne_true] at hscope
    obtain rfl := Option.some.inj hscope
    exact off_update hobj

/-! ### What takes effect -/

/-- A capability is enabled for the tests, with the source that forced it. -/
structure TakesEffect (H : Host) (log : List ForceEntry) (k : VoiceCapability) (item : Json) :
    Prop where
  enabled : item.field "enabled" = .bool true
  forced : item.field "forced_enabled" = .bool true
  scope : item.field "effective_scope" = .str "test".toList
  source : ∃ e, .forced e ∈ log ∧ e.audit.capability = k ∧
    item.field "force_source" = forceSourceValue H e

/-- The document that is active. -/
def activeConfig (store : ConfigStore) : Json := (store.active.map AdminConfig.configValue).getD .null

/-- A forced capability runs for the users of the tests, and for no other. -/
structure TestHonoured (H : Host) (log : List ForceEntry) (config : Json) (userId : Option ℤ)
    (k : VoiceCapability) (item : Json) : Prop where
  tester : isTestUser ((config.field "global").field "test_user_ids") userId = true →
    TakesEffect H log k item
  others : isTestUser ((config.field "global").field "test_user_ids") userId = false →
    item.field "enabled" = .bool false

/-- What a publication of the draft leaves. -/
theorem publish_ok {H : Host} {request : PublishRequest} {s s' : ConfigStore}
    (h : publish H .voiceCallConfig request s = .ok s') :
    ∃ d, s.draft = some d ∧ d.configValue.isObj = true ∧
      trustedRuntimeIssues H.sectionIssues .voiceCallConfig d.configValue = [] ∧
      s'.active = some ⟨d.configValue, s.currentVersion + 1, none⟩ := by
  unfold publish at h
  obtain ⟨_, -, h⟩ := bind_eq_ok.mp h
  obtain ⟨config, hconfig, h⟩ := bind_eq_ok.mp h
  obtain ⟨_, hcheck, h⟩ := bind_eq_ok.mp h
  obtain rfl := Except.ok.inj h
  rw [orRaise_eq_ok] at hconfig
  obtain ⟨d, hd, rfl, hobj⟩ := parseConfigValue_eq_some.mp hconfig
  exact ⟨d, hd, hobj, issues_of_requireTrusted (requireTrusted_of_publishable hcheck), rfl⟩

/-- The bundle that is loaded after a publication has the published document. -/
theorem published_bundle {H : Host} {D : RuntimeDefaults} {redis : RedisReads}
    {mysql : MysqlReads} {external : Json} {caller : Option ℤ} {b : VoiceRuntimeBundle}
    {store : ConfigStore} {log : List ForceEntry} {a : AdminConfig} (hactive : store.active = some a)
    (hobj : a.configValue.isObj = true) (hversion : 1 ≤ a.version)
    (htrusted : trustedRuntimeIssues H.sectionIssues .voiceCallConfig a.configValue = [])
    (hreads : ReadsOf H store log mysql) (htell : DigestsTell H redis.config mysql.configRows)
    (h : loadBundle H D redis (some mysql) external caller = .ok b) :
    Json.Same b.config.payload a.configValue ∧ activeDocument mysql = a.configValue := by
  obtain ⟨row, hrow, hdoc, hrowVersion, hupdated⟩ := hreads.config a hactive
  obtain ⟨publishedAt, hpublished⟩ := Option.isSome_iff_exists.mp hupdated
  have hvalid : ActiveConfig H .voiceCallConfig mysql.configRows row a.configValue publishedAt :=
    ⟨hrow, ⟨by rw [hdoc]; rfl, hobj, htrusted, by rw [hrowVersion]; exact hversion, hpublished⟩⟩
  have hresolve := (loadBundle_parts h).2
  have hwhole := resolveKey_whole htell hresolve
  refine ⟨(hwhole.published row a.configValue publishedAt hvalid).1, ?_⟩
  rw [activeDocument, hrow, Option.bind_some, hdoc]
  rfl

/-- After a publication, a test of a capability that has stayed forced takes effect exactly
where a usable entry is left. -/
theorem testHonoured_iff {H : Host} {D : RuntimeDefaults} {redis : RedisReads}
    {mysql : MysqlReads} {external : Json} {caller userId : Option ℤ} {b : VoiceRuntimeBundle}
    {current : Option Json} {now : PyDatetime} {s : VoiceRuntimeSnapshot} {config : Json}
    {log : List ForceEntry} {k : VoiceCapability} (hH : HostDocumented H log) (hlog : LogSound log)
    (hsame : ∀ e, .forced e ∈ log →
      ConfigDrafts.contentSha256 H e.audit.config = ConfigDrafts.contentSha256 H config →
      Json.Same e.audit.config config)
    (hk : StillForced ((config.field "capabilities").field k.key))
    (hpayload : Json.Same b.config.payload config) (hdocument : activeDocument mysql = config)
    (hlogs : mysql.forceLogs = some (log.map (forceLogRow H)))
    (hload : loadBundle H D redis (some mysql) external caller = .ok b)
    (hbuild : buildSnapshot H D b current now userId = .ok s) :
    TestHonoured H log config userId k (s.capability k) ↔
      (isTestUser ((config.field "global").field "test_user_ids") userId = true →
        SourceSurvives H config log k) := by
  have hforced := hk.forced
  simp only [forcedByConfig, forcedToTest, Bool.and_eq_true] at hforced
  have hkey : k ∈ forcedKeys mysql := by
    rw [forcedKeys, List.mem_filter, activeCapability, hdocument]
    exact ⟨k.mem_all, hforced.1.2⟩
  obtain ⟨havailable, sources, hsources, hget, hsome⟩ :=
    readForceSources_get hlogs hkey (loadBundle_parts hload).1
  dsimp only at havailable hget hsome
  rw [hdocument] at hsources
  obtain ⟨horigin, hexists⟩ := sources_of_log hH hlog hsame hsources hk
  have htester : b.testUser userId =
      isTestUser ((config.field "global").field "test_user_ids") userId :=
    listed_of_same ((hpayload.field "global").field "test_user_ids") userId
  obtain ⟨-, hitems⟩ := buildSnapshot_capability hbuild
  obtain ⟨r, hr, hitem, -⟩ := hitems k
  have hstill : StillForced (b.capability k) :=
    hk.of_same ((hpayload.field "capabilities").field k.key)
  obtain ⟨hon, hoff⟩ := runtimeCapability_forced hstill hr
  rw [htester] at hon hoff
  -- the bundle's source is that of an entry, and is there when an entry survives
  have hsource : ∀ source, b.forceSource k = some source → (k, source) ∈ sources := by
    intro source h
    rw [VoiceRuntimeBundle.forceSource, havailable, if_pos rfl, Option.filter_eq_some_iff] at h
    exact hget source h.1
  have hthere : SourceSurvives H config log k → ∃ source, b.forceSource k = some source := by
    intro hsurvives
    obtain ⟨source, hfound⟩ := Option.isSome_iff_exists.mp (hsome (hexists hsurvives))
    obtain ⟨e, -, -, rfl, -⟩ := horigin source (hget source hfound)
    refine ⟨forceSourceValue H e, ?_⟩
    rw [VoiceRuntimeBundle.forceSource, havailable, if_pos rfl, hfound]
    exact Option.filter_some_pos rfl
  rw [hitem]
  constructor
  · intro hhonoured htest
    have htakes := (hhonoured.tester htest).enabled
    rw [withForceSource_field r (by simp)] at htakes
    cases hfound : b.forceSource k with
    | none =>
      rw [(hoff (Or.inr hfound)).1] at htakes
      simp at htakes
    | some source =>
      obtain ⟨e, -, -, -, hsurvives⟩ := horigin source (hsource source hfound)
      exact hsurvives
  · intro hcondition
    refine ⟨fun htest => ?_, fun htest => ?_⟩
    · obtain ⟨source, hfound⟩ := hthere (hcondition htest)
      obtain ⟨henabled, hforcedFlag, hscope, hobj, hforceSource⟩ := hon htest source hfound
      obtain ⟨e, he, hcapability, rfl, -⟩ := horigin source (hsource source hfound)
      refine ⟨?_, ?_, ?_, e, he, hcapability, ?_⟩
      · rw [withForceSource_field r (by simp), henabled]
      · rw [withForceSource_field r (by simp), hforcedFlag]
      · rw [withForceSource_field r (by simp), hscope]
      · rw [withForceSource, hforceSource]
        exact Json.field_put_self hobj _ _
    · rw [withForceSource_field r (by simp)]
      exact (hoff (Or.inl htest)).1

/-- Two entries of the log with the digest of a document show that document. -/
def DigestsShow (H : Host) (log : List ForceEntry) (config : Json) : Prop :=
  ∀ e, .forced e ∈ log →
    ConfigDrafts.contentSha256 H e.audit.config = ConfigDrafts.contentSha256 H config →
    Json.Same e.audit.config config

/-- Exactly when each capability that was forced has a usable entry that shows what was
published, all the tests of the draft take effect. -/
theorem forced_tests_take_effect_iff {H : Host} {template : ConfigKey → Json} {D : RuntimeDefaults}
    {w : ForceWorld} {request : PublishRequest} {store : ConfigStore} {redis : RedisReads}
    {mysql : MysqlReads} {external : Json} {caller userId : Option ℤ} {b : VoiceRuntimeBundle}
    {current : Option Json} {now : PyDatetime} {s : VoiceRuntimeSnapshot}
    (hH : HostDocumented H w.log) (hw : (forcing H template).Reachable w)
    (hpublish : publish H .voiceCallConfig request w.store = .ok store)
    (hreads : ReadsOf H store w.log mysql) (htell : DigestsTell H redis.config mysql.configRows)
    (hshow : DigestsShow H w.log (activeConfig store))
    (hload : loadBundle H D redis (some mysql) external caller = .ok b)
    (hbuild : buildSnapshot H D b current now userId = .ok s) :
    (∀ k, ForcedSince H template w k →
      TestHonoured H w.log (activeConfig store) userId k (s.capability k)) ↔
    (isTestUser (((activeConfig store).field "global").field "test_user_ids") userId = true →
      ∀ k, ForcedSince H template w k → SourceSurvives H (activeConfig store) w.log k) := by
  have hsound := reachable_forceSound hw
  obtain ⟨d, hd, hobj, htrusted, hactive⟩ := publish_ok hpublish
  have hversion : 1 ≤ w.store.currentVersion + 1 := by
    have hold := hsound.numbered.version
    omega
  have hconfig : activeConfig store = d.configValue := by rw [activeConfig, hactive]; rfl
  obtain ⟨hpayload, hdocument⟩ :=
    published_bundle hactive hobj hversion htrusted hreads htell hload
  rw [hconfig] at hshow ⊢
  have hone : ∀ k, ForcedSince H template w k →
      (TestHonoured H w.log d.configValue userId k (s.capability k) ↔
        (isTestUser ((d.configValue.field "global").field "test_user_ids") userId = true →
          SourceSurvives H d.configValue w.log k)) := by
    intro k hsince
    obtain ⟨item, hdrafted, hstill⟩ := drafted_of_forcedSince hsince
    rw [ForceWorld.drafted, hd, Option.map_some, Option.some.injEq] at hdrafted
    rw [← hdrafted] at hstill
    exact testHonoured_iff hH hsound.log hshow hstill hpayload hdocument hreads.forceLogs hload
      hbuild
  exact ⟨fun h htest k hsince => (hone k hsince).mp (h k hsince) htest,
    fun h k hsince => (hone k hsince).mpr fun htest => h htest k hsince⟩

/-! ### Two tests of one draft -/

/-- A platform whose digests only tell which capabilities are forced. -/
def forceHost : Host where
  sha256 t := ((t.map fun c => if c = 't' then '1' else '0') ++ List.replicate 64 '0').take 64
  casefold := id
  fromisoformat t := if t = "2026-01-01T00:00:00+00:00".toList then some firstInstant else none
  isoformat _ := "2026-01-01T00:00:00Z".toList
  canonicalJson value :=
    match value.field "content_sha256" with
    | .str t => t
    | _ => VoiceCapability.all.map fun k =>
      if CapabilityRules.isTrue (((value.field "capabilities").field k.key).field "forced_enabled")
      then 't' else 'f'
  payloadAccepted _ := true
  unsafeValues _ := false
  getenv _ := true
  sectionIssues _ _ := []

/-- The published persona. -/
def firstPersona : PersonaRow := ⟨some "p".toList, 1, true⟩

def firstRef : Json := ((rowPersonaRef forceHost firstPersona).map personaRefValue).getD .null

/-- A template with a credential. -/
def forceTemplate (key : ConfigKey) : Json :=
  (callTemplate key).put "s2s" (document [("credential_ref", .str "ref".toList)])

def callFor (k : VoiceCapability) : ForceCall where
  admin := ⟨1, .superAdmin, true, false⟩
  request := ⟨k.key.toList, "test".toList, "CONFIRM".toList, "trial".toList⟩
  forcedAt := firstInstant.utc
  createdAt := firstInstant.utc
  category := []

/-- One capability is forced, and then another one. -/
def seededInputs : List Input := [.other (.initializeDefaults (some firstRef))]

def firstInputs : List Input := seededInputs ++ [.force (callFor .replyCancel)]

def secondInputs : List Input := firstInputs ++ [.force (callFor .contextTruncate)]

def worldAfter (inputs : List Input) : ForceWorld :=
  (forcing forceHost forceTemplate).after ⟨emptyStore, []⟩ inputs

def confirmedRequest : PublishRequest where
  confirmText := "CONFIRM".toList
  changeNote := "n".toList
  now := firstInstant.utc
  provider := none
  personaAnchored _ := true

/-- What is read when only the call is configured. -/
def readsOf (H : Host) (store : ConfigStore) (log : List ForceEntry) : MysqlReads where
  configRows := store.active.toList.map fun a =>
    ⟨.document a.configValue, a.version, true, some firstInstant⟩
  scriptRows := []
  personaRows := [firstPersona]
  masterRows := []
  evidence := some []
  forceLogs := some (log.map (forceLogRow H))

def snapshotAfter (userId : Option ℤ) (store : ConfigStore) (log : List ForceEntry) :
    Except SnapshotError (VoiceRuntimeBundle × VoiceRuntimeSnapshot) := do
  let b ← loadBundle forceHost startDefaults emptyCache (some (readsOf forceHost store log)) .null
    userId
  let s ← buildSnapshot forceHost startDefaults b none firstInstant userId
  .ok (b, s)

/-- The published document and the log agree, and the snapshot of a test user has the second
capability and not the first. -/
def secondOnly (log : List ForceEntry) (store : ConfigStore) : Bool :=
  log.all (fun entry => match entry with
    | .forced e => decide (e.forcedAt = firstInstant.utc) &&
      (Json.eqb e.audit.config (activeConfig store) ||
        decide (ConfigDrafts.contentSha256 forceHost e.audit.config ≠
          ConfigDrafts.contentSha256 forceHost (activeConfig store)))
    | .refused _ => true) &&
  isTestUser (((activeConfig store).field "global").field "test_user_ids") (some 7) &&
  (snapshotAfter (some 7) store log).toOption.any fun e =>
    !CapabilityRules.isTrue ((e.2.capability .replyCancel).field "enabled") &&
      CapabilityRules.isTrue ((e.2.capability .contextTruncate).field "enabled")

theorem second_runs : (((forcing forceHost forceTemplate).run ⟨emptyStore, []⟩ secondInputs).isSome &&
    (forceCapabilityTest forceHost (callFor .replyCancel).admin (callFor .replyCancel).request
      (worldAfter seededInputs).store).toOption.isSome &&
    Json.eqb (((worldAfter secondInputs).drafted .replyCancel).getD .null)
      (((worldAfter firstInputs).drafted .replyCancel).getD .null) &&
    (worldAfter secondInputs).store.draft.isSome && (worldAfter firstInputs).store.draft.isSome &&
    (publish forceHost .voiceCallConfig confirmedRequest
      (worldAfter secondInputs).store).toOption.any
        (secondOnly (worldAfter secondInputs).log)) = true := by
  decide +kernel

theorem isSha256_forceHost (t : Text) : isSha256 (forceHost.sha256 t) = true := by
  have hdigit : ∀ c ∈ (t.map fun c => if c = 't' then '1' else '0') ++ List.replicate 64 '0',
      isHexDigit c = true := by
    intro c hc
    rcases List.mem_append.mp hc with hc | hc
    · obtain ⟨c', -, rfl⟩ := List.mem_map.mp hc
      split_ifs <;> decide
    · rw [List.eq_of_mem_replicate hc]
      decide
  simp only [isSha256, forceHost, Bool.and_eq_true, beq_iff_eq, List.all_eq_true]
  refine ⟨by simp, fun c hc => hdigit c (List.mem_of_mem_take hc)⟩

theorem firstInstant_read : ∃ read,
    readsInstant forceHost (.str (forceHost.isoformat firstInstant.utc)) = some read ∧
      read.utcoffset.isSome = true ∧ read.utc = firstInstant.utc :=
  ⟨firstInstant, by decide, by decide, rfl⟩

theorem readsOf_spec (H : Host) (store : ConfigStore) (log : List ForceEntry) :
    ReadsOf H store log (readsOf H store log) where
  config a ha := by
    refine ⟨⟨.document a.configValue, a.version, true, some firstInstant⟩, ?_, rfl, rfl, rfl⟩
    simp [readsOf, ha, activeRow]
  forceLogs := rfl

/-- The first capability was forced, and the second test left it as it was. -/
theorem first_forcedSince :
    ForcedSince forceHost forceTemplate (worldAfter secondInputs) .replyCancel := by
  have hall := second_runs
  simp only [Bool.and_eq_true] at hall
  obtain ⟨⟨⟨⟨⟨hrun, hforced⟩, hkept⟩, hdraft⟩, hdraft'⟩, -⟩ := hall
  have hsecond : (forcing forceHost forceTemplate).step (worldAfter firstInputs)
      (.force (callFor .contextTruncate)) = some (worldAfter secondInputs) :=
    Machine.step_after hrun
  have hrunFirst : ((forcing forceHost forceTemplate).run ⟨emptyStore, []⟩ firstInputs).isSome :=
    Machine.isSome_of_append hrun
  have hfirst : (forcing forceHost forceTemplate).step (worldAfter seededInputs)
      (.force (callFor .replyCancel)) = some (worldAfter firstInputs) :=
    Machine.step_after hrunFirst
  obtain ⟨store, hstore⟩ := Option.isSome_iff_exists.mp hforced
  refine ⟨worldAfter seededInputs, callFor .replyCancel, store, worldAfter firstInputs,
    [.force (callFor .contextTruncate)],
    Machine.reachable_after rfl (Machine.isSome_of_append hrunFirst), toOption_eq_some.mp hstore,
    capabilityOf_key _, hfirst, ?_, fun first w' hprefix hw' => ?_⟩
  · rw [Machine.run_cons_eq_some]
    exact ⟨_, hsecond, rfl⟩
  · rcases List.prefix_cons_iff.mp hprefix with rfl | ⟨rest, rfl, hrest⟩
    · rw [← Option.some.inj hw']
    · obtain rfl := List.prefix_nil.mp hrest
      obtain ⟨w'', hstep, hw''⟩ := Machine.run_cons_eq_some.mp hw'
      obtain rfl := Option.some.inj (hsecond.symm.trans hstep)
      rw [← Option.some.inj hw'']
      obtain ⟨d, hd⟩ := Option.isSome_iff_exists.mp hdraft
      obtain ⟨d', hd'⟩ := Option.isSome_iff_exists.mp hdraft'
      simp only [ForceWorld.drafted, hd, hd', Option.map_some, Option.getD_some] at hkept ⊢
      rw [Json.eq_of_eqb hkept]

/-- The run that the sample is about, as hypotheses. -/
theorem second_published : ∃ store b s,
    publish forceHost .voiceCallConfig confirmedRequest (worldAfter secondInputs).store = .ok store ∧
    loadBundle forceHost startDefaults emptyCache
      (some (readsOf forceHost store (worldAfter secondInputs).log)) .null (some 7) = .ok b ∧
    buildSnapshot forceHost startDefaults b none firstInstant (some 7) = .ok s ∧
    HostDocumented forceHost (worldAfter secondInputs).log ∧
    DigestsShow forceHost (worldAfter secondInputs).log (activeConfig store) ∧
    isTestUser (((activeConfig store).field "global").field "test_user_ids") (some 7) = true ∧
    CapabilityRules.isTrue ((s.capability .replyCancel).field "enabled") = false := by
  have hall := second_runs
  simp only [Bool.and_eq_true] at hall
  obtain ⟨store, hpublish, hstore⟩ := exists_ok_of_any hall.2
  simp only [secondOnly, Bool.and_eq_true, List.all_eq_true] at hstore
  obtain ⟨⟨hlog, htester⟩, hsnapshot⟩ := hstore
  obtain ⟨⟨b, s⟩, hrun, hcheck⟩ := exists_ok_of_any hsnapshot
  obtain ⟨b', hload, hrun⟩ := bind_eq_ok.mp hrun
  obtain ⟨s', hbuild, hrun⟩ := bind_eq_ok.mp hrun
  obtain ⟨rfl, rfl⟩ := Prod.mk.inj (Except.ok.inj hrun)
  have hentry : ∀ e, .forced e ∈ (worldAfter secondInputs).log → e.forcedAt = firstInstant.utc ∧
      (Json.eqb e.audit.config (activeConfig store) = true ∨
        ConfigDrafts.contentSha256 forceHost e.audit.config ≠
          ConfigDrafts.contentSha256 forceHost (activeConfig store)) := by
    intro e he
    simpa only [Bool.and_eq_true, Bool.or_eq_true, decide_eq_true_eq] using hlog _ he
  refine ⟨store, b', s', hpublish, hload, hbuild, ⟨isSha256_forceHost, fun e he => ?_⟩,
    fun e he hdigest => ?_, htester, by simpa using (Bool.and_eq_true_iff.mp hcheck).1⟩
  · rw [(hentry e he).1]
    exact firstInstant_read
  · rw [Json.eq_of_eqb ((hentry e he).2.resolve_right (not_not.mpr hdigest))]
    exact .refl _

theorem second_reachable : (forcing forceHost forceTemplate).Reachable (worldAfter secondInputs) := by
  have hall := second_runs
  simp only [Bool.and_eq_true] at hall
  exact Machine.reachable_after rfl hall.1.1.1.1.1

/-- The test of a second capability voids that of the first. -/
theorem second_test_voids_first : ∃ store b s,
    publish forceHost .voiceCallConfig confirmedRequest (worldAfter secondInputs).store = .ok store ∧
    loadBundle forceHost startDefaults emptyCache
      (some (readsOf forceHost store (worldAfter secondInputs).log)) .null (some 7) = .ok b ∧
    buildSnapshot forceHost startDefaults b none firstInstant (some 7) = .ok s ∧
    ForcedSince forceHost forceTemplate (worldAfter secondInputs) .replyCancel ∧
    ¬TestHonoured forceHost (worldAfter secondInputs).log (activeConfig store) (some 7) .replyCancel
      (s.capability .replyCancel) := by
  obtain ⟨store, b, s, hpublish, hload, hbuild, -, -, htester, hdisabled⟩ := second_published
  refine ⟨store, b, s, hpublish, hload, hbuild, first_forcedSince, fun h => ?_⟩
  rw [(h.tester htester).enabled] at hdisabled
  simp [CapabilityRules.isTrue] at hdisabled

theorem forced_tests_take_effect_iff_second : ∃ (store : ConfigStore) (s : VoiceRuntimeSnapshot),
    ((∀ k, ForcedSince forceHost forceTemplate (worldAfter secondInputs) k →
      TestHonoured forceHost (worldAfter secondInputs).log (activeConfig store) (some 7) k
        (s.capability k)) ↔
    (isTestUser (((activeConfig store).field "global").field "test_user_ids") (some 7) = true →
      ∀ k, ForcedSince forceHost forceTemplate (worldAfter secondInputs) k →
        SourceSurvives forceHost (activeConfig store) (worldAfter secondInputs).log k)) := by
  obtain ⟨store, b, s, hpublish, hload, hbuild, hhost, hshow, -⟩ := second_published
  exact ⟨store, s, forced_tests_take_effect_iff hhost second_reachable hpublish
    (readsOf_spec _ _ _) (noDigests _ _) hshow hload hbuild⟩

end CompanionBackend.ForcedTests
