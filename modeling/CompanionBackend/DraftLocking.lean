import CompanionBackend.DraftSteps

/-!
# What the draft lock protects

A save carries the version and the revision of the bundle it was made from. Versions grow
for ever, but the revision of a new draft starts again at one when the old one is gone, so
a bundle read from a discarded draft can fit a later one. In runs that give no draft a
revision which some administrator still holds, a save changes exactly the content that
its bundle showed.
-/
namespace CompanionBackend.ConfigDrafts

open Runs ProviderEvents Dictionaries CapabilityRules CapabilityEvidence PublishGate

variable {H : Host} {template : ConfigKey → Json} {key : ConfigKey}

/-- No bundle of the active version carries the revision that the next write of the draft
gets. -/
def RevisionUnused (w : World) : Prop :=
  ∀ b ∈ w.bundles, b.baseVersion = w.store.currentVersion →
    b.draftRevision ≠ some w.store.nextRevision

instance decidableRevisionUnused (w : World) : Decidable (RevisionUnused w) :=
  inferInstanceAs (Decidable (∀ b ∈ w.bundles, b.baseVersion = w.store.currentVersion →
    b.draftRevision ≠ some w.store.nextRevision))

/-- The transaction may write the draft; a save does so only where the lock lets it. -/
def Operation.writesDraft (s : ConfigStore) : Operation → Bool
  | .saveDraftSection _ version revision _ =>
    decide (version = s.currentVersion ∧ revision = s.currentRevision)
  | .discardDraftSection _ | .forceCapabilityTest _ _ | .importPhase0EvidenceBundle _ _ _
  | .importPhase0EvidenceSelection _ _ _ _ | .appendAdminCapabilityEvidence _ _ _ => true
  | _ => false

/-- The step gives the draft no revision that an administrator already holds. -/
def KeepsRevisionsApart (w : World) (r : Request) : Prop :=
  match r with
  | .transact op false => op.writesDraft w.store = true → RevisionUnused w
  | _ => True

instance decidableKeepsRevisionsApart (w : World) (r : Request) :
    Decidable (KeepsRevisionsApart w r) :=
  match r with
  | .transact op false =>
    inferInstanceAs (Decidable (op.writesDraft w.store = true → RevisionUnused w))
  | .transact _ true | .getBundle _ => isTrue trivial

/-- Every save that the lock admits changes the content its bundle showed, and no other. -/
structure LockSound (H : Host) (key : ConfigKey) (w : World) : Prop where
  applied : ∀ b ∈ w.bundles, ∀ (sec : String) (content : Dict Text Json) (store : ConfigStore),
    saveDraftSection H key sec b.baseVersion b.draftRevision content w.store = .ok store →
      w.store.baseConfig = some b.selected ∧
        ∃ d, store.draft = some d ∧ d.configValue = b.selected.put sec (.obj content)

/-! ### What a transaction leaves of the rows -/

/-- The document has the key that every accepted document has. -/
def Versioned (row : AdminConfig) : Prop := row.configValue.has "schema_version" = true

structure Documented (s : ConfigStore) : Prop where
  rows : ∀ row, row ∈ s.published ∨ s.draft = some row → Versioned row
  draftActive : s.draft.isSome = true → s.active.isSome = true
  revision : ∀ d, s.draft = some d → d.draftRevision.isSome = true

/-- What counts for the lock in the effect of a transaction. -/
inductive Outcome (s : ConfigStore) : ConfigStore → Prop
  | same {s' : ConfigStore} : s'.active = s.active → s'.history = s.history →
      s'.draft = s.draft → Outcome s s'
  | dropped {s' : ConfigStore} : s'.active = s.active → s'.history = s.history →
      s'.draft = none → Outcome s s'
  | wrote {s' : ConfigStore} {d : AdminConfig} : s'.active = s.active → s'.history = s.history →
      s'.draft = some d → d.draftRevision = some s.nextRevision → Versioned d →
      s.active.isSome = true → Outcome s s'
  | published {s' : ConfigStore} {row : AdminConfig} : s'.active = some row →
      row.version = s.currentVersion + 1 → Versioned row →
      (∀ r ∈ s'.history, r ∈ s.published) → s'.draft = none → Outcome s s'

theorem versioned_of_issues {config : Json}
    (h : storedIssues (validateVoiceBundle H.sectionIssues key config) = []) :
    config.has "schema_version" = true := by
  unfold validateVoiceBundle at h
  cases hobj : config.isObj with
  | false => simp [hobj, storedIssues] at h
  | true =>
    simp only [hobj, Bool.not_true, Bool.false_eq_true, if_false] at h
    cases key with
    | voiceCallConfig =>
      simp only [storedIssues_append, List.append_eq_nil_iff] at h
      exact has_of_checkExactKeys h.1.1.1.1 (by simp [configSections])
    | voiceCallScript =>
      simp only [storedIssues_append, List.append_eq_nil_iff] at h
      exact has_of_checkExactKeys h.1.1 (by simp [scriptSections])

theorem issues_of_requireTrusted {config : Json} (h : requireTrusted H key config = .ok ()) :
    storedIssues (validateVoiceBundle H.sectionIssues key config) = [] := by
  unfold requireTrusted at h
  obtain ⟨issues, hissues, h⟩ := bind_eq_ok.mp h
  obtain rfl := requireNone_eq_ok.mp h
  cases key with
  | voiceCallConfig =>
    have hvalid := mapError_eq_ok.mp hissues
    unfold validateTrustedVoiceBundle at hvalid
    obtain ⟨states, -, hvalid⟩ := bind_eq_ok.mp hvalid
    exact (List.append_eq_nil_iff.mp (Except.ok.inj hvalid)).1
  | voiceCallScript => simp [storedIssues, Except.ok.inj hissues]

theorem versioned_of_requireTrusted {config : Json} (h : requireTrusted H key config = .ok ()) :
    config.has "schema_version" = true := versioned_of_issues (issues_of_requireTrusted h)

theorem ne_schemaVersion {sec : String} (h : sectionAllowed key sec = true) :
    sec ≠ "schema_version" := by
  rintro rfl
  cases key <;> simp [sectionAllowed, allowedSections] at h

theorem versioned_projectRecords (records : List EvidenceRecord) (config : Json) :
    (records.foldl projectRecord config).has "schema_version" = config.has "schema_version" := by
  induction records generalizing config with
  | nil => rfl
  | cons record records ih =>
    exact (ih (projectRecord config record)).trans (Json.has_put_ne (by simp) _)

theorem Documented.parse_draft {s : ConfigStore} (h : Documented s) {d : AdminConfig}
    (hd : s.draft = some d) : parseConfigValue s.draft = some d.configValue :=
  parseConfigValue_eq_some.mpr ⟨d, hd, rfl, Json.isObj_of_has (h.rows d (.inr hd))⟩

theorem Documented.versioned_importBase {s : ConfigStore} (h : Documented s) {base : AdminConfig}
    (hbase : s.importBase = some base) : Versioned base ∧ s.active.isSome = true := by
  unfold ConfigStore.importBase at hbase
  split_ifs at hbase with hdraft
  · exact ⟨h.rows base (.inr hbase), h.draftActive hdraft⟩
  · exact ⟨h.rows base (.inl (by simp [ConfigStore.published, hbase])), by simp [hbase]⟩

theorem active_of_parse {s : ConfigStore} (h : Documented s) {config : Json}
    (hconfig : s.baseConfig = some config ∨ s.selectedConfig = some config) :
    s.active.isSome = true := by
  cases hdraft : s.draft with
  | some d => exact h.draftActive (by simp [hdraft])
  | none =>
    have hactive : parseConfigValue s.active = some config := by
      simpa [ConfigStore.baseConfig, ConfigStore.selectedConfig, hdraft, parseConfigValue]
        using hconfig
    obtain ⟨row, hrow, -, -⟩ := parseConfigValue_eq_some.mp hactive
    simp [hrow]

theorem published_history {s : ConfigStore} {config : Json} :
    ∀ r ∈ (publishConfig config s).history, r ∈ s.published := by
  intro r hr
  have hmem : r ∈ s.history ++ s.active.toList :=
    (List.mem_insertionSort _).mp (List.mem_of_mem_drop hr)
  rw [List.mem_append] at hmem
  exact List.mem_append.mpr hmem.symm

theorem outcome_of_effect {s s' : ConfigStore} (h : Effect H template key s s')
    (hdoc : Documented s) : Outcome s s' := by
  cases h with
  | unchanged => exact .same rfl rfl rfl
  | dropped hdraft => exact .dropped rfl rfl rfl
  | saved hsec hbase hforged htrusted =>
    exact .wrote rfl rfl rfl rfl (versioned_of_requireTrusted htrusted)
      (active_of_parse hdoc (.inl hbase))
  | restored hsec hdraft =>
    obtain ⟨d, hd⟩ := Option.isSome_iff_exists.mp hdraft
    refine .wrote rfl rfl rfl rfl ?_ (hdoc.draftActive hdraft)
    have hhas : d.configValue.has "schema_version" = true := hdoc.rows d (.inr hd)
    change (s.restoredSection _).has "schema_version" = true
    unfold ConfigStore.restoredSection
    rw [hdoc.parse_draft hd, Option.getD_some]
    dsimp only
    split
    · rwa [Json.has_put_ne (ne_schemaVersion hsec)]
    · rwa [Json.has_remove_ne (ne_schemaVersion hsec)]
  | forced hkey hselected hcurrent hstatus htrusted =>
    exact .wrote rfl rfl rfl rfl (versioned_of_requireTrusted htrusted)
      (active_of_parse hdoc (.inr hselected))
  | imported hkey htimed hrows hbase hsix =>
    obtain ⟨hversioned, hactive⟩ := hdoc.versioned_importBase hbase
    exact .wrote rfl rfl rfl rfl ((versioned_projectRecords _ _).trans hversioned) hactive
  | published hrow htrusted =>
    exact .published rfl rfl (versioned_of_requireTrusted htrusted) published_history rfl
  | seeded hactive hissues =>
    exact .published rfl rfl (versioned_of_issues (by rw [hissues]; rfl)) published_history rfl

theorem Outcome.documented {s s' : ConfigStore} (h : Outcome s s') (hdoc : Documented s) :
    Documented s' := by
  cases h with
  | same hactive hhistory hdraft =>
    exact ⟨by simpa [ConfigStore.published, hactive, hhistory, hdraft] using hdoc.rows,
      by simpa [hactive, hdraft] using hdoc.draftActive, by simpa [hdraft] using hdoc.revision⟩
  | dropped hactive hhistory hdraft =>
    refine ⟨fun row hrow => hdoc.rows row (.inl ?_), by simp [hdraft], by simp [hdraft]⟩
    simpa [ConfigStore.published, hactive, hhistory, hdraft] using hrow
  | wrote hactive hhistory hdraft hrevision hversioned hsome =>
    refine ⟨fun row hrow => ?_, fun _ => by rwa [hactive], ?_⟩
    · rcases hrow with hrow | hrow
      · exact hdoc.rows row (.inl (by simpa [ConfigStore.published, hactive, hhistory] using hrow))
      · rw [hdraft] at hrow
        obtain rfl := Option.some.inj hrow
        exact hversioned
    · intro d hd
      rw [hdraft] at hd
      obtain rfl := Option.some.inj hd
      simp [hrevision]
  | published hactive hversion hversioned hhistory hdraft =>
    refine ⟨fun row hrow => ?_, by simp [hdraft], by simp [hdraft]⟩
    rcases hrow with hrow | hrow
    · rcases List.mem_append.mp hrow with hrow | hrow
      · rw [hactive] at hrow
        obtain rfl := Option.mem_toList.mp hrow |> Option.some.inj
        exact hversioned
      · exact hdoc.rows row (.inl (hhistory row hrow))
    · simp [hdraft] at hrow

/-! ### Bundles stay valid -/

/-- Bundles whose pair is current show the current content. -/
structure Coherent (w : World) : Prop where
  documented : Documented w.store
  bound : ∀ b ∈ w.bundles, b.baseVersion ≤ w.store.currentVersion
  /-- A bundle read without a draft shows the active version. -/
  clean : ∀ b ∈ w.bundles, b.baseVersion = w.store.currentVersion → b.draftRevision = none →
    parseConfigValue w.store.active = some b.selected
  current : ∀ b ∈ w.bundles, b.baseVersion = w.store.currentVersion → ∀ d,
    w.store.draft = some d → b.draftRevision = d.draftRevision → d.configValue = b.selected

theorem Coherent.baseConfig {w : World} (h : Coherent w) {b : Bundle} (hb : b ∈ w.bundles)
    (hversion : b.baseVersion = w.store.currentVersion)
    (hrevision : b.draftRevision = w.store.currentRevision) :
    w.store.baseConfig = some b.selected := by
  cases hdraft : w.store.draft with
  | none =>
    have hnone : b.draftRevision = none := by
      simpa [ConfigStore.currentRevision, hdraft] using hrevision
    simpa [ConfigStore.baseConfig, hdraft] using h.clean b hb hversion hnone
  | some d =>
    have hsame : b.draftRevision = d.draftRevision := by
      simpa [ConfigStore.currentRevision, hdraft] using hrevision
    have hparse := h.documented.parse_draft hdraft
    rw [h.current b hb hversion d hdraft hsame, hdraft] at hparse
    simpa [ConfigStore.baseConfig, hdraft] using hparse

theorem coherent_lockSound {w : World} (h : Coherent w) : LockSound H key w := by
  refine ⟨fun b hb sec content store hsave => ?_⟩
  obtain ⟨hversion, hrevision, base, hbase, rfl, -⟩ :=
    saveDraftSection_spec (fun _ => .null) hsave
  have hselected := h.baseConfig hb hversion hrevision
  obtain rfl : base = b.selected := by
    rw [hbase] at hselected
    exact Option.some.inj hselected
  exact ⟨hselected, _, rfl, rfl⟩

theorem coherent_start {w : World} (h : (administration H template key).start w) :
    Coherent w := by
  obtain rfl : w = ⟨emptyStore, []⟩ := h
  exact ⟨⟨by simp [emptyStore, ConfigStore.published], by simp [emptyStore], by simp [emptyStore]⟩,
    by simp, by simp, by simp⟩

/-- A bundle that is read now shows the current content. -/
theorem coherent_read {w : World} (h : Coherent w) (role : AdminRole) :
    Coherent { w with bundles := w.bundles ++ (getBundle H role w.store).toList } := by
  have hnew : ∀ b ∈ (getBundle H role w.store).toList, b.baseVersion = w.store.currentVersion ∧
      b.draftRevision = w.store.currentRevision ∧ w.store.selectedConfig = some b.selected := by
    intro b hb
    obtain ⟨selected, hselected, rfl⟩ := Option.map_eq_some_iff.mp (Option.mem_toList.mp hb)
    exact ⟨rfl, rfl, hselected⟩
  refine ⟨h.documented, fun b hb => ?_, fun b hb hversion hnone => ?_,
    fun b hb hversion d hd hrevision => ?_⟩
  · rcases List.mem_append.mp hb with hold | hread
    · exact h.bound b hold
    · exact (hnew b hread).1.le
  · rcases List.mem_append.mp hb with hold | hread
    · exact h.clean b hold hversion hnone
    · obtain ⟨-, hrevision, hselected⟩ := hnew b hread
      cases hdraft : w.store.draft with
      | none =>
        simpa [ConfigStore.selectedConfig, hdraft, parseConfigValue] using hselected
      | some d =>
        have hsome := h.documented.revision d hdraft
        simp [ConfigStore.currentRevision, hdraft, hnone] at hrevision
        simp [← hrevision] at hsome
  · rcases List.mem_append.mp hb with hold | hread
    · exact h.current b hold hversion d hd hrevision
    · obtain ⟨-, -, hselected⟩ := hnew b hread
      have htruthy := Json.truthy_of_has (h.documented.rows d (.inr hd))
      have hparse := h.documented.parse_draft hd
      simpa [ConfigStore.selectedConfig, hparse, htruthy] using hselected

/-- A transaction keeps the bundles coherent when the revision it writes is unused. -/
theorem coherent_write {w : World} (h : Coherent w) {store : ConfigStore}
    (houtcome : Outcome w.store store)
    (hfresh : store.currentRevision = some w.store.nextRevision →
      store.currentVersion = w.store.currentVersion → store.draft ≠ w.store.draft →
      RevisionUnused w) :
    Coherent { w with store := store } := by
  have hdoc := houtcome.documented h.documented
  cases houtcome with
  | same hactive hhistory hdraft =>
    have hversion : store.currentVersion = w.store.currentVersion := by
      simp [ConfigStore.currentVersion, hactive]
    refine ⟨hdoc, fun b hb => hversion ▸ h.bound b hb, fun b hb hv hnone => ?_,
      fun b hb hv d hd hrevision => ?_⟩
    · exact hactive ▸ h.clean b hb (hv.trans hversion) hnone
    · exact h.current b hb (hv.trans hversion) d (hdraft ▸ hd) hrevision
  | dropped hactive hhistory hdraft =>
    have hversion : store.currentVersion = w.store.currentVersion := by
      simp [ConfigStore.currentVersion, hactive]
    refine ⟨hdoc, fun b hb => hversion ▸ h.bound b hb, fun b hb hv hnone => ?_, by simp [hdraft]⟩
    exact hactive ▸ h.clean b hb (hv.trans hversion) hnone
  | wrote hactive hhistory hdraft hrevision hversioned hsome =>
    rename_i d
    have hversion : store.currentVersion = w.store.currentVersion := by
      simp [ConfigStore.currentVersion, hactive]
    refine ⟨hdoc, fun b hb => hversion ▸ h.bound b hb, fun b hb hv hnone => ?_,
      fun b hb hv d' hd' hsame => ?_⟩
    · exact hactive ▸ h.clean b hb (hv.trans hversion) hnone
    · obtain rfl : d = d' := Option.some.inj (hdraft.symm.trans hd')
      by_cases hkept : store.draft = w.store.draft
      · exact h.current b hb (hv.trans hversion) d (hkept ▸ hdraft) hsame
      · have hunused := hfresh (by simp [ConfigStore.currentRevision, hdraft, hrevision]) hversion
          hkept
        exact absurd (hsame.trans hrevision) (hunused b hb (hv.trans hversion))
  | published hactive hversion hversioned hhistory hdraft =>
    have hnewer : store.currentVersion = w.store.currentVersion + 1 := by
      simp [ConfigStore.currentVersion, hactive, hversion]
    have hold : ∀ b ∈ w.bundles, b.baseVersion ≠ store.currentVersion := by
      intro b hb heq
      have := h.bound b hb
      omega
    refine ⟨hdoc, fun b hb => ?_, fun b hb hv => absurd hv (hold b hb),
      fun b hb hv => absurd hv (hold b hb)⟩
    have := h.bound b hb
    change b.baseVersion ≤ store.currentVersion
    omega

/-- A transaction that is not one of those leaves the draft or removes it. -/
theorem draft_of_not_writes {op : Operation} {s s' : ConfigStore}
    (h : transact H template key op s = .ok s') (hop : op.writesDraft s = false) :
    s'.draft = s.draft ∨ s'.draft = none := by
  cases op with
  | saveDraftSection sec version revision content =>
    obtain ⟨hversion, hrevision, -⟩ := saveDraftSection_spec template h
    simp [Operation.writesDraft, hversion, hrevision] at hop
  | discardDraft =>
    obtain ⟨_, -, h⟩ := bind_eq_ok.mp h
    obtain rfl := Except.ok.inj h
    exact .inr rfl
  | publish request =>
    obtain ⟨_, -, h⟩ := bind_eq_ok.mp h
    obtain ⟨config, -, h⟩ := bind_eq_ok.mp h
    obtain ⟨_, -, h⟩ := bind_eq_ok.mp h
    obtain rfl := Except.ok.inj h
    exact .inr rfl
  | rollback version request =>
    obtain ⟨_, -, h⟩ := bind_eq_ok.mp h
    obtain ⟨config, -, h⟩ := bind_eq_ok.mp h
    obtain ⟨_, -, h⟩ := bind_eq_ok.mp h
    obtain rfl := Except.ok.inj h
    exact .inr rfl
  | initializeDefaults ref =>
    change initializeDefaults H template key ref s = .ok s' at h
    unfold initializeDefaults at h
    split_ifs at h
    · obtain rfl := Except.ok.inj h
      exact .inl rfl
    · obtain ⟨value, -, h⟩ := bind_eq_ok.mp h
      obtain ⟨_, -, h⟩ := bind_eq_ok.mp h
      obtain rfl := Except.ok.inj h
      exact .inr rfl
  | _ => simp [Operation.writesDraft] at hop

theorem coherent_step {w w' : World} {r : Request} (h : Coherent w)
    (hok : KeepsRevisionsApart w r)
    (hstep : (administration H template key).step w r = some w') : Coherent w' := by
  obtain rfl := Option.some.inj hstep
  refine step_cases (fun role _ => coherent_read h role) (fun op store hr htx => ?_) h
  subst hr
  refine coherent_write h (outcome_of_effect (transact_effect htx) h.documented) ?_
  intro hrevision _ hchanged
  by_cases hop : op.writesDraft w.store = true
  · exact hok hop
  · rcases draft_of_not_writes htx (Bool.not_eq_true _ ▸ hop) with hsame | hnone
    · exact absurd hsame hchanged
    · simp [ConfigStore.currentRevision, hnone] at hrevision

/-- In a run that keeps revisions apart the lock admits only saves made from the current
content. -/
theorem draft_lock_sound (H : Host) (template : ConfigKey → Json) (key : ConfigKey) {w : World}
    (hw : (administration H template key).ReachableUnder KeepsRevisionsApart w) :
    LockSound H key w :=
  coherent_lockSound (Machine.reachableUnder_invariant
    (fun _ => coherent_start) (fun _ _ _ => coherent_step) hw)

/-! ### A draft that begins again -/

/-- A platform whose other checks find nothing. -/
def plainHost : Host where
  sha256 := id
  casefold := id
  fromisoformat _ := none
  isoformat _ := []
  canonicalJson _ := []
  payloadAccepted _ := true
  unsafeValues _ := false
  getenv _ := true
  sectionIssues _ _ := []

def seedSection (entries : List (String × Json)) : Json :=
  .obj (entries.map fun e => (e.1.toList, e.2))

/-- A seed with empty sections. -/
def plainTemplate (_ : ConfigKey) : Json :=
  (seedSection (scriptSections.map fun f => (f, .obj []))).put "schema_version" (.int 1)

/-- A save of a section with one entry, from the active version or the first revision. -/
def saveEntry (sec : String) (revision : Option ℤ) (value : String) : Request :=
  .transact (.saveDraftSection sec 1 revision [("note".toList, .str value.toList)]) false

/-- A bundle is read from a draft, which is discarded; another draft begins. -/
def restartedDraft : List Request :=
  [.transact (.initializeDefaults none) false, saveEntry "crisis" none "first",
    .getBundle .superAdmin, .transact .discardDraft false, saveEntry "crisis" none "second"]

def restartedWorld : World :=
  (administration plainHost plainTemplate .voiceCallScript).after ⟨emptyStore, []⟩ restartedDraft

theorem restarted_reachable :
    (administration plainHost plainTemplate .voiceCallScript).Reachable restartedWorld :=
  Machine.reachable_after rfl (by decide)

/-- What the section `crisis` says. -/
def crisisNote (config : Json) : Json := (config.field "crisis").field "note"

/-- The save from the discarded draft is admitted on top of the other draft. -/
theorem stale_pair_admitted :
    ¬ ∀ w, (administration plainHost plainTemplate .voiceCallScript).Reachable w →
      LockSound plainHost .voiceCallScript w := by
  intro h
  have hsound := h restartedWorld restarted_reachable
  obtain ⟨b, store, hb, hsave, hshown, hfound⟩ : ∃ b store, b ∈ restartedWorld.bundles ∧
      saveDraftSection plainHost .voiceCallScript "recall" b.baseVersion b.draftRevision []
        restartedWorld.store = .ok store ∧ (crisisNote b.selected).isStr "first" = true ∧
      restartedWorld.store.baseConfig.all (fun c => (crisisNote c).isStr "second") = true := by
    have hbundles : restartedWorld.bundles.length = 1 := by decide
    obtain ⟨b, hb⟩ := List.length_eq_one_iff.mp hbundles
    have hmem : b ∈ restartedWorld.bundles := by simp [hb]
    have hall : restartedWorld.bundles.all (fun b =>
        (saveDraftSection plainHost .voiceCallScript "recall" b.baseVersion b.draftRevision []
          restartedWorld.store).isOk && (crisisNote b.selected).isStr "first") = true := by
      decide
    have hb' := List.all_eq_true.mp hall b hmem
    rw [Bool.and_eq_true] at hb'
    cases hsave : saveDraftSection plainHost .voiceCallScript "recall" b.baseVersion
        b.draftRevision [] restartedWorld.store with
    | error e => simp [hsave, Except.isOk, Except.toBool] at hb'
    | ok store => exact ⟨b, store, hmem, hsave, hb'.2, by decide⟩
  obtain ⟨hbase, -⟩ := hsound.applied b hb "recall" [] store hsave
  rw [hbase] at hfound
  rw [Option.all_some, Json.isStr_iff] at hfound
  rw [Json.isStr_iff, hfound] at hshown
  simp at hshown

/-- A run that reads the draft and saves from what it read. -/
def guardedDraft : List Request :=
  [.transact (.initializeDefaults none) false, saveEntry "crisis" none "first",
    .getBundle .superAdmin]

theorem draft_lock_sound_guarded :
    LockSound plainHost .voiceCallScript
      ((administration plainHost plainTemplate .voiceCallScript).after ⟨emptyStore, []⟩
        guardedDraft) :=
  draft_lock_sound plainHost plainTemplate .voiceCallScript
    (Machine.reachableUnder_after rfl (by decide) (by decide))

end CompanionBackend.ConfigDrafts
