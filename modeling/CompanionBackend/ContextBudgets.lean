import CompanionBackend.ContextPacks

/-!
# Budgets of a context pack

Whatever the sources do, the call returns a pack within its budgets or raises; a pack that is not
degraded shows a part of what the sources returned, in the order of their priority, and names the
memories of which it shows something. Only a task that was cancelled passes its cancellation on.
-/
namespace CompanionBackend.ContextPacks

open ProviderEvents Dictionaries TextBudgets RecallRanking RankingOrder
open CapabilityRules (nonBlank)
open CapabilityEvidence (Instant PyDatetime)

/-! ### The block -/

/-- A chunk under its heading. -/
def piece (chunk : ChunkName × Text) : Piece ChunkName Char := ⟨chunk.1, chunk.1.heading, chunk.2⟩

def ChunkName.memoryId : ChunkName → Option Text
  | memory id => some id
  | _ => none

/-- The memories among the pieces. -/
def memoryIds (shown : List (Piece ChunkName Char)) : List Text := shown.filterMap fun p => p.name.memoryId

theorem Block.memoryIds_add (b : Block) (name : ChunkName) (kept : Text) :
    (b.add name kept).memoryIds = b.memoryIds ++ name.memoryId.toList := by
  cases name <;> simp [Block.add, ChunkName.memoryId]

theorem fill_piece (budget used : ℕ) (name : ChunkName) (text : Text) (rest : List (Piece ChunkName Char)) :
    fill budget used (piece (name, text) :: rest) =
      if text = [] then fill budget used rest
      else if budget ≤ used + name.heading.length then []
      else
        (piece (name, text)).keep (budget - (used + name.heading.length)) ::
          fill budget (used + ((piece (name, text)).keep
            (budget - (used + name.heading.length))).rendered.length) rest := rfl

/-- The loop fills the block with the chunks. -/
theorem addChunks_eq (maxChars : ℕ) (cs : List (ChunkName × Text)) (b : Block) :
    (addChunks maxChars cs b).dynamic =
        b.dynamic ++ rendered (fill maxChars b.dynamic.length (cs.map piece)) ∧
      (addChunks maxChars cs b).memoryIds =
        b.memoryIds ++ memoryIds (fill maxChars b.dynamic.length (cs.map piece)) := by
  induction cs generalizing b with
  | nil => simp [addChunks, fill, memoryIds]
  | cons c cs ih =>
    obtain ⟨name, text⟩ := c
    rw [addChunks, List.map_cons, fill_piece]
    by_cases htext : text = []
    · rw [if_pos htext, if_pos htext]
      exact ih b
    rw [if_neg htext, if_neg htext]
    by_cases hspace : maxChars ≤ b.dynamic.length + name.heading.length
    · rw [if_pos hspace, if_pos (by omega)]
      simp [memoryIds]
    · rw [if_neg hspace, if_neg (by omega)]
      have hkeep : ((maxChars : ℤ) - b.dynamic.length - name.heading.length).toNat =
          maxChars - (b.dynamic.length + name.heading.length) := by omega
      rw [hkeep]
      obtain ⟨hdynamic, hids⟩ := ih (b.add name (text.take (maxChars - (b.dynamic.length + name.heading.length))))
      have hlen : (b.add name (text.take (maxChars - (b.dynamic.length + name.heading.length)))).dynamic.length =
          b.dynamic.length + ((piece (name, text)).keep
            (maxChars - (b.dynamic.length + name.heading.length))).rendered.length := by
        simp [Block.add, piece, Piece.rendered, Piece.keep]
      rw [hlen] at hdynamic hids
      constructor
      · rw [hdynamic, rendered_cons]
        simp [Block.add, piece, Piece.rendered, Piece.keep]
      · rw [hids, Block.memoryIds_add, List.append_assoc]
        cases name <;> rfl

/-! ### The sources -/

theorem takeResults_error {done : List (Source × Outcome)} {g : Gathered} {e : Failure}
    (h : takeResults done g = .error e) : e = .cancelled ∧ ∃ s, (s, .cancelled) ∈ done := by
  induction done generalizing g with
  | nil => cases h
  | cons d done ih =>
    obtain ⟨s, o⟩ := d
    cases o with
    | cancelled => exact ⟨(Except.error.inj h).symm, s, List.mem_cons_self⟩
    | raised =>
      obtain ⟨he, s', hmem⟩ := ih h
      exact ⟨he, s', List.mem_cons_of_mem _ hmem⟩
    | returned v =>
      obtain ⟨he, s', hmem⟩ := ih h
      exact ⟨he, s', List.mem_cons_of_mem _ hmem⟩

theorem takeResults_degraded {done : List (Source × Outcome)} {g g' : Gathered}
    (h : takeResults done g = .ok g') (hg' : g'.degraded = none) : g.degraded = none := by
  induction done generalizing g with
  | nil => exact (Except.ok.inj h) ▸ hg'
  | cons d done ih =>
    obtain ⟨s, o⟩ := d
    cases o with
    | cancelled => cases h
    | raised => exact nomatch ih (g := { g with degraded := some .sourceFailed }) h
    | returned v => exact ih (g := { g with values := Dict.set g.values s v }) h

/-- Without degradation every value was returned. -/
theorem takeResults_values {done : List (Source × Outcome)} {g g' : Gathered}
    (h : takeResults done g = .ok g') (hg' : g'.degraded = none) {s : Source} {v : Json}
    (hv : Dict.get g'.values s = some v) :
    (s, .returned v) ∈ done ∨ Dict.get g.values s = some v := by
  induction done generalizing g with
  | nil => exact .inr ((Except.ok.inj h) ▸ hv)
  | cons d done ih =>
    obtain ⟨s', o⟩ := d
    cases o with
    | cancelled => cases h
    | raised =>
      exact nomatch takeResults_degraded (g := { g with degraded := some .sourceFailed }) h hg'
    | returned w =>
      obtain hmem | hget := ih (g := { g with values := Dict.set g.values s' w }) h
      · exact .inl (List.mem_cons_of_mem _ hmem)
      · rw [Dict.get_set] at hget
        split_ifs at hget with hs
        · obtain rfl := Option.some.inj hget
          exact .inl (hs ▸ List.mem_cons_self)
        · exact .inr hget

/-- The sources that have all ended, by name. -/
theorem mem_of_sections {arrivals : Arrivals} {done : List (Source × Outcome)}
    (h : sections.mapM (fun s => (outcomeOf arrivals s).map fun o => (s, o)) = some done) :
    (∀ s, (outcomeOf arrivals s).isSome) ∧ ∀ s o, (s, o) ∈ done → outcomeOf arrivals s = some o := by
  simp only [sections, List.mapM_cons, List.mapM_nil, Option.bind_eq_bind, Option.pure_def,
    Option.bind_eq_some_iff, Option.map_eq_some_iff, Option.some.injEq] at h
  obtain ⟨_, ⟨schedule, hschedule, rfl⟩, _, ⟨_, ⟨recent, hrecent, rfl⟩, _, ⟨_, ⟨voice, hvoice, rfl⟩, _,
    ⟨_, ⟨memories, hmemories, rfl⟩, _, rfl, rfl⟩, rfl⟩, rfl⟩, rfl⟩ := h
  constructor
  · intro s
    cases s <;> simp [*]
  · intro s o hmem
    simp only [List.mem_cons, List.not_mem_nil, or_false, Prod.mk.injEq] at hmem
    obtain ⟨rfl, rfl⟩ | ⟨rfl, rfl⟩ | ⟨rfl, rfl⟩ | ⟨rfl, rfl⟩ := hmem <;> assumption

/-- All tasks have ended, and one of them was cancelled. -/
def SomeCancelled (arrivals : Arrivals) : Prop :=
  (∀ s, (outcomeOf arrivals s).isSome) ∧ ∃ s, outcomeOf arrivals s = some .cancelled

theorem waitForSources_error {arrivals : Arrivals} {e : Failure} (h : waitForSources arrivals = .error e) :
    e = .cancelled ∧ SomeCancelled arrivals := by
  unfold waitForSources at h
  split at h
  · cases h
  next done hdone =>
    obtain ⟨hall, hmem⟩ := mem_of_sections hdone
    obtain ⟨rfl, s, hs⟩ := takeResults_error h
    exact ⟨rfl, hall, s, hmem s _ hs⟩

theorem waitForSources_values {arrivals : Arrivals} {g : Gathered} (h : waitForSources arrivals = .ok g)
    (hg : g.degraded = none) {s : Source} {v : Json} (hv : Dict.get g.values s = some v) :
    outcomeOf arrivals s = some (.returned v) := by
  unfold waitForSources at h
  split at h
  · obtain rfl := Except.ok.inj h
    cases hg
  next done hdone =>
    obtain hmem | hnone := takeResults_values h hg hv
    · exact (mem_of_sections hdone).2 s _ hmem
    · cases hnone

/-- The sources returned these facts. -/
structure Returned (arrivals : Arrivals) (facts : Facts) : Prop where
  schedule : outcomeOf arrivals .schedule = some (.returned (.str facts.schedule))
  recentDialog : outcomeOf arrivals .recentDialog = some (.returned (.str facts.recentDialog))
  voiceHistory : outcomeOf arrivals .voiceHistory = some (.returned (.str facts.voiceHistory))
  memories : outcomeOf arrivals .memories = some (.returned (.arr facts.memories))

theorem returned_of_facts {arrivals : Arrivals} {g : Gathered} {facts : Facts}
    (h : waitForSources arrivals = .ok g) (hg : g.degraded = none) (hfacts : factsOf g.values = some facts) :
    Returned arrivals facts := by
  unfold factsOf at hfacts
  split at hfacts
  next schedule recentDialog voiceHistory memories hschedule hrecent hvoice hmemories =>
    split_ifs at hfacts
    obtain rfl := Option.some.inj hfacts
    exact ⟨waitForSources_values h hg hschedule, waitForSources_values h hg hrecent,
      waitForSources_values h hg hvoice, waitForSources_values h hg hmemories⟩
  next => cases hfacts

/-! ### What a text comes from -/

/-- A part of the source of this name, within the limit of the source. -/
def FromSource (L : Library) (limits : Limits) (facts : Facts) (name : ChunkName) (text : Text) : Prop :=
  match name with
  | .recentDialog => text <+: facts.recentDialog ∧ text.length ≤ limits.recentDialogMaxChars
  | .voiceHistory => text <+: if facts.voiceHistory = [] then NO_VOICE_HISTORY else facts.voiceHistory
  | .schedule => text <+: facts.schedule
  | .memory id => ∃ row ∈ facts.memories, ∃ content, (row.get "id").map L.str = some id ∧
      textAt row "content" = some content ∧ text <+: content ∧ text.length ≤ 400

variable {L : Library} {limits : Limits} {facts : Facts} {now : Instant} {deadline : Option ℕ}
  {memories : List Memory}

theorem FromSource.of_initial_part {name : ChunkName} {text part : Text} (h : FromSource L limits facts name text)
    (hpart : part <+: text) : FromSource L limits facts name part := by
  have hlen := hpart.length_le
  cases name with
  | recentDialog => exact ⟨hpart.trans h.1, hlen.trans h.2⟩
  | voiceHistory => exact hpart.trans h
  | schedule => exact hpart.trans h
  | memory id =>
    obtain ⟨row, hrow, content, hid, hcontent, hprefix, hlimit⟩ := h
    exact ⟨row, hrow, content, hid, hcontent, hpart.trans hprefix, hlen.trans hlimit⟩

/-- A memory shows the first characters of an item's content. -/
theorem memoryOf_content {lookbackDays : ℤ} {row : Json} {m : Memory}
    (h : memoryOf L.toLibrary now lookbackDays row = some m) : ∃ content,
      (row.get "id").map L.str = some m.id ∧ textAt row "content" = some content ∧
        m.content = content.take 400 ∧ m.content ≠ [] := by
  unfold memoryOf at h
  simp only [Option.bind_eq_bind, Option.bind_eq_some_iff] at h
  obtain ⟨id, hid, content, hcontent, text, -, h⟩ := h
  split_ifs at h
  simp only [Option.bind_eq_some_iff] at h
  obtain ⟨updated, -, relevance, -, quality, -, earliest, -, h⟩ := h
  split_ifs at h with hchecks
  simp only [Option.bind_eq_some_iff, Option.some.injEq] at h
  obtain ⟨-, -, rfl⟩ := h
  refine ⟨content, hid, hcontent, rfl, ?_⟩
  have hne : content ≠ [] := fun hnil => by
    rw [hnil] at hchecks
    exact absurd hchecks.1 (by decide)
  simpa using hne

theorem memoryOf_of_selected {limit : ℕ} {lookbackDays : ℤ} {rows : List Json}
    (h : selectMemories L.toLibrary now limit lookbackDays deadline rows = .ok memories) {m : Memory}
    (hm : m ∈ memories) : ∃ row ∈ rows, memoryOf L.toLibrary now lookbackDays row = some m := by
  obtain rfl := selectMemories_eq h
  have hsorted := (Rankings.sortBy_perm memoryKey _).mem_iff.mp (List.mem_of_mem_take hm)
  exact List.mem_filterMap.mp (gather_mem hsorted).1

theorem fromSource_of_chunk
    (h : selectMemories L.toLibrary now limits.memoryMaxItems limits.memoryLookbackDays deadline
      facts.memories = .ok memories) {c : ChunkName × Text} (hc : c ∈ chunks limits facts memories) :
    FromSource L limits facts c.1 c.2 := by
  obtain hc | hc := List.mem_append.mp hc
  · simp only [List.mem_cons, List.not_mem_nil, or_false] at hc
    obtain rfl | rfl | rfl := hc
    · exact ⟨List.take_prefix _ _, List.length_take_le _ _⟩
    · exact List.prefix_refl _
    · exact List.prefix_refl _
  · obtain ⟨m, hm, rfl⟩ := List.mem_map.mp hc
    obtain ⟨row, hrow, hmemory⟩ := memoryOf_of_selected h hm
    obtain ⟨content, hid, hcontent, htake, -⟩ := memoryOf_content hmemory
    refine ⟨row, hrow, content, hid, hcontent, ?_, ?_⟩
    · exact htake ▸ List.take_prefix _ _
    · exact htake ▸ List.length_take_le _ _

/-- The ids of what is shown are those of the first memories in their rank. -/
theorem memoryIds_prefix
    (h : selectMemories L.toLibrary now limits.memoryMaxItems limits.memoryLookbackDays deadline
      facts.memories = .ok memories) {used : ℕ} {shown : List (Piece ChunkName Char)}
    (hshown : Filled limits.dynamicMaxChars used ((chunks limits facts memories).map piece) shown) :
    memoryIds shown <+: memories.map (·.id) := by
  have hids : ∀ ps : List (Piece ChunkName Char), memoryIds ps = (ps.map Piece.name).filterMap ChunkName.memoryId :=
    fun ps => by rw [List.filterMap_map]; rfl
  have hfiltered : memoryIds ((((chunks limits facts memories).map piece).filter fun p => !p.text.isEmpty)) =
      memories.map (·.id) := by
    have hkept : ∀ m ∈ memories, (!(piece (.memory m.id, m.content)).text.isEmpty) = true := fun m hm => by
      obtain ⟨row, -, hmemory⟩ := memoryOf_of_selected h hm
      obtain ⟨-, -, -, -, hne⟩ := memoryOf_content hmemory
      simpa [piece] using hne
    have hmemories : memoryIds ((memories.map fun m => piece (.memory m.id, m.content)).filter
        fun p => !p.text.isEmpty) = memories.map (·.id) := by
      rw [List.filter_eq_self.mpr (by simpa using hkept)]
      simp [memoryIds, piece, ChunkName.memoryId, List.filterMap_map]
    have hfixed : ∀ ps : List (Piece ChunkName Char), (∀ p ∈ ps, p.name.memoryId = none) →
        memoryIds (ps.filter fun p => !p.text.isEmpty) = [] := fun ps hps =>
      List.filterMap_eq_nil_iff.mpr fun p hp => hps p (List.mem_of_mem_filter hp)
    rw [chunks, List.map_append, List.filter_append, memoryIds, List.filterMap_append]
    rw [List.map_map]
    rw [show (List.filterMap (fun p => p.name.memoryId) (List.filter _ (List.map piece _))) = [] from
      hfixed _ (by simp [piece, ChunkName.memoryId])]
    exact hmemories
  rw [← hfiltered, hids, hids]
  exact hshown.names.filterMap _

/-! ### Packs -/

/-- A pack of everything the sources returned that fits. -/
def Complete (L : Library) (limits : Limits) (now : Instant) (minimum : Text) (arrivals : Arrivals)
    (deadline : Option ℕ) (pack : ContextPack) : Prop :=
  ∃ facts memories shown, Returned arrivals facts ∧
    selectMemories L.toLibrary now limits.memoryMaxItems limits.memoryLookbackDays deadline
      facts.memories = .ok memories ∧
    Filled limits.dynamicMaxChars minimum.length ((chunks limits facts memories).map piece) shown ∧
    pack.dynamic = minimum ++ rendered shown ∧
    (∀ p ∈ shown, p.text ≠ [] ∧ FromSource L limits facts p.name p.text) ∧
    pack.metadata.memorySourceIds = memoryIds shown ∧ memoryIds shown <+: memories.map (·.id)

/-- A pack within its budgets. -/
structure Budgeted (L : Library) (r : Request) (anchor : Anchor) (limits : Limits) (arrivals : Arrivals)
    (deadline : Option ℕ) (pack : ContextPack) : Prop where
  persona_length : pack.persona.length ≤ limits.personaMaxChars
  persona_instruction : limits.instruction <+: pack.persona
  dynamic_length : pack.dynamic.length ≤ limits.dynamicMaxChars
  dynamic_minimum : minimumOf L anchor r.now <+: pack.dynamic
  degraded : pack.degraded = true →
    pack.dynamic = minimumOf L anchor r.now ∧ pack.metadata.memorySourceIds = []
  complete : pack.degraded = false →
    Complete L limits anchor.now (minimumOf L anchor r.now) arrivals deadline pack
  counted : pack.metadata.personaChars = pack.persona.length ∧
    pack.metadata.dynamicChars = pack.dynamic.length ∧
    pack.metadata.memoryCount = pack.metadata.memorySourceIds.length

theorem instruction_prefix (L : Library) (limits : Limits) (payload : List (Text × Json)) :
    limits.instruction <+: personaOf L limits payload := by
  refine List.prefix_take_iff.mpr ⟨List.prefix_append _ _, limits.instruction_fits.le⟩

theorem complete_of_compiled {arrivals : Arrivals} {minimum : Text} {gathered : Gathered} {late : Bool}
    {block : Block} (hmin : minimum.length ≤ limits.dynamicMaxChars)
    (hwait : waitForSources arrivals = .ok gathered)
    (h : compiled L limits now minimum gathered deadline late = .ok block) (personaRef : Json)
    (persona : Text) :
    Complete L limits now minimum arrivals deadline (packOf personaRef persona minimum (.ok block)) := by
  unfold compiled at h
  split at h
  · cases h
  next hdegraded =>
    split at h
    · cases h
    next facts hfacts =>
      unfold fullBlock at h
      cases hselect : selectMemories L.toLibrary now limits.memoryMaxItems limits.memoryLookbackDays deadline
          facts.memories with
      | error e =>
        rw [hselect] at h
        cases h
      | ok memories =>
        rw [hselect] at h
        dsimp only at h
        split_ifs at h
        obtain rfl := Except.ok.inj h
        obtain ⟨hdynamic, hids⟩ := addChunks_eq limits.dynamicMaxChars (chunks limits facts memories)
          ⟨minimum, 0, []⟩
        have hfilled := fill_filled hmin ((chunks limits facts memories).map piece)
        refine ⟨facts, memories, _, returned_of_facts hwait hdegraded hfacts, hselect, hfilled, hdynamic,
          fun p hp => ?_, hids, memoryIds_prefix hselect hfilled⟩
        obtain ⟨hne, full, hfull, hname, hprefix⟩ := hfilled.mem hp
        obtain ⟨c, hc, rfl⟩ := List.mem_map.mp hfull
        exact ⟨hne, hname ▸ (fromSource_of_chunk hselect hc).of_initial_part hprefix⟩

theorem Complete.within {arrivals : Arrivals} {minimum : Text} {pack : ContextPack}
    (h : Complete L limits now minimum arrivals deadline pack) :
    pack.dynamic.length ≤ limits.dynamicMaxChars ∧ minimum <+: pack.dynamic := by
  obtain ⟨facts, memories, shown, -, -, hfilled, hdynamic, -⟩ := h
  rw [hdynamic, List.length_append]
  exact ⟨hfilled.within, List.prefix_append _ _⟩

theorem budgeted_packOf {r : Request} {anchor : Anchor} {payload : List (Text × Json)} {arrivals : Arrivals}
    {gathered : Gathered} {late : Bool}
    (hmin : (minimumOf L anchor r.now).length ≤ limits.dynamicMaxChars)
    (hwait : waitForSources arrivals = .ok gathered) :
    Budgeted L r anchor limits arrivals deadline (packOf r.personaRef (personaOf L limits payload)
      (minimumOf L anchor r.now)
      (compiled L limits anchor.now (minimumOf L anchor r.now) gathered deadline late)) := by
  cases hresult : compiled L limits anchor.now (minimumOf L anchor r.now) gathered deadline late with
  | error reason =>
    exact ⟨List.length_take_le _ _, instruction_prefix L limits payload, hmin, List.prefix_refl _,
      fun _ => ⟨rfl, rfl⟩, (nomatch ·), rfl, rfl, rfl⟩
  | ok block =>
    have hcomplete := complete_of_compiled hmin hwait hresult r.personaRef (personaOf L limits payload)
    exact ⟨List.length_take_le _ _, instruction_prefix L limits payload, hcomplete.within.1,
      hcomplete.within.2, (nomatch ·), fun _ => hcomplete, rfl, rfl, rfl⟩

/-- The call returns a pack within its budgets and sets the barrier, or raises and leaves the barrier; it
passes a cancellation on only if all tasks ended and one of them was cancelled. -/
theorem context_pack_outcomes (L : Library) (r : Request) (arrivals : Arrivals) (deadline : Option ℕ)
    (late barrier : Bool) :
    (∃ pack anchor limits, buildContextPack L r arrivals deadline late barrier = (.ok pack, true) ∧
      anchorOf L r = some anchor ∧ limitsOf r.settings = some limits ∧
      Budgeted L r anchor limits arrivals deadline pack) ∨
    ∃ e, buildContextPack L r arrivals deadline late barrier = (.error e, barrier) ∧
      (e = .cancelled → SomeCancelled arrivals) := by
  unfold buildContextPack compilePack
  cases hanchor : anchorOf L r with
  | none => exact .inr ⟨.personaAnchorInvalid, rfl, (nomatch ·)⟩
  | some anchor =>
    dsimp only
    cases hpayload : payloadOf L anchor.raw with
    | none => exact .inr ⟨.contextConfigInvalid, rfl, (nomatch ·)⟩
    | some payload =>
      cases hlimits : limitsOf r.settings with
      | none => exact .inr ⟨.contextConfigInvalid, rfl, (nomatch ·)⟩
      | some limits =>
        dsimp only
        by_cases hpersona : (!nonBlank (personaOf L limits payload)) = true
        · rw [if_pos hpersona]
          exact .inr ⟨.personaEmpty, rfl, (nomatch ·)⟩
        rw [if_neg hpersona]
        by_cases hmin : limits.dynamicMaxChars < (minimumOf L anchor r.now).length
        · rw [if_pos hmin]
          exact .inr ⟨.minimumContextBudgetInvalid, rfl, (nomatch ·)⟩
        rw [if_neg hmin]
        cases hwait : waitForSources arrivals with
        | error e => exact .inr ⟨e, rfl, fun _ => (waitForSources_error hwait).2⟩
        | ok gathered =>
          exact .inl ⟨_, anchor, limits, rfl, rfl, rfl, budgeted_packOf (not_lt.mp hmin) hwait⟩

def sampleLibrary : Library where
  float _ := none
  str _ := "1".toList
  fromisoformat _ := none
  timestamp _ := 0
  sha256 _ := "2d711642b726b044".toList
  loads _ := some (.obj [("tone".toList, .str "warm".toList)])
  shanghai _ := "2025-01-01T08:00:00+08:00".toList

def sampleSettings : Json :=
  .obj [("persona_max_chars".toList, .int 5000), ("dynamic_max_chars".toList, .int 2000),
    ("recent_dialog_max_chars".toList, .int 800), ("memory_max_items".toList, .int 5),
    ("build_budget_ms".toList, .int 3000), ("memory_lookback_days".toList, .int 3650),
    ("voice_instruction_template".toList, .str "speak".toList)]

def sampleRequest : Request where
  userId := .int 1
  personaRaw := .str "\x7b\"tone\":\"warm\"\x7d".toList
  personaRef := .obj [("config_key".toList, .str "persona".toList), ("version".toList, .int 1),
    ("content_sha256".toList, .str "sha256:2d711642b726b044".toList)]
  settings := sampleSettings
  salutation := .str "Lin".toList
  relationship := .str "friend".toList
  now := ⟨1735689600000000, some 0⟩

def failureOf (e : Except Failure ContextPack) : Option Failure :=
  match e with
  | .error f => some f
  | .ok _ => none

/-- The memories are cancelled while the other sources return: neither a pack nor an error of its own. -/
theorem cancelled_source_passed_on : failureOf (buildContextPack sampleLibrary sampleRequest
    [(.schedule, .returned (.str [])), (.memories, .cancelled), (.recentDialog, .returned (.str [])),
      (.voiceHistory, .returned (.str []))] none false false).1 = some .cancelled := by
  decide

end CompanionBackend.ContextPacks
