import CompanionBackend.RecallRanking
import CompanionBackend.TextBudgets

/-!
# Context packs of a call

Before a call starts, its persona and a block of facts are compiled for the provider. The facts come
from four sources that are asked at once and waited for within the build budget; without them the block
is the minimum. The settings bound the persona, the block and some of its parts.
-/
namespace CompanionBackend.ContextPacks

open ProviderEvents Dictionaries TextBudgets
open CapabilityRules (nonBlank)
open CapabilityEvidence (Instant PyDatetime)
open RecallRanking (Memory aware selectMemories)

/-- What is used of the language. -/
structure Library extends RecallRanking.Library where
  /-- `hashlib.sha256(text.encode()).hexdigest()`. -/
  sha256 : Text → Text
  /-- `json.loads`, nothing for a `ValueError`; a later member has taken the place of an earlier one. -/
  loads : Text → Option Json
  /-- `now.astimezone(timezone(timedelta(hours=8))).isoformat()`. -/
  shanghai : PyDatetime → Text

/-! ### Sources -/

inductive Source
  | schedule | recentDialog | voiceHistory | memories
  deriving DecidableEq, Repr

/-- `sections`. -/
def sections : List Source := [.schedule, .recentDialog, .voiceHistory, .memories]

/-- How the task of a source ends; `cancelled` with `asyncio.CancelledError`, `raised` with any other
exception. -/
inductive Outcome
  | returned (value : Json)
  | raised
  | cancelled

/-- The tasks that end before the time-out, in the order in which they do. -/
abbrev Arrivals := List (Source × Outcome)

def outcomeOf (arrivals : Arrivals) (s : Source) : Option Outcome := Dict.get arrivals s

/-! ### What is checked before the sources are asked -/

structure Request where
  userId : Json
  personaRaw : Json
  personaRef : Json
  settings : Json
  salutation : Json
  relationship : Json
  now : PyDatetime

/-- The arguments of a valid anchor. -/
structure Anchor where
  raw : Text
  salutation : Text
  relationship : Text
  now : Instant

def positiveInt : Json → Bool
  | .int n => 0 < n
  | _ => false

def isText (j : Json) (t : Text) : Bool :=
  match j with
  | .str s => s = t
  | _ => false

def anchorOf (L : Library) (r : Request) : Option Anchor :=
  match r.personaRaw, r.salutation, r.relationship, aware r.now with
  | .str raw, .str salutation, .str relationship, some now =>
    if raw.length ≤ 100000 ∧ positiveInt r.userId ∧ (r.personaRef.field "config_key").isStr "persona" ∧
        positiveInt (r.personaRef.field "version") ∧
        isText (r.personaRef.field "content_sha256") ("sha256:".toList ++ L.sha256 raw) then
      some ⟨raw, salutation, relationship, now⟩
    else none
  | _, _, _, _ => none

/-- The settings that are accepted; the instruction leaves room in the persona. -/
structure Limits where
  personaMaxChars : ℕ
  dynamicMaxChars : ℕ
  recentDialogMaxChars : ℕ
  memoryMaxItems : ℕ
  buildBudgetMs : ℕ
  memoryLookbackDays : ℕ
  instruction : Text
  instruction_fits : instruction.length < personaMaxChars

/-- An integer from 1 to its cap. -/
def limitOf (settings : Json) (key : String) (cap : ℕ) : Option ℕ :=
  match settings.get key with
  | some (.int n) => if 0 < n ∧ n ≤ cap then some n.toNat else none
  | _ => none

def limitsOf (settings : Json) : Option Limits := do
  let personaMaxChars ← limitOf settings "persona_max_chars" 5000
  let dynamicMaxChars ← limitOf settings "dynamic_max_chars" 2000
  let recentDialogMaxChars ← limitOf settings "recent_dialog_max_chars" 800
  let memoryMaxItems ← limitOf settings "memory_max_items" 5
  let buildBudgetMs ← limitOf settings "build_budget_ms" 3000
  let memoryLookbackDays ← limitOf settings "memory_lookback_days" 3650
  match settings.get "voice_instruction_template" with
  | some (.str instruction) =>
    if h : instruction.length < personaMaxChars then
      some ⟨personaMaxChars, dynamicMaxChars, recentDialogMaxChars, memoryMaxItems, buildBudgetMs,
        memoryLookbackDays, instruction, h⟩
    else none
  | _ => none

/-- The members of the persona. -/
def payloadOf (L : Library) (raw : Text) : Option (List (Text × Json)) :=
  match L.loads raw with
  | some (.obj payload) => some payload
  | _ => none

/-! ### The persona and the minimum -/

/-- `isinstance(v, (str, int, float))`. -/
def isScalar : Json → Bool
  | .str _ | .int _ | .bool _ | .float _ => true
  | _ => false

def identity (L : Library) (payload : List (Text × Json)) : Text :=
  ['\n'].intercalate ((payload.filter fun p => isScalar p.2).map fun p => p.1 ++ '：' :: L.str p.2)

def personaOf (L : Library) (limits : Limits) (payload : List (Text × Json)) : Text :=
  (limits.instruction ++ '\n' :: identity L payload).take limits.personaMaxChars

def minimumOf (L : Library) (anchor : Anchor) (now : PyDatetime) : Text :=
  "称呼：".toList ++ anchor.salutation.take 60 ++ "\n关系：".toList ++ anchor.relationship.take 120 ++
    "\n当前时间：".toList ++ L.shanghai now

/-! ### Results of the sources -/

inductive Reason
  | timeout | sourceFailed | sourceInvalid | compileTimeout
  deriving DecidableEq, Repr

/-- What the call raises: a `ContextPackError`, or what a cancelled task passes on. -/
inductive Failure
  | personaAnchorInvalid | contextConfigInvalid | personaEmpty | minimumContextBudgetInvalid
  | cancelled
  deriving DecidableEq, Repr

/-- `degraded, reason` and `values`. -/
structure Gathered where
  degraded : Option Reason
  values : Dict Source Json

/-- `task.result()` of one section. -/
def takeResult (g : Gathered) (s : Source) : Outcome → Except Failure Gathered
  | .returned v => .ok { g with values := Dict.set g.values s v }
  | .raised => .ok { g with degraded := some .sourceFailed }
  | .cancelled => .error .cancelled

def takeResults : List (Source × Outcome) → Gathered → Except Failure Gathered
  | [], g => .ok g
  | (s, o) :: rest, g =>
    match takeResult g s o with
    | .error e => .error e
    | .ok g => takeResults rest g

/-- `asyncio.wait` and the results: all four have ended, or the time is over. -/
def waitForSources (arrivals : Arrivals) : Except Failure Gathered :=
  match sections.mapM fun s => (outcomeOf arrivals s).map fun o => (s, o) with
  | none => .ok ⟨some .timeout, []⟩
  | some done => takeResults done ⟨none, []⟩

/-- The facts of four valid sources. -/
structure Facts where
  schedule : Text
  recentDialog : Text
  voiceHistory : Text
  memories : List Json

def factsOf (values : Dict Source Json) : Option Facts :=
  match Dict.get values .schedule, Dict.get values .recentDialog, Dict.get values .voiceHistory,
    Dict.get values .memories with
  | some (.str schedule), some (.str recentDialog), some (.str voiceHistory), some (.arr memories) =>
    if 200 < memories.length then none else some ⟨schedule, recentDialog, voiceHistory, memories⟩
  | _, _, _, _ => none

/-! ### The dynamic block -/

inductive ChunkName
  | recentDialog | voiceHistory | schedule
  | memory (id : Text)
  deriving DecidableEq

def ChunkName.label : ChunkName → Text
  | recentDialog => "最近对话".toList
  | voiceHistory => "上次语音".toList
  | schedule => "日程".toList
  | memory _ => "记忆".toList

/-- `prefix`. -/
def ChunkName.heading (name : ChunkName) : Text := '\n' :: name.label ++ ['：']

def NO_VOICE_HISTORY : Text := "暂无可用的上次通话摘要".toList

def chunks (limits : Limits) (facts : Facts) (memories : List Memory) : List (ChunkName × Text) :=
  [(.recentDialog, facts.recentDialog.take limits.recentDialogMaxChars),
    (.voiceHistory, if facts.voiceHistory = [] then NO_VOICE_HISTORY else facts.voiceHistory),
    (.schedule, facts.schedule)] ++
    memories.map fun m => (.memory m.id, m.content)

/-- `dynamic`, `recent_chars` and `memory_ids`. -/
structure Block where
  dynamic : Text
  recentChars : ℕ
  memoryIds : List Text

def Block.add (b : Block) (name : ChunkName) (kept : Text) : Block where
  dynamic := b.dynamic ++ (name.heading ++ kept)
  recentChars := if name = .recentDialog then kept.length else b.recentChars
  memoryIds :=
    match name with
    | .memory id => b.memoryIds ++ [id]
    | _ => b.memoryIds

/-- The loop over the chunks. -/
def addChunks (maxChars : ℕ) : List (ChunkName × Text) → Block → Block
  | [], b => b
  | (name, text) :: rest, b =>
    if text = [] then addChunks maxChars rest b
    else
      let space : ℤ := maxChars - b.dynamic.length - name.heading.length
      if space ≤ 0 then b else addChunks maxChars rest (b.add name (text.take space.toNat))

/-- The block of valid sources; `deadline` is the number of memories that are read in time. -/
def fullBlock (L : Library) (limits : Limits) (now : Instant) (minimum : Text) (facts : Facts)
    (deadline : Option ℕ) : Except Reason Block :=
  match selectMemories L.toLibrary now limits.memoryMaxItems limits.memoryLookbackDays deadline
    facts.memories with
  | .error _ => .error .compileTimeout
  | .ok memories => .ok (addChunks limits.dynamicMaxChars (chunks limits facts memories) ⟨minimum, 0, []⟩)

/-- The block, unless it is degraded; `late` if the budget is used up in the end. -/
def compiled (L : Library) (limits : Limits) (now : Instant) (minimum : Text) (gathered : Gathered)
    (deadline : Option ℕ) (late : Bool) : Except Reason Block :=
  match gathered.degraded with
  | some reason => .error reason
  | none =>
    match factsOf gathered.values with
    | none => .error .sourceInvalid
    | some facts =>
      match fullBlock L limits now minimum facts deadline with
      | .error reason => .error reason
      | .ok block => if late then .error .compileTimeout else .ok block

/-! ### Packs -/

structure Metadata where
  personaRef : Json
  degradationReason : Option Reason
  personaChars : ℕ
  dynamicChars : ℕ
  recentDialogChars : ℕ
  memoryCount : ℕ
  memorySourceIds : List Text

structure ContextPack where
  persona : Text
  dynamic : Text
  metadata : Metadata
  degraded : Bool

def packOf (personaRef : Json) (persona minimum : Text) (result : Except Reason Block) : ContextPack :=
  let block := match result with
    | .error _ => (⟨minimum, 0, []⟩ : Block)
    | .ok block => block
  let reason := match result with
    | .error reason => some reason
    | .ok _ => none
  ⟨persona, block.dynamic, ⟨personaRef, reason, persona.length, block.dynamic.length, block.recentChars,
    block.memoryIds.length, block.memoryIds⟩, reason.isSome⟩

def compilePack (L : Library) (r : Request) (arrivals : Arrivals) (deadline : Option ℕ) (late : Bool) :
    Except Failure ContextPack :=
  match anchorOf L r with
  | none => .error .personaAnchorInvalid
  | some anchor =>
    match payloadOf L anchor.raw, limitsOf r.settings with
    | some payload, some limits =>
      let persona := personaOf L limits payload
      let minimum := minimumOf L anchor r.now
      if !nonBlank persona then .error .personaEmpty
      else if limits.dynamicMaxChars < minimum.length then .error .minimumContextBudgetInvalid
      else
        match waitForSources arrivals with
        | .error e => .error e
        | .ok gathered =>
          .ok (packOf r.personaRef persona minimum
            (compiled L limits anchor.now minimum gathered deadline late))
    | _, _ => .error .contextConfigInvalid

/-- `build_context_pack` with the barrier before and after it. -/
def buildContextPack (L : Library) (r : Request) (arrivals : Arrivals) (deadline : Option ℕ)
    (late barrier : Bool) : Except Failure ContextPack × Bool :=
  match compilePack L r arrivals deadline late with
  | .error e => (.error e, barrier)
  | .ok pack => (.ok pack, true)

end CompanionBackend.ContextPacks
