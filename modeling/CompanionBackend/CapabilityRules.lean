import Mathlib.Data.Char
import Mathlib.Data.List.Lex
import Mathlib.Data.List.Sort
import CompanionBackend.Runs
import CompanionBackend.JsonDocuments
import CompanionBackend.TurnRecords

/-!
# Rules for the capabilities of a voice configuration

A configuration is one document. Its six capabilities carry what the evidence chain has
projected into them beside what an administrator may choose. The schema forbids
an administrator to write the projected fields; stored documents are checked without that
code and, in all but the runtime, for the states that go together. The checks of the
sections that hold no capability are a parameter.
-/
namespace CompanionBackend.CapabilityRules

open Runs ProviderEvents Dictionaries
open TurnRecords (isBlank)

inductive ConfigKey
  | voiceCallConfig | voiceCallScript
  deriving DecidableEq, Repr

inductive VoiceCapability
  | currentTurnRagGate | replyCancel | contextTruncate | playbackTextMapping
  | sentencePlaybackAck | sessionReconnect
  deriving DecidableEq, Repr

namespace VoiceCapability

/-- `VOICE_CAPABILITY_KEYS`. -/
def all : List VoiceCapability :=
  [currentTurnRagGate, replyCancel, contextTruncate, playbackTextMapping, sentencePlaybackAck,
    sessionReconnect]

def key : VoiceCapability → String
  | currentTurnRagGate => "supports_current_turn_rag_gate"
  | replyCancel => "supports_reply_cancel"
  | contextTruncate => "supports_context_truncate"
  | playbackTextMapping => "supports_playback_text_mapping"
  | sentencePlaybackAck => "supports_sentence_playback_ack"
  | sessionReconnect => "supports_session_reconnect"

@[simp] theorem mem_all (k : VoiceCapability) : k ∈ all := by
  cases k <;> simp [all]

theorem key_injective {k k' : VoiceCapability} (h : k.key = k'.key) : k = k' := by
  cases k <;> cases k' <;> first | rfl | simp [key] at h

end VoiceCapability

inductive EvidenceDimension
  | providerProfile | modelVersion | protocolProfile | adapterVersion | sdkVersion
  | evidenceSuiteVersion
  deriving DecidableEq, Repr

namespace EvidenceDimension

/-- `EVIDENCE_FINGERPRINT_FIELDS`. -/
def all : List EvidenceDimension :=
  [providerProfile, modelVersion, protocolProfile, adapterVersion, sdkVersion,
    evidenceSuiteVersion]

def field : EvidenceDimension → String
  | providerProfile => "provider_profile"
  | modelVersion => "model_version"
  | protocolProfile => "protocol_profile"
  | adapterVersion => "adapter_version"
  | sdkVersion => "sdk_version"
  | evidenceSuiteVersion => "evidence_suite_version"

@[simp] theorem mem_all (d : EvidenceDimension) : d ∈ all := by
  cases d <;> simp [all]

theorem field_injective {d d' : EvidenceDimension} (h : d.field = d'.field) : d = d' := by
  cases d <;> cases d' <;> first | rfl | simp [field] at h

end EvidenceDimension

/-- What the language raises where a document has another shape than the code expects. -/
inductive PyError
  | typeError | attributeError | keyError
  deriving DecidableEq, Repr

inductive IssueCode
  | schemaInvalid | fieldRangeInvalid | forbiddenField | secretForbidden
  | manualVerifiedForbidden | projectionForged | trustedStateInvalid
  | allEvidenceInvalid | currentDimensionsUnavailable
  | windowRangeInvalid | windowOverlap | windowTooShortForJitter
  deriving DecidableEq, Repr

structure Issue where
  code : IssueCode
  field : String
  message : String
  allowed : Json

/-- `value.strip()` leaves something. -/
def nonBlank (text : Text) : Bool := text.any fun c => !isBlank c

/-- A string with something in it. -/
def isNonBlankText : Json → Bool
  | .str t => nonBlank t
  | _ => false

/-- `value is True`. -/
def isTrue : Json → Bool
  | .bool b => b
  | _ => false

/-- `value is False`. -/
def isFalse : Json → Bool
  | .bool b => !b
  | _ => false

theorem isTrue_iff {j : Json} : isTrue j = true ↔ j = .bool true := by
  cases j <;> simp [isTrue]

theorem isFalse_iff {j : Json} : isFalse j = true ↔ j = .bool false := by
  cases j <;> simp [isFalse]

/-- `value in {…}`: a list or a dictionary cannot be looked up. -/
def inSet (j : Json) (options : List String) : Except PyError Bool :=
  if j.hashable then .ok (j.strIn options) else .error .typeError

/-! ### The schema -/

def sorted (keys : List Text) : List Text := keys.insertionSort fun a b => a ≤ b

/-- The keys of an object that are not among these. -/
def unknownKeys (fields : List (Text × Json)) (known : List String) : List Text :=
  sorted ((fields.map Prod.fst).filter fun key => known.all fun k => decide (k.toList ≠ key))

def checkExactKeys (value : Json) (field : String) (required allowed : List String) :
    List Issue :=
  match value with
  | .obj fields =>
    (required.filter fun key => !value.has key).map
        (fun key => ⟨.schemaInvalid, field ++ "." ++ key, "缺少必填字段", .null⟩) ++
      (unknownKeys fields allowed).map
        (fun key => ⟨.schemaInvalid, field ++ "." ++ String.ofList key, "schema 不接受该字段", .null⟩)
  | _ => [⟨.schemaInvalid, field, "必须是对象", .null⟩]

def checkIntRange (value : Json) (field : String) (minimum maximum : ℤ) : List Issue :=
  let outside : List Issue := [⟨.fieldRangeInvalid, field, "整数参数超出允许区间",
    .obj [("min".toList, .int minimum), ("max".toList, .int maximum)]⟩]
  match value with
  | .int n => if n < minimum ∨ maximum < n then outside else []
  | _ => outside

def configSections : List String :=
  ["capabilities", "concurrency", "followup", "global", "growth", "persona_ref", "quota",
    "retention", "s2s", "schema_version", "voice"]

def scriptSections : List String :=
  ["barge_in", "call_answer", "context_pack", "crisis", "end_reason", "followup", "memory",
    "recall", "reconnect_bridge", "schema_version", "silence_and_exit"]

def schemaVersionIssues (config : Json) : List Issue :=
  if Json.pyEq (config.field "schema_version") (.int 1) then []
  else [⟨.schemaInvalid, "schema_version", "未知或不兼容 schema_version", .arr [.int 1]⟩]

/-- A list of integers. -/
def isIntList : Json → Bool
  | .arr items => items.all fun | .int _ => true | _ => false
  | _ => false

def globalIssues (config : Json) : List Issue :=
  let value := config.field "global"
  let rollout := value.field "rollout"
  let keys := ["enabled", "maintenance_message", "maintenance_mode", "rollout", "soft_stop",
    "test_user_ids"]
  checkExactKeys value "global" keys keys ++
  if !value.isObj then [] else
    ((["enabled", "maintenance_mode", "soft_stop"].filter fun f => !(value.field f).isBool).map
      fun f => ⟨.schemaInvalid, "global." ++ f, "必须是布尔值", .null⟩) ++
    (if isNonBlankText (value.field "maintenance_message") then []
      else [⟨.schemaInvalid, "global.maintenance_message", "必须是非空字符串", .null⟩]) ++
    checkExactKeys rollout "global.rollout" ["mode", "user_ids"] ["mode", "user_ids"] ++
    (if !rollout.isObj then [] else
      (if (rollout.field "mode").strIn ["off", "allowlist", "all"] then []
        else [⟨.forbiddenField, "global.rollout.mode", "rollout mode 只接受 off/allowlist/all",
          .arr (["off", "allowlist", "all"].map fun s => .str s.toList)⟩]) ++
      (if isIntList (rollout.field "user_ids") then []
        else [⟨.schemaInvalid, "global.rollout.user_ids", "必须是整数数组", .null⟩])) ++
    (if isIntList (value.field "test_user_ids") then []
      else [⟨.schemaInvalid, "global.test_user_ids", "必须是整数数组", .null⟩])

/-- The fields an evidence report fills beside the status, the flags and the result. -/
def projectionFields : List String :=
  EvidenceDimension.all.map EvidenceDimension.field ++
    ["evidence_fingerprint", "verified_at", "expires_at", "evidence_report_id"]

def capabilityFields : List String :=
  ["adapter_version", "effective_scope", "enabled", "evidence_fingerprint",
    "evidence_report_id", "evidence_suite_version", "evidence_ttl_days", "expires_at",
    "fallback_mode", "forced_enabled", "last_test_result", "model_version", "protocol_profile",
    "provider_profile", "sdk_version", "verification_status", "verified_at"]

/-- What an administrator may not write: the filled fields and the states after a test. -/
def manualIssues (path : String) (item : Json) : List Issue :=
  (if (item.field "verification_status").strIn ["failed", "stale"] then
    [⟨.manualVerifiedForbidden, path ++ ".verification_status",
      "STEP-005 的能力状态只能保持 unverified；failed/stale 由证据服务投影", .null⟩] else []) ++
  (if (item.field "effective_scope").strIn ["test", "all"] then
    [⟨.manualVerifiedForbidden, path ++ ".effective_scope",
      "本 STEP 无有效证据，effective_scope 必须保持 off", .null⟩] else []) ++
  ((["enabled", "forced_enabled"].filter fun f => isTrue (item.field f)).map fun f =>
    ⟨.manualVerifiedForbidden, path ++ "." ++ f, "本 STEP 无有效证据，能力启用字段必须保持 false",
      .null⟩) ++
  ((projectionFields.filter fun f => match item.field f with | .null => false | _ => true).map
    fun f => ⟨.manualVerifiedForbidden, path ++ "." ++ f,
      "能力证据投影为服务端只读字段，STEP-005 必须保持 null", .null⟩) ++
  (if (item.field "last_test_result").strIn ["passed", "failed", "error"] then
    [⟨.manualVerifiedForbidden, path ++ ".last_test_result",
      "能力测试结果为服务端只读字段，STEP-005 必须保持 not_run", .null⟩] else [])

def statusIssues (path : String) (item : Json) : List Issue :=
  let status := item.field "verification_status"
  if status.isStr "verified" then
    [⟨.manualVerifiedForbidden, path ++ ".verification_status",
      "STEP-005 禁止管理员手工提交 verified；只能由证据链投影", .null⟩]
  else if status.strIn ["unverified", "failed", "stale"] then []
  else [⟨.schemaInvalid, path ++ ".verification_status", "能力状态无效", .null⟩]

def capabilityIssues (k : VoiceCapability) (item : Json) : List Issue :=
  let path := "capabilities." ++ k.key
  let results := ["not_run", "passed", "failed", "error"]
  checkExactKeys item path capabilityFields capabilityFields ++
  if !item.isObj then [] else
    ((["enabled", "forced_enabled"].filter fun f => !(item.field f).isBool).map fun f =>
      ⟨.schemaInvalid, path ++ "." ++ f, "必须是布尔值", .null⟩) ++
    (if isNonBlankText (item.field "fallback_mode") then []
      else [⟨.schemaInvalid, path ++ ".fallback_mode", "必须是非空字符串", .null⟩]) ++
    ((projectionFields.filter fun f =>
      match item.field f with | .null => false | v => !isNonBlankText v).map fun f =>
      ⟨.schemaInvalid, path ++ "." ++ f, "只能是非空字符串或 null", .null⟩) ++
    (if (item.field "last_test_result").strIn results then []
      else [⟨.schemaInvalid, path ++ ".last_test_result", "测试结果枚举无效",
        .arr (results.map fun s => .str s.toList)⟩]) ++
    statusIssues path item ++
    (if (item.field "effective_scope").strIn ["off", "test", "all"] then []
      else [⟨.schemaInvalid, path ++ ".effective_scope", "effective_scope 只接受 off/test/all",
        .null⟩]) ++
    manualIssues path item ++
    checkIntRange (item.field "evidence_ttl_days") (path ++ ".evidence_ttl_days") 7 90

def capabilitiesIssues (config : Json) : List Issue :=
  match config.field "capabilities" with
  | .obj fields =>
    let value : Json := .obj fields
    let keys := VoiceCapability.all.map VoiceCapability.key
    (sorted ((keys.filter fun key => !value.has key).map String.toList)).map
        (fun key => ⟨.schemaInvalid, "capabilities." ++ String.ofList key, "缺少六能力初始态",
          .null⟩) ++
    (unknownKeys fields keys).map
        (fun key => ⟨.schemaInvalid, "capabilities." ++ String.ofList key, "未知能力位", .null⟩) ++
    VoiceCapability.all.flatMap fun k => capabilityIssues k (value.field k.key)
  | _ => [⟨.schemaInvalid, "capabilities", "必须是对象", .null⟩]

/-- The checks of the other sections and of forbidden names. -/
abbrev SectionIssues := ConfigKey → Json → List Issue

def validateVoiceBundle (other : SectionIssues) (key : ConfigKey) (config : Json) : List Issue :=
  if !config.isObj then [⟨.schemaInvalid, "config", "整包必须是 JSON 对象", .null⟩] else
    match key with
    | .voiceCallConfig =>
      checkExactKeys config "config" configSections (configSections ++ ["interaction", "summary"]) ++
        schemaVersionIssues config ++ globalIssues config ++ capabilitiesIssues config ++
        other key config
    | .voiceCallScript =>
      checkExactKeys config "script" scriptSections (scriptSections ++ ["summary"]) ++
        schemaVersionIssues config ++ other key config

/-- The issues of a document that the server stored. -/
def storedIssues (issues : List Issue) : List Issue :=
  issues.filter fun i => decide (i.code ≠ .manualVerifiedForbidden)

/-- `_trusted_runtime_issues`. -/
def trustedRuntimeIssues (other : SectionIssues) (key : ConfigKey) (value : Json) : List Issue :=
  storedIssues (validateVoiceBundle other key value)

/-! ### States that go together -/

def shutDown (enabled forced scope : Json) : Bool :=
  isFalse enabled && isFalse forced && scope.isStr "off"

def forcedToTest (enabled forced scope : Json) : Bool :=
  isTrue enabled && isTrue forced && scope.isStr "test"

/-- `{"enabled": …, "forced_enabled": …, "effective_scope": …}`. -/
def stateValue (flags : Bool) (scope : String) : Json :=
  .obj [("enabled".toList, .bool flags), ("forced_enabled".toList, .bool flags),
    ("effective_scope".toList, .str scope.toList)]

def verifiedState (enabled forced scope : Json) : Except PyError Bool :=
  if !isFalse forced then .ok false
  else if isFalse enabled && scope.isStr "off" then .ok true
  else if isTrue enabled then inSet scope ["test", "all"]
  else .ok false

def trustedStateIssues (k : VoiceCapability) (capability : Json) :
    Except PyError (List Issue) := do
  let path := "capabilities." ++ k.key
  let status := capability.field "verification_status"
  let enabled := capability.field "enabled"
  let forced := capability.field "forced_enabled"
  let scope := capability.field "effective_scope"
  if ← inSet status ["unverified", "stale"] then
    if shutDown enabled forced scope || forcedToTest enabled forced scope then .ok []
    else .ok [⟨.trustedStateInvalid, path, "unverified/stale 只能关闭，或由内部受审计流程强制到 test",
      .arr [stateValue false "off", stateValue true "test"]⟩]
  else if status.isStr "failed" then
    if shutDown enabled forced scope then .ok []
    else .ok [⟨.trustedStateInvalid, path, "failed 能力必须保持关闭，且禁止强制启用",
      stateValue false "off"⟩]
  else if status.isStr "verified" then
    let valid ← verifiedState enabled forced scope
    let complete := projectionFields.all (fun f => isNonBlankText (capability.field f)) &&
      (capability.field "last_test_result").isStr "passed"
    .ok ((if valid then [] else [⟨.trustedStateInvalid, path,
        "verified 能力只能关闭或启用到 test/all，且不得保留强制标记", .null⟩]) ++
      (if complete then [] else [⟨.trustedStateInvalid, path,
        "verified 投影必须包含完整证据引用、六维、时间与 passed 结果", .null⟩]))
  else .ok []

def collectIssues {α ε : Type} (f : α → Except ε (List Issue)) :
    List α → Except ε (List Issue)
  | [] => .ok []
  | x :: xs => do
    let first ← f x
    let rest ← collectIssues f xs
    .ok (first ++ rest)

def trustedCapabilityStateIssues (config : Json) : Except PyError (List Issue) :=
  let capabilities := config.field "capabilities"
  if !capabilities.isObj then .ok [] else
    collectIssues (fun k : VoiceCapability =>
      let capability := capabilities.field k.key
      if !capability.isObj then .ok [] else trustedStateIssues k capability) VoiceCapability.all

def validateTrustedVoiceBundle (other : SectionIssues) (key : ConfigKey) (config : Json) :
    Except PyError (List Issue) :=
  let issues := storedIssues (validateVoiceBundle other key config)
  match key with
  | .voiceCallConfig => do
    let states ← trustedCapabilityStateIssues config
    .ok (issues ++ states)
  | .voiceCallScript => .ok issues

/-! ### The fields of the server -/

/-- `sorted(_CAPABILITY_SERVER_OWNED_FIELDS)`. -/
def serverOwnedFields : List String :=
  ["adapter_version", "evidence_fingerprint", "evidence_report_id", "evidence_suite_version",
    "expires_at", "forced_enabled", "last_test_result", "model_version", "protocol_profile",
    "provider_profile", "sdk_version", "verification_status", "verified_at"]

def capabilityProjectionForgeryIssues (previous submitted : Json) : List Issue :=
  if !previous.isObj || !submitted.isObj then [] else
    VoiceCapability.all.flatMap fun k =>
      let old := previous.field k.key
      let new := submitted.field k.key
      if !old.isObj || !new.isObj then [] else
        (serverOwnedFields.filter fun f => !Json.pyEq (new.field f) (old.field f)).map fun f =>
          ⟨.projectionForged, "capabilities." ++ k.key ++ "." ++ f,
            "该能力字段由服务端证据链拥有，普通草稿保存不得修改", .null⟩

end CompanionBackend.CapabilityRules
