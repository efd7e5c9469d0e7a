import Mathlib.Data.List.Infix
import CompanionBackend.CapabilityRules

/-!
# Traces of a capability test

A test of a capability leaves events of the provider, numbered by the order of their arrival, and
actions of the client. Both refer to sessions, questions and replies by tokens. Here they stand as
their checks leave them: names and kinds are of a fixed choice, ordinals and times are integers.
-/
namespace CompanionBackend.EvidenceTraces

open Runs ProviderEvents Dictionaries CapabilityRules

/-- Names that an event id proves, and the one that is looked for in vain. -/
inductive EventName
  | connectionStarted | connectionFinished | sessionStarted | sessionFinished | sessionFailed
  | usageResponse | ttsSentenceStart | ttsSentenceEnd | ttsResponse | ttsEnded | asrInfo
  | asrResponse | asrEnded | chatResponse | chatEnded | conversationCreated
  | providerEvent | conversationTruncated
  deriving DecidableEq, Repr

namespace EventName

def name : EventName → String
  | connectionStarted => "ConnectionStarted"
  | connectionFinished => "ConnectionFinished"
  | sessionStarted => "SessionStarted"
  | sessionFinished => "SessionFinished"
  | sessionFailed => "SessionFailed"
  | usageResponse => "UsageResponse"
  | ttsSentenceStart => "TTSSentenceStart"
  | ttsSentenceEnd => "TTSSentenceEnd"
  | ttsResponse => "TTSResponse"
  | ttsEnded => "TTSEnded"
  | asrInfo => "ASRInfo"
  | asrResponse => "ASRResponse"
  | asrEnded => "ASREnded"
  | chatResponse => "ChatResponse"
  | chatEnded => "ChatEnded"
  | conversationCreated => "ConversationCreated"
  | providerEvent => "ProviderEvent"
  | conversationTruncated => "ConversationTruncated"

/-- `_EVENT_NAMES`. -/
def ofId : List (ℤ × EventName) :=
  [(50, connectionStarted), (52, connectionFinished), (150, sessionStarted),
    (152, sessionFinished), (153, sessionFailed), (154, usageResponse), (350, ttsSentenceStart),
    (351, ttsSentenceEnd), (352, ttsResponse), (359, ttsEnded), (450, asrInfo), (451, asrResponse),
    (459, asrEnded), (550, chatResponse), (559, chatEnded), (567, conversationCreated)]

/-- `_TARGET_EVENT_NAMES`. -/
def target : List EventName :=
  [chatResponse, chatEnded, ttsSentenceStart, ttsSentenceEnd, ttsEnded, conversationTruncated,
    sessionFailed, usageResponse]

end EventName

inductive MessageType
  | serverFullResponse | serverAck | serverError | unknown
  deriving DecidableEq, Repr

def MessageType.name : MessageType → String
  | .serverFullResponse => "SERVER_FULL_RESPONSE"
  | .serverAck => "SERVER_ACK"
  | .serverError => "SERVER_ERROR"
  | .unknown => "UNKNOWN"

inductive PayloadKind
  | binary | object | list | text | none | scalar
  deriving DecidableEq, Repr

def PayloadKind.name : PayloadKind → String
  | .binary => "binary"
  | .object => "object"
  | .list => "list"
  | .text => "text"
  | .none => "none"
  | .scalar => "scalar"

inductive NumericKind
  | integer | float
  deriving DecidableEq, Repr

/-- A text of the payload: its length, and a token in its place. -/
structure TextField where
  chars : ℤ
  token : Text
  deriving DecidableEq

/-- What is kept of a payload. -/
structure PayloadShape where
  objectKeys : List Text
  listLengths : Dict Text ℤ
  numericFields : Dict Text NumericKind
  textFields : Dict Text TextField
  binaryFields : Dict Text ℤ
  deriving DecidableEq

structure Event where
  ordinal : ℤ
  receivedAtMs : ℤ
  eventId : Option ℤ
  eventName : EventName
  messageType : MessageType
  payloadKind : PayloadKind
  isAudio : Bool
  parseError : Bool
  probeMatch : Bool
  correlationTokens : Dict Text Text
  payloadShape : PayloadShape
  deriving DecidableEq

inductive ActionName
  | providerReconnectContextWritten | ragProbeInjected | clientInterruptSent
  | clientStopPlaybackApplied | clientSentencePlayed | providerReconnectSeedInjected
  | providerReconnectSeedExposed | providerReconnectAttempt | providerReconnectSucceeded
  | providerReconnectFailed | providerReconnectQuestionObserved | providerReconnectContextConfirmed
  deriving DecidableEq, Repr

/-- An action. What it leaves out is `none`, and no tokens are the empty dictionary. -/
structure Action where
  action : ActionName
  atMs : ℤ
  replyActive : Option Bool
  success : Option Bool
  sentenceToken : Option Text
  stopToken : Option Text
  sessionToken : Option Text
  localStopAtMs : Option ℤ
  providerOrdinalAfterSend : Option ℤ
  providerOrdinalAfterAck : Option ℤ
  providerOrdinalBeforeAttempt : Option ℤ
  providerOrdinalAfterReconnect : Option ℤ
  providerEventOrdinal : Option ℤ
  sourceAsrOrdinal : Option ℤ
  contextAckOrdinal : Option ℤ
  targetTtsStartOrdinal : Option ℤ
  targetReplyGeneration : Option ℤ
  sentenceBoundaryOrdinal : Option ℤ
  correlationTokens : Dict Text Text
  deriving DecidableEq

/-- `_correlations(…).get(path)`, of the tokens of an event or an action. -/
def token (tokens : Dict Text Text) (path : String) : Option Text := Dict.get tokens path.toList

def Event.token (e : Event) (path : String) : Option Text :=
  EvidenceTraces.token e.correlationTokens path

def Action.token (a : Action) (path : String) : Option Text :=
  EvidenceTraces.token a.correlationTokens path

/-- `_same_correlation`. -/
def sameCorrelation (left right : Dict Text Text) (fields : List String) : Bool :=
  fields.all fun f => (token left f).isSome && decide (token left f = token right f)

/-- `_event_named`. -/
def eventNamed (events : List Event) (name : EventName) : List Event :=
  events.filter fun e => decide (e.eventName = name)

/-- `_action_named`. -/
def actionNamed (actions : List Action) (name : ActionName) : List Action :=
  actions.filter fun a => decide (a.action = name)

/-- The element of a list that has one. -/
def only {α : Type} : List α → Option α
  | [x] => some x
  | _ => none

@[simp] theorem only_eq_some {α : Type} {xs : List α} {x : α} : only xs = some x ↔ xs = [x] := by
  match xs with
  | [] => simp [only]
  | [y] => simp [only]
  | y :: z :: zs => simp [only]

/-- `phase0-capability-evidence/v3`, `v4` and `v5`. -/
inductive RecordSchema
  | phase0 | context | protocol
  deriving DecidableEq, Repr

def RecordSchema.name : RecordSchema → String
  | .phase0 => "phase0-capability-evidence/v3"
  | .context => "phase0-capability-evidence/v4"
  | .protocol => "phase0-capability-evidence/v5"

/-- What a conclusion is drawn from. -/
structure EvidencePayload where
  schemaVersion : RecordSchema
  reasonCode : Text
  eventEvidence : List Event
  actionEvidence : List Action
  deriving DecidableEq

/-- The declared result of a test. -/
inductive Verdict
  | passed | failed
  deriving DecidableEq, Repr

/-! ### Causes that are not proven -/

/-- The reasons why a conclusion is refused; each is the message of a `CapabilityStateError` with
the code `VOICE_CAPABILITY_EVIDENCE_CAUSALITY_UNPROVEN`. -/
inductive Causal
  | ordinalsRepeated
  | contextWriteMissing | contextWriteMismatch | contextAckMissing | contextAckUnconfirmed
  | contextFieldsMissing | contextFieldsIncomplete | contextDisturbed
  | boundariesUnpaired | boundariesAmbiguous | windowSilent | windowMissing
  | interruptMissing | interruptUnanchored | interruptUnbound | stopAckUnbound | terminalMissing
  | cancelNotProven | cancelFailureNotProven
  | ragReason | ragAttempts | ragSource | ragChain
  | cancelReason
  | truncateReason | truncatePresence
  | mappingReason | mappingProbe | mappingSilence | mappingAmbiguity | mappingComplete
  | ackReason | ackUnbound
  | exposureMissing | exposureUnbound
  | reconnectActions | reconnectSession | reconnectSeedChain | reconnectSeedReply
  | reconnectPassedReason | reconnectActionChain | reconnectQuestionChain | reconnectProbe
  | reconnectPrefix | reconnectDialog | reconnectBoundary
  | reconnectFailedReason | restoreUnanchored | lifecycleStarts | lifecycleActions
  | lifecycleBoundary | dialogUnchanged
  deriving DecidableEq, Repr

def Causal.message : Causal → String
  | ordinalsRepeated => "Provider event ordinal 必须唯一"
  | contextWriteMissing => "重连缺少唯一成功上下文写入"
  | contextWriteMismatch => "上下文写入与 seed 的 session/标记/时序不匹配"
  | contextAckMissing => "上下文写入缺少唯一 ConversationCreated"
  | contextAckUnconfirmed => "ConversationCreated 未确认完整且匹配的上下文对"
  | contextFieldsMissing => "ConversationCreated 缺少完整 QA 字段"
  | contextFieldsIncomplete => "ConversationCreated 的 QA 类型或安全投影不完整"
  | contextDisturbed => "上下文准备期间出现会话或回合变化"
  | boundariesUnpaired => "sentence boundary 数量不成对"
  | boundariesAmbiguous => "sentence boundary 顺序或 identity 存在歧义"
  | windowSilent => "correlated sentence window 内没有音频"
  | windowMissing => "缺少同 session/reply/sentence 的 start/audio/end 映射窗口"
  | interruptMissing => "缺少唯一 interrupt 与本地 stop ack"
  | interruptUnanchored => "interrupt 动作缺少活动 reply、generation 或 Provider 水位锚"
  | interruptUnbound => "interrupt 未绑定目标 TTS start 或本地停止时序"
  | stopAckUnbound => "本地 stop ack 未绑定同一 stop token/reply generation"
  | terminalMissing => "缺少 interrupt 后同 reply 的 Provider 终止锚"
  | cancelNotProven => "cancel passed 缺少 350ms 内终止与本地 stop 成功锚"
  | cancelFailureNotProven => "cancel failed 缺少超时、迟到音频或 stop 失败锚"
  | ragReason => "RAG reason 与 Phase0 v3 评估结论不一致"
  | ragAttempts => "RAG 必须包含唯一 probe injection"
  | ragSource => "RAG 缺少 injection 前的精确 source ASR 水位锚"
  | ragChain => "RAG reply/probe/end 因果链不能支持声明结论"
  | cancelReason => "cancel reason 与 Phase0 v3 评估结论不一致"
  | truncateReason => "truncate reason 与 Phase0 v3 评估结论不一致"
  | truncatePresence => "truncate event presence 与声明结论不一致"
  | mappingReason => "mapping reason 与 Phase0 v3 评估结论不一致"
  | mappingProbe => "mapping failed 缺少相关 sentence boundary 探针"
  | mappingSilence => "mapping no-audio reason 缺少精确无音频锚"
  | mappingAmbiguity => "mapping ambiguous reason 实际仅缺少音频"
  | mappingComplete => "mapping failed 却存在完整无歧义映射窗口"
  | ackReason => "sentence ack reason 与 Phase0 v3 评估结论不一致"
  | ackUnbound => "sentence ack 未绑定精确 boundary/token/watermark"
  | exposureMissing => "reconnect seed exposure 缺少唯一动作锚"
  | exposureUnbound => "reconnect seed exposure 未绑定 Provider 事件/session"
  | reconnectActions => "reconnect 缺少唯一 seed injection/attempt"
  | reconnectSession => "reconnect seed/attempt 未绑定同一 session"
  | reconnectSeedChain => "reconnect seed ASR/attempt Provider 水位链缺失"
  | reconnectSeedReply => "reconnect seed 缺少完整 reply/end 因果链"
  | reconnectPassedReason => "reconnect passed reason 不匹配"
  | reconnectActionChain => "reconnect 缺少 success/question/context 动作链"
  | reconnectQuestionChain => "reconnect 缺少完整同 session 重连问答/确认因果链"
  | reconnectProbe => "reconnect passed 缺少隐藏 seed 命中锚"
  | reconnectPrefix => "reconnect 受控问题前存在额外输入/回复或识别归属不明"
  | reconnectDialog => "reconnect 缺少同 dialog 生命周期锚"
  | reconnectBoundary => "reconnect passed 存在握手后 lifecycle boundary"
  | reconnectFailedReason => "reconnect failed reason 不匹配"
  | restoreUnanchored => "reconnect restore failed 缺少失败动作/事件锚"
  | lifecycleStarts => "reconnect lifecycle/dialog failed 缺少前后 SessionStarted"
  | lifecycleActions => "lifecycle changed 缺少重连确认动作"
  | lifecycleBoundary => "lifecycle changed 结论缺少握手后 boundary"
  | dialogUnchanged => "dialog changed 结论缺少前后 dialog token 变化锚"

/-- `"没有音频" in failure.message`. -/
def Causal.saysSilence (c : Causal) : Bool :=
  decide ("没有音频".toList <:+: c.message.toList)

end CompanionBackend.EvidenceTraces
