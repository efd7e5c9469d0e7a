import Mathlib.Data.Rat.Defs
import Mathlib.Data.List.Basic

/-!
# Provider events

What the provider adapter hands to the call: an event has a kind, the identities
of its call, session, question and reply, its number in the session, and a payload.
-/
namespace CompanionBackend.ProviderEvents

/-- A string is the list of its characters. -/
abbrev Text := List Char
abbrev Ident := Text

instance : LawfulBEq Text := inferInstance

inductive EventKind
  | sessionReady | sessionFinished | usage
  | userSpeechStarted | asrInterim | asrFinal | userSpeechFinished
  | chatText | sentenceStarted | sentenceFinished | textFinished | ttsAudio | ttsFinished
  | controlConfirmed | contextCreated | contextTruncated | contextDeleted
  /-- Made by the gateway out of an event the backchannel filter discards. -/
  | backchannelFiltered
  deriving DecidableEq, Repr

/-- The entry `text` of a dictionary. -/
inductive SentenceText
  | absent
  | str (s : Text)
  | other
  deriving DecidableEq, Repr

/-- Of audio only the number of bytes is ever looked at. -/
inductive Payload
  | absent
  | text (s : Text)
  | audio (bytes : ℕ)
  | data (text : SentenceText)
  deriving DecidableEq, Repr

/-- `asr_confidence`; `other` is not a finite number. -/
inductive Confidence
  | number (q : ℚ)
  | other
  deriving DecidableEq, Repr

structure ProviderEvent where
  kind : EventKind
  callId : Ident
  sessionId : Ident
  sequence : ℕ
  questionId : Option Ident
  replyId : Option Ident
  payload : Payload
  asrConfidence : Option Confidence
  deriving DecidableEq, Repr

end CompanionBackend.ProviderEvents
