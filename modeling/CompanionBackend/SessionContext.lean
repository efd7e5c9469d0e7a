import Mathlib.Data.Char
import Mathlib.Data.List.Lex
import Mathlib.Data.List.Sort
import Mathlib.Data.Prod.Lex
import Mathlib.Order.Lex
import CompanionBackend.TurnRecords

/-!
# The session context of a call

One Redis value for each call holds what was said and recalled, for later turns. A
script merges, marks, reads or deletes it; the call's row is locked around the script.
The JSON codec of Redis is a parameter. An operation has one second; when it is given
up, or an exception comes, the script may have run or not.
-/
namespace CompanionBackend.SessionContext

open ProviderEvents Runs
open VoiceModels (CallStatus)
open TurnRecords (VoiceCallTurn)

/-! ### Items -/

structure Item where
  kind : Text
  id : Text
  turnIndex : ℤ
  visibleFrom : ℤ
  text : Text
  deliveryPending : Option Bool
  deriving DecidableEq, Repr

/-- The version of a recall result that has been submitted. -/
structure Sent where
  id : Text
  text : Text
  turnIndex : ℤ
  visibleFrom : ℤ
  deriving DecidableEq, Repr

structure CacheState where
  userId : ℤ
  items : List Item
  deriving DecidableEq, Repr

inductive ContextStatus
  | ok | filtered | invalid | tooLarge | forbidden | closed | corrupt | missing | unavailable
  deriving DecidableEq, Repr

structure ContextResult where
  status : ContextStatus
  items : List Item
  deriving DecidableEq, Repr

def recallResult : Text := "recall_result".toList

def candidateKind : Text := "candidate".toList

def turnKind : Text := "turn".toList

/-- `KINDS`. -/
def kinds : List Text :=
  [turnKind, candidateKind, "correction".toList, "unfinished_topic".toList,
    "recalled_topic".toList, recallResult]

/-- `MAX_ITEMS`. -/
def maxItems : ℕ := 32

/-- `MAX_BYTES`. -/
def maxBytes : ℕ := 65536

def Item.key (x : Item) : Text × Text := (x.kind, x.id)

/-- What items are sorted by: the turn, then `kind:id`. -/
def Item.position (x : Item) : ℤ ×ₗ Text := toLex (x.turnIndex, x.kind ++ ':' :: x.id)

/-- What the JSON codecs do: encode a state or fail, decode a value (its user, and its items if they
are well typed), the bytes of a value, a decimal integer as `cjson` reads it, and the items Python
reads of an encoded state. -/
structure Codec (ρ : Type) where
  encode : CacheState → Option ρ
  decode : ρ → Option (ℤ × Option (List Item))
  size : ρ → ℕ
  number : ℤ → Option ℤ
  read : CacheState → Option (List Item)

variable {ρ : Type}

/-! ### The script -/

inductive Operation
  | append (item : Item)
  | remove (kind : Text) (id : Option Text)
  | recallDelivered (sent : List Sent)
  | read
  | delete
  deriving DecidableEq, Repr

/-- The state the script begins with. -/
def load (C : Codec ρ) (cache : Option ρ) (userId : ℤ) : Except ContextStatus CacheState :=
  match cache with
  | none => .ok ⟨userId, []⟩
  | some raw =>
    if maxBytes < C.size raw then .error .corrupt
    else
      match C.decode raw with
      | none => .error .corrupt
      | some (owner, items) =>
        if owner ≠ userId then .error .forbidden
        else
          match items with
          | none => .error .corrupt
          | some items => .ok ⟨userId, items⟩

/-- The item is the version that was sent. -/
def sameVersion (C : Codec ρ) (x : Item) (sent : Sent) : Bool :=
  x.id = sent.id && C.number sent.turnIndex = some x.turnIndex &&
    C.number sent.visibleFrom = some x.visibleFrom && x.text = sent.text

def deliver (C : Codec ρ) (sent : List Sent) (x : Item) : Item :=
  if x.kind = recallResult ∧ sent.any (sameVersion C x) = true then
    { x with deliveryPending := some false }
  else x

/-- The items in the order of their positions. -/
def arrange (items : List Item) : List Item :=
  items.insertionSort fun a b => a.position ≤ b.position

/-- The items without those of a key, with another one. -/
def merge (items : List Item) (kind : Text) (id : Option Text) (incoming : Option Item) : List Item :=
  arrange (items.filter (fun x => x.kind ≠ kind ∨ some x.id ≠ id) ++ incoming.toList)

/-- The first items are dropped until the encoding fits, but for the last item. -/
def fit (C : Codec ρ) (userId : ℤ) : List Item → Option ρ
  | a :: b :: rest =>
    (C.encode ⟨userId, a :: b :: rest⟩).bind fun raw =>
      if maxBytes < C.size raw then fit C userId (b :: rest) else some raw
  | items => C.encode ⟨userId, items⟩

/-- `SET`, unless the encoding has failed or is too large. -/
def store (C : Codec ρ) (cache : Option ρ) (encoded : Option ρ) : Option ρ × ContextResult :=
  match encoded with
  | none => (cache, ⟨.unavailable, []⟩)
  | some raw => if maxBytes < C.size raw then (cache, ⟨.tooLarge, []⟩) else (some raw, ⟨.ok, []⟩)

/-- The incoming item as the script decodes it. -/
def incoming (C : Codec ρ) (x : Item) : Option Item :=
  (C.number x.turnIndex).bind fun t =>
    (C.number x.visibleFrom).map fun v => { x with turnIndex := t, visibleFrom := v }

/-- `_CONTEXT` for everything but a deletion. -/
def update (C : Codec ρ) (cache : Option ρ) (s : CacheState) : Operation → Option ρ × ContextResult
  | .delete => (none, ⟨.ok, []⟩)
  | .read =>
    match C.read s with
    | none => (cache, ⟨.unavailable, []⟩)
    | some items => (cache, ⟨.ok, items⟩)
  | .recallDelivered sent =>
    if cache.isSome then store C cache (C.encode ⟨s.userId, s.items.map (deliver C sent)⟩)
    else (cache, ⟨.ok, []⟩)
  | .append x =>
    match incoming C x with
    | none => (cache, ⟨.unavailable, []⟩)
    | some x =>
      let items := merge s.items x.kind (some x.id) (some x)
      store C cache (fit C s.userId (items.drop (items.length - maxItems)))
  | .remove kind id =>
    let items := merge s.items kind id none
    store C cache (fit C s.userId (items.drop (items.length - maxItems)))

/-- `_CONTEXT`. -/
def context (C : Codec ρ) (cache : Option ρ) (userId : ℤ) (operation : Operation) :
    Option ρ × ContextResult :=
  if operation = .delete then (none, ⟨.ok, []⟩)
  else
    match load C cache userId with
    | .error status => (cache, ⟨status, []⟩)
    | .ok s => update C cache s operation

/-! ### The service -/

/-- The row of the call. -/
structure CallFacts where
  userId : ℤ
  deletionFence : Bool
  status : CallStatus
  deriving DecidableEq, Repr

/-- What the session context asks of texts: which characters `strip` removes, whether a text holds
another without regard to case, and the content of a turn. -/
structure Texts where
  isSpace : Char → Bool
  holds : Text → Text → Bool
  turnContent : Text → Text → Text

/-- The operation is given up before its script has run, or after. -/
inductive Fault
  | before | after
  deriving DecidableEq, Repr

/-- `_bounded`. -/
def bounded (fault : Option Fault) (cache : Option ρ) (r : Option ρ × ContextResult) :
    Option ρ × ContextResult :=
  match fault with
  | none => r
  | some .before => (cache, ⟨.unavailable, []⟩)
  | some .after => (r.1, ⟨.unavailable, []⟩)

/-- `_perform`; `row` is the locked row of the call. -/
def perform (C : Codec ρ) (callId : Text) (cache : Option ρ) (row : Option CallFacts) (userId : ℤ)
    (operation : Operation) : Option ρ × ContextResult :=
  if !(1 ≤ callId.length && callId.length ≤ 64) then (cache, ⟨.forbidden, []⟩)
  else
    match row with
    | none => (cache, ⟨.forbidden, []⟩)
    | some call =>
      if call.userId ≠ userId then (cache, ⟨.forbidden, []⟩)
      else if operation ≠ .delete ∧ (call.deletionFence = true ∨
          call.status ≠ .connected ∧ call.status ≠ .reconnecting) then (cache, ⟨.closed, []⟩)
      else context C cache userId operation

def utf8Size (text : Text) : ℕ := (text.map Char.utf8Size).sum

/-- The item `append` builds. -/
def newItem (kind itemId : Text) (turnIndex : ℤ) (text : Text) (late : Bool) : Item where
  kind := kind
  id := itemId
  turnIndex := turnIndex
  visibleFrom := turnIndex + if late then 1 else 0
  text := text
  deliveryPending := if kind = recallResult then some late else none

/-- The checks of `append`. -/
def appendRefusal (T : Texts) (kind itemId : Text) (turnIndex : ℤ) (text : Text) (safe : Bool) :
    Option ContextStatus :=
  if !safe then some .filtered
  else if kind ∉ kinds ∨ turnIndex < 1 ∨ ¬ (1 ≤ itemId.length ∧ itemId.length ≤ 128) ∨
      text.all T.isSpace = true then some .invalid
  else if maxBytes - 1024 < utf8Size text then some .tooLarge
  else none

/-- What is asked of the session context of a call. An item that is submitted may be no version of a
recall result at all. -/
inductive ContextCall
  | append (userId : ℤ) (kind itemId : Text) (turnIndex : ℤ) (text : Text) (safe late : Bool)
  | markRecallDelivered (userId : ℤ) (items : List (Option Sent))
  | query (userId : ℤ) (turnIndex : ℤ) (query : Text)
  | cleanup (userId : ℤ)
  | removeCandidate (userId : ℤ) (itemId : Option Text)
  | captureTurn (pair : Option (ℤ × VoiceCallTurn))

/-- `append` after its checks, or their refusal. -/
def append (C : Codec ρ) (T : Texts) (callId : Text) (cache : Option ρ) (row : Option CallFacts)
    (fault : Option Fault) (userId : ℤ) (kind itemId : Text) (turnIndex : ℤ) (text : Text)
    (safe late : Bool) : Option ρ × ContextResult :=
  match appendRefusal T kind itemId turnIndex text safe with
  | some status => (cache, ⟨status, []⟩)
  | none =>
    bounded fault cache
      (perform C callId cache row userId (.append (newItem kind itemId turnIndex text late)))

/-- A turn whose facts may be kept. -/
def captured (turn : VoiceCallTurn) : Bool :=
  (turn.turnStatus = .finalized || turn.turnStatus = .interrupted) && turn.passedAll &&
    turn.effectiveTextEvidence != .none && !(turn.userTextFinal.getD []).isEmpty &&
    !(turn.assistantTextEffective.getD []).isEmpty

def answer (C : Codec ρ) (T : Texts) (callId : Text) (cache : Option ρ) (row : Option CallFacts)
    (fault : Option Fault) : ContextCall → Option ρ × ContextResult
  | .append userId kind itemId turnIndex text safe late =>
    append C T callId cache row fault userId kind itemId turnIndex text safe late
  | .markRecallDelivered userId items =>
    if items.any Option.isNone || !(1 ≤ items.length && items.length ≤ 3) then
      (cache, ⟨.invalid, []⟩)
    else
      bounded fault cache (perform C callId cache row userId (.recallDelivered items.reduceOption))
  | .query userId turnIndex query =>
    if turnIndex < 1 then (cache, ⟨.invalid, []⟩)
    else
      let r := bounded fault cache (perform C callId cache row userId .read)
      if r.2.status ≠ .ok then r
      else
        (r.1, ⟨.ok, r.2.items.filter fun x =>
          x.visibleFrom ≤ turnIndex && T.holds query x.text⟩)
  | .cleanup userId => bounded fault cache (perform C callId cache row userId .delete)
  | .removeCandidate userId itemId =>
    bounded fault cache (perform C callId cache row userId (.remove candidateKind itemId))
  | .captureTurn pair =>
    bounded fault cache <|
      match pair with
      | none => (cache, ⟨.missing, []⟩)
      | some (owner, turn) =>
        if !captured turn then (cache, ⟨.filtered, []⟩)
        else
          append C T callId cache row none owner turnKind (Nat.toDigits 10 turn.turnIndex)
            turn.turnIndex
            (T.turnContent (turn.userTextFinal.getD []) (turn.assistantTextEffective.getD []))
            true false

/-! ### Runs -/

inductive ContextInput
  | call (row : Option CallFacts) (fault : Option Fault) (c : ContextCall)
  | expire

/-- The value of one call, which also expires. -/
def contexts (C : Codec ρ) (T : Texts) (callId : Text) : Machine (Option ρ) ContextInput where
  start cache := cache = none
  step cache
    | .call row fault c => some (answer C T callId cache row fault c).1
    | .expire => some none

end CompanionBackend.SessionContext
