import Mathlib.Data.List.AList
import CompanionBackend.ProviderEvents
import CompanionBackend.Runs

/-!
# The closing output buffer

While a call is closing, the output of a new reply is kept until its whole text has
been judged. The judgement is awaited, and meanwhile other events, discards and
judgements may come. A step is what happens between two awaits; a reply is decided
once. Log lines and start times are left out.
-/
namespace CompanionBackend.ClosingOutput

open ProviderEvents Runs

/-- The output of a reply that is kept. -/
structure Candidate where
  events : List ProviderEvent
  text : Text
  bytes : ℕ
  deriving DecidableEq, Repr

inductive Failure
  | unavailable | rejected
  deriving DecidableEq, Repr

structure ClosingOutputBuffer where
  pending : AList fun _ : Ident => Candidate
  decisions : AList fun _ : Ident => Bool
  failures : AList fun _ : Ident => Failure

/-- `closing_reply_limit`. -/
inductive ClosingError
  | replyLimit
  deriving DecidableEq, Repr

/-- The events to send and whether the reply has been rejected, or a text to be judged. -/
inductive FilterResult
  | emit (events : List ProviderEvent) (rejected : Bool)
  | await (text : Text)
  deriving DecidableEq, Repr

/-- `event.reply_id`, when it names a reply. -/
def replyOf (e : ProviderEvent) : Option Ident :=
  match e.replyId with
  | some (c :: cs) => some (c :: cs)
  | _ => none

def Candidate.new : Candidate := ⟨[], [], 0⟩

def Candidate.add (v : Candidate) (e : ProviderEvent) : Candidate where
  events := v.events ++ [e]
  text := match e.kind, e.payload with
    | .chatText, .text text => v.text ++ text
    | _, _ => v.text
  bytes := match e.payload with
    | .audio bytes => v.bytes + bytes
    | _ => v.bytes

def Candidate.tooLarge (v : Candidate) : Bool :=
  2000000 < v.bytes || 16000 < v.text.length || 4096 < v.events.length

/-- A text without blanks and punctuation; `ignored` is what Unicode says about a character. -/
def normalized (ignored : Char → Bool) (text : Text) : Text := text.filter fun c => !ignored c

/-- The text is the goodbye the server has fixed. -/
def exact (ignored : Char → Bool) (text : Text) (expected : Option Text) : Bool :=
  expected.any fun t => !(normalized ignored t).isEmpty && normalized ignored text = normalized ignored t

namespace ClosingOutputBuffer

def new : ClosingOutputBuffer := ⟨∅, ∅, ∅⟩

def putCandidate (s : ClosingOutputBuffer) (reply : Ident) (v : Candidate) : ClosingOutputBuffer :=
  { s with pending := s.pending.insert reply v }

/-- A decision takes the reply out of the buffer. -/
def decide (s : ClosingOutputBuffer) (reply : Ident) (allowed : Bool) : ClosingOutputBuffer :=
  { s with pending := s.pending.erase reply, decisions := s.decisions.insert reply allowed }

def fail (s : ClosingOutputBuffer) (reply : Ident) (failure : Failure) : ClosingOutputBuffer :=
  { s with failures := s.failures.insert reply failure }

/-- The part of `filter` after the verdict. -/
def settle (s : ClosingOutputBuffer) (reply : Ident) (verdict : Option Bool) :
    ClosingOutputBuffer × List ProviderEvent × Bool :=
  let s := match verdict with
    | none => s.fail reply .unavailable
    | some false => s.fail reply .rejected
    | some true => s
  let events := ((s.pending.lookup reply).map Candidate.events).getD []
  if (s.decisions.lookup reply).isSome then ({ s with pending := s.pending.erase reply }, [], false)
  else
    let allowed := verdict = some true
    (s.decide reply allowed, if allowed then events else [], !allowed)

/-- The part of `filter` that keeps an event. -/
def keep (ignored : Char → Bool) (s : ClosingOutputBuffer) (reply : Ident) (e : ProviderEvent)
    (expected : Option Text) : ClosingOutputBuffer × FilterResult :=
  let v := ((s.pending.lookup reply).getD .new).add e
  if v.tooLarge then (s.decide reply false, .emit [] true)
  else if e.kind ≠ .textFinished then (s.putCandidate reply v, .emit [] false)
  else if exact ignored v.text expected || v.text.isEmpty then
    let r := (s.putCandidate reply v).settle reply (some (exact ignored v.text expected))
    (r.1, .emit r.2.1 r.2.2)
  else (s.putCandidate reply v, .await v.text)

/-- `filter`, up to its await. -/
def filter (ignored : Char → Bool) (s : ClosingOutputBuffer) (e : ProviderEvent)
    (restricted : Bool) (expected : Option Text) :
    Except ClosingError (ClosingOutputBuffer × FilterResult) :=
  match replyOf e with
  | none => .ok (s, .emit [e] false)
  | some reply =>
    match s.decisions.lookup reply with
    | some allowed => .ok (s, .emit (if allowed then [e] else []) false)
    | none =>
      if !restricted && (s.pending.lookup reply).isNone then .ok (s, .emit [e] false)
      else if (s.pending.lookup reply).isNone ∧
          4096 ≤ s.pending.keys.length + s.decisions.keys.length then .error .replyLimit
      else .ok (s.keep ignored reply e expected)

/-- `discard`. -/
def discard (s : ClosingOutputBuffer) : ClosingOutputBuffer :=
  { s with
    pending := ∅
    decisions := s.pending.keys.foldr (fun reply d => d.insert reply false) s.decisions }

end ClosingOutputBuffer

/-! ### Runs -/

/-- The buffer and the verdicts it awaits. The rest is history: what arrived and whether output was
restricted then, what was sent, the verdicts given, the replies whose text was the fixed goodbye and
those discarded. -/
structure ClosingRun where
  buffer : ClosingOutputBuffer
  awaiting : List Ident
  arrivals : List (ProviderEvent × Bool)
  emitted : List ProviderEvent
  verdicts : List (Ident × Option Bool)
  fixed : List Ident
  discarded : List Ident

inductive ClosingInput
  | event (e : ProviderEvent) (restricted : Bool) (expected : Option Text)
  | verdict (k : ℕ) (answer : Option Bool)
  | discard

/-- The event decides its reply, whose text is the fixed goodbye. -/
def fixes (ignored : Char → Bool) (s s' : ClosingOutputBuffer) (e : ProviderEvent)
    (expected : Option Text) : Bool :=
  (replyOf e).any fun reply =>
    (s.decisions.lookup reply).isNone && s'.decisions.lookup reply = some true &&
      exact ignored (((s.pending.lookup reply).getD .new).add e).text expected

/-- The events sent at once. -/
def FilterResult.sent : FilterResult → List ProviderEvent
  | .emit events _ => events
  | .await _ => []

def FilterResult.awaits : FilterResult → Bool
  | .emit _ _ => false
  | .await _ => true

/-- The run after an event. A verdict is awaited for the reply of the event. -/
def ClosingRun.arrive (w : ClosingRun) (buffer : ClosingOutputBuffer) (result : FilterResult)
    (e : ProviderEvent) (restricted fixed : Bool) : ClosingRun :=
  { w with
    buffer := buffer
    awaiting := if result.awaits then w.awaiting ++ (replyOf e).toList else w.awaiting
    arrivals := w.arrivals ++ [(e, restricted)]
    emitted := w.emitted ++ result.sent
    fixed := if fixed then (replyOf e).toList ++ w.fixed else w.fixed }

/-- The closing buffer of a call; what Unicode says about characters is fixed. A raised error ends
the call. -/
def closing (ignored : Char → Bool) : Machine ClosingRun ClosingInput where
  start w := w = ⟨.new, [], [], [], [], [], []⟩
  step w
    | .event e restricted expected =>
      match w.buffer.filter ignored e restricted expected with
      | .error _ => none
      | .ok (buffer, result) =>
        some (w.arrive buffer result e restricted (fixes ignored w.buffer buffer e expected))
    | .verdict k answer =>
      w.awaiting[k]?.map fun reply =>
        let r := w.buffer.settle reply answer
        { w with
          buffer := r.1
          awaiting := w.awaiting.eraseIdx k
          emitted := w.emitted ++ r.2.1
          verdicts := w.verdicts ++ [(reply, answer)] }
    | .discard =>
      some { w with
        buffer := w.buffer.discard
        discarded := w.buffer.pending.keys ++ w.discarded }

end CompanionBackend.ClosingOutput

/-!
## One reply at the closing gate

The buffer treats each reply on its own. Seen from one reply its life is short: its
output passes, or is kept until a decision that never changes. Every step of the
buffer is, for each reply, nothing or one step of that life.
-/
namespace CompanionBackend.ClosingRelease

open ProviderEvents ClosingOutput Runs

/-! ### The life of a reply -/

/-- What concerns one reply: its events with whether output was restricted when they arrived, those
sent, the decision, the events that are kept, the verdicts given, whether its text was the fixed
goodbye, and whether it was discarded. -/
structure ReplyView where
  arrivals : List (ProviderEvent × Bool)
  emitted : List ProviderEvent
  decision : Option Bool
  pending : Option (List ProviderEvent)
  verdicts : List (Option Bool)
  fixed : Bool
  discarded : Bool

/-- An event that arrives while the reply is kept, or while it is undecided and output is
restricted. -/
def ReplyView.keeps (v : ReplyView) (restricted : Bool) : Prop :=
  v.decision = none ∧ (restricted = true ∨ v.pending.isSome = true)

inductive ViewStep : ReplyView → ReplyView → Prop
  | pass (v : ReplyView) (e : ProviderEvent) : v.decision = none → v.pending = none →
    ViewStep v { v with arrivals := v.arrivals ++ [(e, false)], emitted := v.emitted ++ [e] }
  | allowed (v : ReplyView) (e : ProviderEvent) (b : Bool) : v.decision = some true →
    ViewStep v { v with arrivals := v.arrivals ++ [(e, b)], emitted := v.emitted ++ [e] }
  | dropped (v : ReplyView) (e : ProviderEvent) (b : Bool) : v.decision = some false →
    ViewStep v { v with arrivals := v.arrivals ++ [(e, b)] }
  | kept (v : ReplyView) (e : ProviderEvent) (b : Bool) : v.keeps b →
    ViewStep v { v with
      arrivals := v.arrivals ++ [(e, b)], pending := some (v.pending.getD [] ++ [e]) }
  | refused (v : ReplyView) (e : ProviderEvent) (b : Bool) : v.keeps b →
    ViewStep v { v with
      arrivals := v.arrivals ++ [(e, b)], pending := none, decision := some false }
  | fixed (v : ReplyView) (e : ProviderEvent) (b : Bool) : v.keeps b →
    ViewStep v { v with
      arrivals := v.arrivals ++ [(e, b)], pending := none, decision := some true, fixed := true
      emitted := v.emitted ++ (v.pending.getD [] ++ [e]) }
  | verdict (v : ReplyView) (answer : Option Bool) : v.decision = none → v.pending.isSome = true →
    ViewStep v { v with
      pending := none, decision := some (answer = some true), verdicts := v.verdicts ++ [answer]
      emitted := v.emitted ++ if answer = some true then v.pending.getD [] else [] }
  | late (v : ReplyView) (answer : Option Bool) : v.decision.isSome = true →
    ViewStep v { v with verdicts := v.verdicts ++ [answer] }
  | discard (v : ReplyView) : v.decision = none → v.pending.isSome = true →
    ViewStep v { v with pending := none, decision := some false, discarded := true }

/-- The run as one reply sees it. -/
def view (w : ClosingRun) (r : Ident) : ReplyView where
  arrivals := w.arrivals.filter fun p => replyOf p.1 = some r
  emitted := w.emitted.filter fun e => replyOf e = some r
  decision := w.buffer.decisions.lookup r
  pending := (w.buffer.pending.lookup r).map (·.events)
  verdicts := (w.verdicts.filter fun p => p.1 = r).map (·.2)
  fixed := w.fixed.contains r
  discarded := w.discarded.contains r

/-- What one step is for a reply. -/
def Moves (w w' : ClosingRun) (r : Ident) : Prop :=
  view w' r = view w r ∨ ViewStep (view w r) (view w' r)

/-- The events of a reply are kept under it, and a verdict is awaited for a reply that is kept or
decided. -/
structure Filed (w : ClosingRun) : Prop where
  own : ∀ r v, w.buffer.pending.lookup r = some v → ∀ e ∈ v.events, replyOf e = some r
  awaiting : ∀ r ∈ w.awaiting,
    (w.buffer.pending.lookup r).isSome = true ∨ (w.buffer.decisions.lookup r).isSome = true

section Buffer

variable {s : ClosingOutputBuffer} {ignored : Char → Bool} {q r : Ident} {e : ProviderEvent}
  {expected : Option Text}

/-- Nothing is done to the other replies. -/
structure Apart (s s' : ClosingOutputBuffer) (r : Ident) : Prop where
  decisions : s'.decisions.lookup r = s.decisions.lookup r
  pending : s'.pending.lookup r = s.pending.lookup r

end Buffer

def decision (w : ClosingRun) (r : Ident) : Option Bool := w.buffer.decisions.lookup r

end CompanionBackend.ClosingRelease
