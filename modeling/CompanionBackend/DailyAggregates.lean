import CompanionBackend.DailyMetrics
import CompanionBackend.TaskSystems

/-!
# Materialized days

`aggregate_daily_metrics` writes the measured metrics of a day. Its first statement inserts or locks
the row of the count, and the source is read only behind it; changes are visible to others from the
commit on, and the lock lasts until then. A lost lock conflict rolls back and starts again, three
attempts in all. A row is known by its day, the digest of its dimensions and its name; timestamps
are left out.
-/
namespace CompanionBackend.DailyAggregates

open DailyMetrics TaskSystems

/-- The rows of a recomputation: the day and the digest of the dimensions. -/
structure Key where
  day : Day
  hash : String
  deriving DecidableEq

structure Cell where
  dimensions : Dimensions
  value : ℚ
  deriving DecidableEq

/-- The rows of one key, unique by their names. -/
abbrev Rows := MetricName → Option Cell

inductive Write
  | insert (name : MetricName) (cell : Cell)
  | update (name : MetricName) (value : ℚ)
  | delete (name : MetricName)
  deriving DecidableEq

/-- A statement fails when its row is there already, or is not there. -/
def Write.apply (rows : Rows) : Write → Option Rows
  | insert name cell =>
    if (rows name).isSome then none else some (Function.update rows name (some cell))
  | update name value =>
    (rows name).map fun cell => Function.update rows name (some { cell with value := value })
  | delete name =>
    if (rows name).isSome then some (Function.update rows name none) else none

def applyWrites : List Write → Rows → Option Rows
  | [], rows => some rows
  | w :: ws, rows => (w.apply rows).bind (applyWrites ws)

/-- The row that `on_duplicate_key_update` leaves as it is when it is there. -/
def anchor (dimensions : Dimensions) (rows : Rows) : List Write :=
  if (rows .dailyCallCount).isSome then [] else [.insert .dailyCallCount ⟨dimensions, 0⟩]

/-- What the transaction sees of the rows behind the anchor. -/
def existing (dimensions : Dimensions) (rows : Rows) : Rows :=
  if (rows .dailyCallCount).isSome then rows
  else Function.update rows .dailyCallCount (some ⟨dimensions, 0⟩)

/-- The changes that turn the rows into `values`; none when a row has other dimensions. -/
def changes (H : Host) (dimensions : Dimensions) (rows : Rows) (values : List (MetricName × ℚ)) :
    Option (List Write) :=
  if METRIC_NAMES.any fun name => (rows name).any fun cell => cell.dimensions ≠ dimensions then none
  else some
    (((METRIC_NAMES.filter fun name =>
        (rows name).isSome && name ∉ values.map Prod.fst).map .delete) ++
      values.map fun v =>
        if (rows v.1).isSome then .update v.1 (H.store v.2)
        else .insert v.1 ⟨dimensions, H.store v.2⟩)

/-! ### Recomputations -/

/-- Where a call of `aggregate_daily_metrics` is. -/
inductive Phase
  | begun
  /-- The row of the count is locked, by these writes so far. -/
  | anchored (writes : List Write)
  /-- Everything has been sent but the commit; `source` is the snapshot that was read. -/
  | staged (writes : List Write) (source : Source) (p : Projection)
  | returned (source : Source) (p : Projection)
  | raised
  deriving DecidableEq

structure Recompute where
  day : Day
  pricing : Option SimulatedPricing
  /-- Attempts that have ended in a lock conflict. -/
  attempt : ℕ
  phase : Phase
  deriving DecidableEq

def Recompute.dimensions (r : Recompute) : Dimensions := dailyDimensions r.pricing

def Recompute.key (H : Host) (r : Recompute) : Key := ⟨r.day, H.hash r.dimensions⟩

/-- A committed recomputation with its snapshot. -/
structure Commit where
  day : Day
  pricing : Option SimulatedPricing
  source : Source
  p : Projection
  deriving DecidableEq

def Commit.key (H : Host) (c : Commit) : Key := ⟨c.day, H.hash (dailyDimensions c.pricing)⟩

structure Data where
  source : Source
  /-- The committed rows. -/
  rows : Key → Rows
  locked : Key → Bool
  /-- The rows at first. -/
  initial : Key → Rows
  /-- What has been committed, the last one first. -/
  commits : List Commit

namespace Data

def lock (d : Data) (k : Key) : Data := { d with locked := Function.update d.locked k true }

def unlock (d : Data) (k : Key) : Data := { d with locked := Function.update d.locked k false }

def commit (d : Data) (k : Key) (rows : Rows) (c : Commit) : Data :=
  { d with rows := Function.update d.rows k rows, commits := c :: d.commits }

end Data

inductive Task
  | recompute (r : Recompute)
  /-- Whoever else writes calls, the ledger and jobs. -/
  | others
  deriving DecidableEq

inductive Outcome
  | recompute (day : Day) (pricing : Option SimulatedPricing)
  | others
  /-- The next statement succeeds. -/
  | go
  /-- A lock wait has timed out, or a deadlock was found: codes 1205 and 1213. -/
  | conflict
  /-- Any other exception. -/
  | fail
  | write (source : Source)

/-- The transaction ends without effect, and `aggregate_daily_metrics` raises. -/
def giveUp (H : Host) (d : Data) (r : Recompute) : Option (Data × List Task) :=
  some (d.unlock (r.key H), [.recompute { r with phase := .raised }])

/-- The upsert waits for the lock of its row. -/
def begin (H : Host) (d : Data) (r : Recompute) : Option (Data × List Task) :=
  match H.bounds r.day with
  | none => some (d, [.recompute { r with phase := .raised }])
  | some _ =>
    if d.locked (r.key H) then none
    else
      some (d.lock (r.key H), [.recompute { r with
        phase := .anchored (anchor r.dimensions (d.rows (r.key H))) }])

/-- The source and the rows are read from one snapshot. -/
def read (H : Host) (d : Data) (r : Recompute) (writes : List Write) : Option (Data × List Task) :=
  match computeDailyMetrics H d.source r.day r.pricing with
  | none => giveUp H d r
  | some p =>
    if p.pricing ≠ r.dimensions.pricing then giveUp H d r
    else
      match (validatedValues H p r.day).bind
        (changes H r.dimensions (existing r.dimensions (d.rows (r.key H)))) with
      | none => giveUp H d r
      | some ws => some (d, [.recompute { r with phase := .staged (writes ++ ws) d.source p }])

def finish (H : Host) (d : Data) (r : Recompute) (writes : List Write) (source : Source)
    (p : Projection) : Option (Data × List Task) :=
  match applyWrites writes (d.rows (r.key H)) with
  | none => giveUp H d r
  | some rows =>
    some ((d.commit (r.key H) rows ⟨r.day, r.pricing, source, p⟩).unlock (r.key H),
      [.recompute { r with phase := .returned source p }])

/-- A conflict starts the next attempt, unless it was the third. -/
def retry (H : Host) (d : Data) (r : Recompute) : Option (Data × List Task) :=
  if r.attempt = 2 then giveUp H d r
  else some (d.unlock (r.key H), [.recompute { r with attempt := r.attempt + 1, phase := .begun }])

def advanceRecompute (H : Host) (d : Data) (r : Recompute) (o : Outcome) :
    Option (Data × List Task) :=
  match r.phase, o with
  | .begun, .go => begin H d r
  | .anchored writes, .go => read H d r writes
  | .staged writes source p, .go => finish H d r writes source p
  -- Before the upsert no lock is held, so that nothing is released.
  | .begun, .conflict =>
    if r.attempt = 2 then some (d, [.recompute { r with phase := .raised }])
    else some (d, [.recompute { r with attempt := r.attempt + 1 }])
  | .begun, .fail => some (d, [.recompute { r with phase := .raised }])
  | .anchored _, .conflict | .staged _ _ _, .conflict => retry H d r
  | .anchored _, .fail | .staged _ _ _, .fail => giveUp H d r
  | _, _ => none

def advance (H : Host) (d : Data) (t : Task) (o : Outcome) : Option (Data × List Task) :=
  match t, o with
  | .recompute r, o => advanceRecompute H d r o
  | .others, .write source => some ({ d with source := source }, [.others])
  | .others, _ => none

/-- Recomputations of any days, beside other writers of the source. -/
def system (H : Host) : TaskSystem Data Task Outcome where
  initial d := d.rows = d.initial ∧ d.commits = [] ∧ ∀ k, d.locked k = false
  accept _ o :=
    match o with
    | .recompute day pricing => some [.recompute ⟨day, pricing, 0, .begun⟩]
    | .others => some [.others]
    | _ => none
  advance := advance H

end CompanionBackend.DailyAggregates
