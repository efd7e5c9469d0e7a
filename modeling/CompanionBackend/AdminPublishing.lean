import Mathlib.Data.List.Sort
import CompanionBackend.ProviderEvents
import CompanionBackend.TaskSystems

/-!
# Publishing an administrator's configuration

`publish_config` deactivates the active row, inserts the next version, writes the cache,
trims the history and leaves the commit to its caller. Readers refill the cache from the
active row. The first read of a transaction fixes the rows it sees; its first write takes the
locks of all rows of the key until it ends. The draft rows that a publication deletes, the
log and the monitor mark are left out.
-/
namespace CompanionBackend.AdminPublishing

open ProviderEvents TaskSystems

/-- A row of `admin_config` under one key that is not a draft. -/
structure ConfigRow where
  id : ℕ
  version : ℤ
  value : Text
  isActive : Bool
  deriving DecidableEq, Repr

/-- `_MAX_HISTORY_VERSIONS`. -/
def maxHistoryVersions : ℕ := 20

def activeRow (rows : List ConfigRow) : Option ConfigRow := rows.find? ConfigRow.isActive

def currentVersion (rows : List ConfigRow) : ℤ := ((activeRow rows).map ConfigRow.version).getD 0

/-- The rows with this one set inactive. -/
def deactivate (active : Option ConfigRow) (rows : List ConfigRow) : List ConfigRow :=
  rows.map fun r => if active.map ConfigRow.id = some r.id then { r with isActive := false } else r

/-- `order_by(version.asc())`. -/
def versionLe (a b : ConfigRow) : Prop := a.version ≤ b.version

instance : DecidableRel versionLe := fun a b => inferInstanceAs (Decidable (a.version ≤ b.version))

instance : Std.Total versionLe := ⟨fun a b => le_total a.version b.version⟩

instance : IsTrans ConfigRow versionLe := ⟨fun _ _ _ => le_trans⟩

/-- The oldest inactive rows beyond the limit. -/
def excessIds (rows : List ConfigRow) : List ℕ :=
  (((rows.filter fun r => !r.isActive).insertionSort versionLe).take
    (rows.length - maxHistoryVersions)).map ConfigRow.id

/-- Who has written to the rows and not committed yet, and whether its value is in the cache. -/
inductive WriteLock
  | free
  | writing
  | staged (value : Text)
  deriving DecidableEq, Repr

structure PublishData where
  /-- The committed rows. -/
  rows : List ConfigRow
  /-- The rows that commits have deleted, as they were before. -/
  removed : List ConfigRow
  nextId : ℕ
  cache : Option Text
  lock : WriteLock

/-- What is being published, and the rows its transaction sees. -/
structure Publication where
  value : Text
  snapshot : List ConfigRow
  deriving DecidableEq, Repr

/-- An operation between two of its awaits. -/
inductive PublishTask
  | publishing (value : Text)
  | rollingBack (version : ℤ)
  | prepared (p : Publication)
  /-- The drafts are deleted; the rows of the key are locked. -/
  | locked (p : Publication)
  | flushed (p : Publication) (row : ConfigRow)
  | cached (p : Publication) (row : ConfigRow)
  | trimmed (p : Publication) (row : ConfigRow) (ids : List ℕ)
  | reading
  /-- The cache had nothing. -/
  | missed
  | refilling (value : Text)
  /-- The cached value expires. -/
  | evicting
  deriving DecidableEq, Repr

/-- The transaction holds the locks. -/
def PublishTask.holds : PublishTask → Bool
  | .locked _ | .flushed _ _ | .cached _ _ | .trimmed _ _ _ => true
  | _ => false

inductive PublishInput
  | publish (value : Text)
  | rollback (version : ℤ)
  | read
  | evict
  | proceed
  /-- The operation fails here; its transaction is rolled back. -/
  | abort

namespace PublishData

def release (d : PublishData) (t : PublishTask) : PublishData :=
  if t.holds then { d with lock := .free } else d

/-- The row to deactivate is gone. -/
def stale (d : PublishData) (p : Publication) : Bool :=
  (activeRow p.snapshot).any fun a => !d.rows.any fun r => decide (r.id = a.id)

/-- The row a publication inserts. -/
def newRow (d : PublishData) (p : Publication) : ConfigRow :=
  ⟨d.nextId, currentVersion p.snapshot + 1, p.value, true⟩

/-- The rows as the publication sees them after its flush. -/
def view (p : Publication) (row : ConfigRow) : List ConfigRow :=
  deactivate (activeRow p.snapshot) p.snapshot ++ [row]

/-- The rows after the commit of a publication. -/
def commit (d : PublishData) (p : Publication) (row : ConfigRow) (ids : List ℕ) : PublishData :=
  { d with
    rows := (deactivate (activeRow p.snapshot) d.rows ++ [row]).filter fun r => decide (r.id ∉ ids)
    removed := d.removed ++ d.rows.filter fun r => decide (r.id ∈ ids)
    lock := .free }

/-- What an operation does up to its next await; `none` while it waits for the locks. -/
def proceed (d : PublishData) (t : PublishTask) : Option (PublishData × List PublishTask) :=
  match t with
  | .publishing value => some (d, [.prepared ⟨value, d.rows⟩])
  | .rollingBack version =>
    match d.rows.find? fun r => decide (r.version = version) with
    | some target => some (d, [.prepared ⟨target.value, d.rows⟩])
    | none => some (d, [])
  | .prepared p => if d.lock = .free then some ({ d with lock := .writing }, [.locked p]) else none
  | .locked p =>
    if d.stale p then some (d.release t, [])
    else some ({ d with nextId := d.nextId + 1 }, [.flushed p (d.newRow p)])
  | .flushed p row =>
    some ({ d with cache := some p.value, lock := .staged p.value }, [.cached p row])
  | .cached p row => some (d, [.trimmed p row (excessIds (view p row))])
  | .trimmed p row ids => some (d.commit p row ids, [])
  | .reading => if d.cache.isSome then some (d, []) else some (d, [.missed])
  | .missed =>
    match activeRow d.rows with
    | some r => some (d, [.refilling r.value])
    | none => some (d, [])
  | .refilling value => some ({ d with cache := some value }, [])
  | .evicting => some ({ d with cache := none }, [])

end PublishData

/-- One active row with the greatest version, no version twice, at most twenty rows. -/
structure RowsKept (rows : List ConfigRow) : Prop where
  active : ∃ a, rows.filter ConfigRow.isActive = [a]
  distinct : (rows.map ConfigRow.version).Nodup
  greatest : ∀ a ∈ rows, a.isActive = true → ∀ r ∈ rows, r.version ≤ a.version
  bounded : rows.length ≤ maxHistoryVersions

/-- The cache shows the active row, where it shows anything. -/
def CacheCurrent (d : PublishData) : Prop :=
  ∀ c ∈ d.cache, ∀ a ∈ activeRow d.rows, c = a.value

/-- Rows as publications leave them, each with its own id. -/
structure Settled (d : PublishData) : Prop where
  rows : RowsKept d.rows
  ids : (d.rows.map ConfigRow.id).Nodup
  fresh : ∀ r ∈ d.rows, r.id < d.nextId

/-- All publications, rollbacks and readers of one key. -/
def publishSystem : TaskSystem PublishData PublishTask PublishInput where
  initial d := Settled d ∧ CacheCurrent d ∧ d.removed = [] ∧ d.lock = .free
  accept _ i :=
    match i with
    | .publish value => some [.publishing value]
    | .rollback version => some [.rollingBack version]
    | .read => some [.reading]
    | .evict => some [.evicting]
    | _ => none
  advance d t i :=
    match i with
    | .proceed => d.proceed t
    | .abort => some (d.release t, [])
    | _ => none

end CompanionBackend.AdminPublishing
