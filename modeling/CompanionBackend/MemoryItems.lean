import Mathlib.Data.List.DropRight
import CompanionBackend.JsonTexts

/-!
# Items of a memory extraction

`parse_memory_items` reads the items of a model's answer. The extraction saves them as a snapshot
of its job, and a later attempt, as well as the administrative retry, reads the snapshot with the
same parser.
-/
namespace CompanionBackend.MemoryItems

open Dictionaries JsonTexts

/-! ### Checks of keys and values -/

/-- `str.isspace` of one point. -/
def isSpace (c : Point) : Bool :=
  (9 ≤ c.val && c.val ≤ 13) || (28 ≤ c.val && c.val ≤ 32) || c.val == 0x85 || c.val == 0xA0 ||
    c.val == 0x1680 || (0x2000 ≤ c.val && c.val ≤ 0x200A) || c.val == 0x2028 || c.val == 0x2029 ||
    c.val == 0x202F || c.val == 0x205F || c.val == 0x3000

/-- `str.strip`. -/
def strip (s : PyStr) : PyStr := (s.dropWhile isSpace).rdropWhile isSpace

/-- `_CJK_PATTERN`. -/
def isCjk (c : Point) : Bool :=
  (0x3400 ≤ c.val && c.val ≤ 0x4DBF) || (0x4E00 ≤ c.val && c.val ≤ 0x9FFF) ||
    (0xF900 ≤ c.val && c.val ≤ 0xFAFF)

def countCjk (s : PyStr) : ℕ := s.countP isCjk

def MAX_KEY_CJK : ℕ := 20

def MAX_VALUE_CJK : ℕ := 100

def KEY_LAYER_COUNT : ℕ := 3

def FULLWIDTH_COLON : Point := pt '：'

/-- The points of `_KEY_SEGMENT_PATTERN`. -/
def segmentPoint (c : Point) : Bool :=
  isCjk c || (48 ≤ c.val && c.val ≤ 57) || (65 ≤ c.val && c.val ≤ 90) ||
    (97 ≤ c.val && c.val ≤ 122) || c == pt '-' || c == pt '_'

/-- `_KEY_SEGMENT_PATTERN.match`; its end also matches before a last newline. -/
def matchesSegment (s : PyStr) : Bool :=
  let body := if s.getLast? = some (pt '\n') then s.dropLast else s
  body ≠ [] && body.all segmentPoint

inductive KeyIssue
  | empty | fullwidthColon | layers | emptyLayer | characters | tooLong
  deriving DecidableEq

def checkSegment (s : PyStr) : Option KeyIssue :=
  if strip s = [] then some .emptyLayer else if !matchesSegment s then some .characters else none

/-- `validate_key`, by the messages it returns. -/
def validateKey (key : PyStr) : Option KeyIssue :=
  let key := strip key
  if key = [] then some .empty
  else if FULLWIDTH_COLON ∈ key then some .fullwidthColon
  else
    let segments := key.splitOn (pt '-')
    if segments.length ≠ KEY_LAYER_COUNT then some .layers
    else
      (segments.findSome? checkSegment).or
        (if MAX_KEY_CJK < countCjk key then some .tooLong else none)

inductive ValueIssue
  | empty | tooLong
  deriving DecidableEq

/-- `validate_value`. -/
def validateValue (value : PyStr) : Option ValueIssue :=
  let value := strip value
  if value = [] then some .empty
  else if MAX_VALUE_CJK < countCjk value then some .tooLong else none

/-! ### Items -/

inductive MemoryKind
  | user | characterPrivate
  deriving DecidableEq

def MemoryKind.name : MemoryKind → PyStr
  | .user => pts "user"
  | .characterPrivate => pts "character_private"

structure Item where
  memoryType : MemoryKind
  stableKey : PyStr
  content : PyStr
  deriving DecidableEq

def Item.identity (i : Item) : MemoryKind × PyStr := (i.memoryType, i.stableKey)

inductive DropReason
  | invalidAtom | duplicateKey | itemLimit
  deriving DecidableEq

/-- `result` and `drop_reasons`; `dropped` counts the latter, and `seen` are the identities of the
former. -/
structure Parsed where
  items : List Item
  dropped : List DropReason
  deriving DecidableEq

def Parsed.drop (p : Parsed) (reason : DropReason) : Parsed :=
  { p with dropped := p.dropped ++ [reason] }

/-- The object that is saved of an item. -/
def Item.fields (i : Item) : List (PyStr × Value) :=
  [(pts "memory_type", .str i.memoryType.name), (pts "stable_key", .str i.stableKey),
    (pts "content", .str i.content)]

end CompanionBackend.MemoryItems
