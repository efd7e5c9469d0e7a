import CompanionBackend.Dictionaries
import CompanionBackend.PrefixReaders

/-!
# Frames of the voice provider

`decode_frame` reads a binary frame of the provider: four bytes of header, a part that depends on
the kind of the frame, and a payload behind its size. `Frame.layout` is how the server lays out the
same fields.
-/
namespace CompanionBackend.FrameDecoder

open Dictionaries PrefixReaders

/-- How `json.loads` ends. It raises `RecursionError` when values are nested too deeply. -/
inductive Loads
  | value (j : Json)
  | valueError
  | recursionError

/-- The output of a decompression object, its `eof` and its `unused_data`. -/
structure Inflated where
  data : List UInt8
  eof : Bool
  unused : List UInt8

structure Libraries where
  /-- `zlib.decompressobj(16 + zlib.MAX_WBITS).decompress(body, limit)`, unless it raises. -/
  decompress : List UInt8 → ℕ → Option Inflated
  loads : List UInt8 → Loads

/-- What `decode_frame` raises: `ProviderError('protocol_error')`, or what passes its handler. -/
inductive Raised
  | protocolError
  | recursionError
  deriving DecidableEq

def MAX_FRAME_BYTES : ℕ := 1024 * 1024

/-! ### Fields -/

structure Nibbles where
  kind : ℕ
  flags : ℕ
  serial : ℕ
  compression : ℕ

/-- The part that depends on the kind: a code of an error, or an event with its session. -/
inductive Lead
  | error (code : ℕ)
  | event (sequence : Option ℕ) (eventId : ℕ) (session : String)

structure Frame where
  nibbles : Nibbles
  lead : Lead
  body : List UInt8

def Nibbles.supported (n : Nibbles) : Bool :=
  n.kind ∈ [9, 11, 15] && n.serial ∈ [0, 1] && n.compression ∈ [0, 1]

def readHeader : Reader UInt8 Nibbles
  | version :: types :: forms :: reserved :: rest =>
    if version.toNat / 16 = 1 ∧ version.toNat % 16 = 1 ∧ reserved = 0 then
      let n : Nibbles := ⟨types.toNat / 16, types.toNat % 16, forms.toNat / 16, forms.toNat % 16⟩
      if n.supported then some (n, rest) else none
    else none
  | _ => none

/-- At most 255 bytes of UTF-8 behind their size. -/
def readSession : Reader UInt8 String := fun bs => do
  let (size, rest) ← number 4 bs
  if 255 < size then none
  else
    let (field, rest) ← block size rest
    let session ← String.fromUTF8? ⟨field.toArray⟩
    some (session, rest)

def readLead (n : Nibbles) : Reader UInt8 Lead := fun bs =>
  if n.kind = 15 then (number 4 bs).map fun (code, rest) => (.error code, rest)
  else do
    let (sequence, rest) ← optional (n.flags &&& 3 != 0) (number 4) bs
    if n.flags &&& 4 = 0 then none
    else
      let (eventId, rest) ← number 4 rest
      let (session, rest) ← readSession rest
      some (.event sequence eventId session, rest)

/-- All fields; the size of the payload is what is left. -/
def readFrame (raw : List UInt8) : Option Frame := do
  let (nibbles, rest) ← readHeader raw
  let (lead, rest) ← readLead nibbles rest
  let (size, body) ← number 4 rest
  if body.length ≠ size then none else some ⟨nibbles, lead, body⟩

/-! ### Payloads -/

inductive Payload
  | bytes (data : List UInt8)
  | json (j : Json)

/-- What `decode_frame` returns. -/
structure Decoded where
  audio : Bool
  session : String
  event : ℕ
  sequence : Option ℕ
  errorCode : Option ℕ
  payload : Payload

/-- `result['event']`, 0 unless the frame has one. -/
def Lead.eventNumber : Lead → ℕ
  | .error _ => 0
  | .event _ eventId _ => eventId

/-- Bytes that are not JSON are sound of the provider, or belong to an error. -/
def Frame.isAudio (f : Frame) : Bool :=
  f.nibbles.serial == 0 && f.nibbles.kind == 11 && f.lead.eventNumber == 352

def Frame.decoded (f : Frame) (payload : Payload) : Decoded :=
  match f.lead with
  | .error code => ⟨f.isAudio, "", 0, none, some code, payload⟩
  | .event sequence eventId session => ⟨f.isAudio, session, eventId, sequence, none, payload⟩

/-- The body, decompressed within the limit; none for `ValueError` and `zlib.error`. -/
def unpack (L : Libraries) (f : Frame) : Option (List UInt8) :=
  if f.nibbles.compression = 0 then some f.body
  else do
    let out ← L.decompress f.body (MAX_FRAME_BYTES + 1)
    if MAX_FRAME_BYTES < out.data.length ∨ out.eof = false ∨ out.unused ≠ [] then none
    else some out.data

def readPayload (L : Libraries) (f : Frame) (data : List UInt8) : Except Raised Payload :=
  if f.nibbles.serial ≠ 0 then
    match L.loads data with
    | .value j => if j.isObj then .ok (.json j) else .error .protocolError
    | .valueError => .error .protocolError
    | .recursionError => .error .recursionError
  else if f.isAudio then .ok (.bytes data)
  else if f.nibbles.kind ≠ 15 then .error .protocolError
  else .ok (.bytes data)

/-- What follows once all fields are read. -/
def decodeBody (L : Libraries) (f : Frame) : Except Raised Decoded :=
  match unpack L f with
  | none => .error .protocolError
  | some data => (readPayload L f data).map f.decoded

def decodeFrame (L : Libraries) (raw : List UInt8) : Except Raised Decoded :=
  if 4 ≤ raw.length ∧ raw.length ≤ MAX_FRAME_BYTES then
    match readFrame raw with
    | none => .error .protocolError
    | some f => decodeBody L f
  else .error .protocolError

/-! ### The format of the server -/

def writeHeader (n : Nibbles) : List UInt8 :=
  [0x11, UInt8.ofNat (16 * n.kind + n.flags), UInt8.ofNat (16 * n.serial + n.compression), 0]

def writeSession (session : String) : List UInt8 :=
  toBytes 4 session.toByteArray.data.toList.length ++ session.toByteArray.data.toList

def writeLead : Lead → List UInt8
  | .error code => toBytes 4 code
  | .event sequence eventId session =>
    writeOptional (toBytes 4) sequence ++ (toBytes 4 eventId ++ writeSession session)

def Frame.layout (f : Frame) : List UInt8 :=
  writeHeader f.nibbles ++ (writeLead f.lead ++ (toBytes 4 f.body.length ++ f.body))

/-- The fields that the kind and the flags ask for, each within its bytes. -/
def Lead.Fits (n : Nibbles) : Lead → Prop
  | .error code => n.kind = 15 ∧ code < 256 ^ 4
  | .event sequence eventId session =>
    n.kind ≠ 15 ∧ (sequence.isSome = (n.flags &&& 3 != 0) ∧ ∀ s ∈ sequence, s < 256 ^ 4) ∧
      n.flags &&& 4 ≠ 0 ∧ eventId < 256 ^ 4 ∧ session.toByteArray.data.toList.length ≤ 255

/-- A frame of a supported kind, with supported flags, serialization and compression. -/
structure Frame.Supported (f : Frame) : Prop where
  nibbles : f.nibbles.supported = true
  flags : f.nibbles.flags < 16
  lead : f.lead.Fits f.nibbles
  media : f.nibbles.serial = 1 ∨ f.isAudio = true ∨ f.nibbles.kind = 15
  size : f.layout.length ≤ MAX_FRAME_BYTES

/-- What streams and texts mean: `gzip data z` when `z` is a stream of `data`, and `json text j` when
`text` is read as `j`. -/
structure Formats where
  gzip : List UInt8 → List UInt8 → Prop
  json : List UInt8 → Json → Prop

/-- The libraries read their formats, except for texts that are nested too deeply. -/
structure Correct (L : Libraries) (F : Formats) : Prop where
  inflate : ∀ z data limit, data.length < limit →
    (L.decompress z limit = some ⟨data, true, []⟩ ↔ F.gzip data z)
  read : ∀ text j, L.loads text = .value j → F.json text j
  readable : ∀ text j, F.json text j → L.loads text = .value j ∨ L.loads text = .recursionError

/-- `data` is what the body of a frame holds. -/
def Frame.Packs (f : Frame) (F : Formats) (data : List UInt8) : Prop :=
  if f.nibbles.compression = 0 then data = f.body
  else F.gzip data f.body ∧ data.length ≤ MAX_FRAME_BYTES

/-- `payload` is what the server has put into a frame. -/
def Frame.Carries (f : Frame) (F : Formats) (payload : Payload) : Prop :=
  ∃ data, f.Packs F data ∧
    match payload with
    | .bytes content => f.nibbles.serial = 0 ∧ content = data
    | .json j => f.nibbles.serial = 1 ∧ F.json data j ∧ j.isObj = true

end CompanionBackend.FrameDecoder
