import CompanionBackend.FrameGrammar

/-!
# Frames of the client

`encode_frame` lays out what is sent to the provider: a header, the event, the session if there is one,
and the compressed payload behind its size. Nothing in it says whether a session follows, but no two
frames share their bytes.
-/
namespace CompanionBackend.FrameEncoder

open Dictionaries PrefixReaders FrameDecoder

/-- The text of `json.dumps` in UTF-8, and `gzip.compress` at a time of the clock. -/
structure Writers where
  dumps : Json → List UInt8
  compress : ℕ → List UInt8 → List UInt8

inductive EncodeError
  | protocolError
  | overflowError
  deriving DecidableEq

/-- `raw`. -/
def rawOf (W : Writers) : Payload → List UInt8
  | .bytes data => data
  | .json j => W.dumps j

def isAudio : Payload → Bool
  | .bytes _ => true
  | .json _ => false

def header (audio : Bool) : List UInt8 :=
  [0x11, if audio then 0x24 else 0x14, if audio then 0x01 else 0x11, 0]

/-- `session_field`. -/
def sessionField (session : List UInt8) : List UInt8 :=
  if session = [] then [] else toBytes 4 session.length ++ session

/-- A number that `to_bytes(4, 'big')` takes. -/
def fits (n : ℤ) : Bool := decide (0 ≤ n ∧ n < 256 ^ 4)

def encodeFrame (W : Writers) (time : ℕ) (event : ℤ) (payload : Payload) (session : String) :
    Except EncodeError (List UInt8) :=
  let raw := rawOf W payload
  let sid := session.toByteArray.data.toList
  if MAX_FRAME_BYTES < raw.length then .error .protocolError
  else
    let body := W.compress time raw
    if fits event && fits sid.length && fits body.length then
      .ok (header (isAudio payload) ++ (toBytes 4 event.toNat ++ (sessionField sid ++
        (toBytes 4 body.length ++ body))))
    else .error .overflowError

variable {W : Writers} {time time' : ℕ} {event event' : ℤ} {payload payload' : Payload}
  {session session' : String} {bs : List UInt8}

theorem toBytes_inj {n n' : ℕ} (hn : n < 256 ^ 4) (hn' : n' < 256 ^ 4) (h : toBytes 4 n = toBytes 4 n') :
    n = n' := by
  rw [← fromBytes_toBytes hn, h, fromBytes_toBytes hn']

/-- A block behind its size ends where the size says. -/
theorem sized_inj {xs xs' : List UInt8} (rest rest' : List UInt8) (hn : xs.length < 256 ^ 4)
    (hn' : xs'.length < 256 ^ 4)
    (h : toBytes 4 xs.length ++ (xs ++ rest) = toBytes 4 xs'.length ++ (xs' ++ rest')) :
    xs = xs' ∧ rest = rest' := by
  obtain ⟨hsize, hrest⟩ := List.append_inj h (by simp)
  exact List.append_inj hrest (toBytes_inj hn hn' hsize)

theorem session_body_inj {sid sid' body body' : List UInt8} (hs : sid.length < 256 ^ 4)
    (hs' : sid'.length < 256 ^ 4) (hb : body.length < 256 ^ 4) (hb' : body'.length < 256 ^ 4)
    (h : sessionField sid ++ (toBytes 4 body.length ++ body) =
      sessionField sid' ++ (toBytes 4 body'.length ++ body')) : sid = sid' ∧ body = body' := by
  unfold sessionField at h
  -- A body is all that follows its size, a session is not: the same bytes are not both.
  split_ifs at h with hnone hnone' hnone'
  · obtain ⟨hsame, -⟩ := sized_inj [] [] hb hb' (by simpa using h)
    exact ⟨hnone.trans hnone'.symm, hsame⟩
  · obtain ⟨-, hrest⟩ := sized_inj [] (toBytes 4 body'.length ++ body') hb hs' (by simpa using h)
    exact absurd (congrArg List.length hrest) (by simp; omega)
  · obtain ⟨-, hrest⟩ := sized_inj (toBytes 4 body.length ++ body) [] hs hb' (by simpa using h)
    exact absurd (congrArg List.length hrest) (by simp)
  · obtain ⟨hsame, hrest⟩ := sized_inj _ _ hs hs' (by simpa using h)
    exact ⟨hsame, (sized_inj [] [] hb hb' (by simpa using hrest)).1⟩

/-- What a frame is made of. -/
theorem encodeFrame_eq_ok (h : encodeFrame W time event payload session = .ok bs) :
    (fits event && fits session.toByteArray.data.toList.length &&
      fits (W.compress time (rawOf W payload)).length) = true ∧
    bs = header (isAudio payload) ++ (toBytes 4 event.toNat ++
      (sessionField session.toByteArray.data.toList ++
        (toBytes 4 (W.compress time (rawOf W payload)).length ++ W.compress time (rawOf W payload)))) := by
  unfold encodeFrame at h
  simp only at h
  split_ifs at h with hlarge hfits
  exact ⟨hfits, (Except.ok.inj h).symm⟩

theorem header_inj {audio audio' : Bool} (h : header audio = header audio') : audio = audio' := by
  cases audio <;> cases audio' <;> first | rfl | exact absurd h (by decide)

/-- The decoder knows neither of the two kinds that are sent. -/
theorem readHeader_header (audio : Bool) (rest : List UInt8) : readHeader (header audio ++ rest) = none := by
  cases audio <;> rfl

/-- The bytes of a frame determine all that was sent, whenever they were written; and no frame that is
sent is one that the decoder takes. -/
theorem encodeFrame_inj (W : Writers)
    (hgzip : ∀ t t' data data', W.compress t data = W.compress t' data' → data = data')
    (h : encodeFrame W time event payload session = .ok bs)
    (h' : encodeFrame W time' event' payload' session' = .ok bs) :
    event = event' ∧ session = session' ∧ isAudio payload = isAudio payload' ∧
      rawOf W payload = rawOf W payload' ∧ ∀ L, decodeFrame L bs = .error .protocolError := by
  obtain ⟨hfits, rfl⟩ := encodeFrame_eq_ok h
  obtain ⟨hfits', hbytes⟩ := encodeFrame_eq_ok h'
  simp only [fits, Bool.and_eq_true, decide_eq_true_eq] at hfits hfits'
  obtain ⟨hheader, hrest⟩ := List.append_inj hbytes (by simp [header])
  obtain ⟨hevent, hrest⟩ := List.append_inj hrest (by simp)
  have hnat := toBytes_inj (by omega) (by omega) hevent
  obtain ⟨hsession, hbody⟩ := session_body_inj (by omega) (by omega) (by omega) (by omega) hrest
  refine ⟨by omega, ?_, header_inj hheader, hgzip _ _ _ _ hbody, fun L => ?_⟩
  · have hread := session_field session
    rw [hsession, session_field session'] at hread
    exact (Option.some.inj hread).symm
  · rw [decodeFrame, readFrame, readHeader_header]
    split_ifs <;> rfl

/-- The empty payload as `gzip` writes it at a time; any other behind a mark of its own. -/
def sampleWriters : Writers where
  dumps _ := []
  compress time data := [0x1f, 0x8b, 8, 0] ++ (toBytes 4 time).reverse ++
    if data = [] then [2, 255, 3, 0, 0, 0, 0, 0, 0, 0, 0, 0] else 1 :: data

theorem sample_gzip (t t' : ℕ) (data data' : List UInt8)
    (h : sampleWriters.compress t data = sampleWriters.compress t' data') : data = data' := by
  obtain ⟨-, h⟩ := List.append_inj h (by simp)
  split_ifs at h with hd hd' hd'
  · exact hd.trans hd'.symm
  · simp at h
  · simp at h
  · exact (List.cons.inj h).2

/-- Silence that is sent in a session. -/
def sampleFrame : List UInt8 :=
  header true ++ (toBytes 4 200 ++ (sessionField [99] ++ (toBytes 4 20 ++ sampleWriters.compress 0 [])))

theorem sample_sent : encodeFrame sampleWriters 0 200 (.bytes []) "c" = .ok sampleFrame := by
  have hsid : "c".toByteArray.data.toList = [99] := by decide
  have hbody : (sampleWriters.compress 0 []).length = 20 := by simp [sampleWriters]
  simp [encodeFrame, rawOf, hsid, hbody, fits, MAX_FRAME_BYTES, sampleFrame, isAudio]

theorem sample_inj : (200 : ℤ) = 200 ∧ "c" = "c" ∧ true = true ∧ ([] : List UInt8) = [] ∧
    ∀ L, decodeFrame L sampleFrame = .error .protocolError :=
  encodeFrame_inj sampleWriters sample_gzip sample_sent sample_sent

end CompanionBackend.FrameEncoder
