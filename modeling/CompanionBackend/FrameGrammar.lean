import CompanionBackend.FrameDecoder

/-!
# The grammar of the frames

Each reader of `decode_frame` reads the layout of its part, so that the fields that are read give
back all bytes. The decoder therefore returns the parts of the frames it supports and refuses
everything else, but for texts on which `json.loads` raises `RecursionError`: the handler does not
name it, and it leaves the function.
-/
namespace CompanionBackend.FrameDecoder

open Dictionaries PrefixReaders

/-! ### Readers -/

theorem serial_lt {n : Nibbles} (h : n.supported = true) : n.serial < 2 := by
  simp only [Nibbles.supported, Bool.and_eq_true, decide_eq_true_eq, List.mem_cons,
    List.not_mem_nil, or_false] at h
  omega

theorem readHeader_reads :
    Reads readHeader writeHeader (fun n => n.supported = true ∧ n.flags < 16) where
  sound := by
    intro bs n rest hread
    match bs with
    | version :: types :: forms :: reserved :: tail =>
      simp only [readHeader] at hread
      split at hread
      next hv =>
        split at hread
        next hs =>
          simp only [Option.some.injEq, Prod.mk.injEq] at hread
          obtain ⟨rfl, rfl⟩ := hread
          have hversion : version = 0x11 := by
            rw [← UInt8.toNat_inj]
            have := hv.1
            have := hv.2.1
            simp only [UInt8.reduceToNat]
            omega
          have hback : ∀ b : UInt8, UInt8.ofNat (16 * (b.toNat / 16) + b.toNat % 16) = b := by
            intro b
            rw [Nat.div_add_mod, UInt8.ofNat_toNat]
          refine ⟨⟨hs, by simp only; omega⟩, ?_⟩
          simp only [writeHeader, hback, hversion, hv.2.2, List.cons_append, List.nil_append]
        next => cases hread
      next => cases hread
    | [] | [_] | [_, _] | [_, _, _] => simp [readHeader] at hread
  complete := by
    intro n rest hn
    obtain ⟨hs, hflags⟩ := hn
    have hsmall : n.kind < 16 ∧ n.serial < 2 ∧ n.compression < 2 := by
      simp only [Nibbles.supported, Bool.and_eq_true, decide_eq_true_eq, List.mem_cons,
        List.not_mem_nil, or_false] at hs
      omega
    have htypes : (UInt8.ofNat (16 * n.kind + n.flags)).toNat = 16 * n.kind + n.flags := by
      rw [UInt8.toNat_ofNat']
      omega
    have hforms : (UInt8.ofNat (16 * n.serial + n.compression)).toNat =
        16 * n.serial + n.compression := by
      rw [UInt8.toNat_ofNat']
      omega
    have hn : (⟨(16 * n.kind + n.flags) / 16, (16 * n.kind + n.flags) % 16,
        (16 * n.serial + n.compression) / 16, (16 * n.serial + n.compression) % 16⟩ : Nibbles) =
        n := by
      obtain ⟨kind, flags, serial, compression⟩ := n
      simp only [Nibbles.mk.injEq]
      simp only at hsmall hflags
      omega
    simp only [writeHeader, List.cons_append, List.nil_append, readHeader, htypes, hforms, hn, hs,
      UInt8.reduceToNat, Nat.reduceDiv, Nat.reduceMod, and_self, if_true]

theorem session_field (session : String) :
    String.fromUTF8? ⟨session.toByteArray.data.toList.toArray⟩ = some session := by
  have h : (⟨session.toByteArray.data.toList.toArray⟩ : ByteArray) = session.toByteArray := by
    simp
  rw [h, String.fromUTF8?, dif_pos session.isValidUTF8]
  rfl

theorem field_of_session {field : List UInt8} {session : String}
    (h : String.fromUTF8? ⟨field.toArray⟩ = some session) :
    session.toByteArray.data.toList = field := by
  unfold String.fromUTF8? at h
  split at h
  · simp only [Option.some.injEq] at h
    rw [← h]
    rfl
  · cases h

theorem readSession_reads :
    Reads readSession writeSession (·.toByteArray.data.toList.length ≤ 255) where
  sound := by
    intro bs session rest hread
    simp only [readSession, Option.bind_eq_bind, Option.bind_eq_some_iff] at hread
    obtain ⟨⟨size, mid⟩, hsize, hread⟩ := hread
    split at hread
    · cases hread
    next hsmall =>
      simp only [Option.bind_eq_some_iff, Option.some.injEq, Prod.mk.injEq] at hread
      obtain ⟨⟨field, rest'⟩, hblock, session', htext, rfl, rfl⟩ := hread
      obtain ⟨-, rfl⟩ := (number_reads 4).sound hsize
      obtain ⟨hlen, rfl⟩ := (block_reads size).sound hblock
      have hfield := field_of_session htext
      simp only [writeSession, hfield, hlen, id_eq, List.append_assoc, and_true]
      simp only at hsmall
      omega
  complete := by
    intro session rest hlen
    have hsize := (number_reads 4).complete (session.toByteArray.data.toList ++ rest)
      (a := session.toByteArray.data.toList.length) (by omega)
    have hblock := (block_reads session.toByteArray.data.toList.length).complete rest
      (a := session.toByteArray.data.toList) rfl
    simp only [id_eq] at hblock
    have hnot : ¬ 255 < session.toByteArray.data.toList.length := by omega
    simp only [readSession, writeSession, List.append_assoc, hsize, Option.bind_eq_bind,
      Option.bind_some, if_neg hnot, hblock, session_field]

theorem readLead_reads (n : Nibbles) : Reads (readLead n) writeLead (·.Fits n) where
  sound := by
    intro bs lead rest hread
    unfold readLead at hread
    split at hread
    next hkind =>
      simp only [Option.map_eq_some_iff, Prod.mk.injEq] at hread
      obtain ⟨⟨code, rest'⟩, hcode, rfl, rfl⟩ := hread
      obtain ⟨hlt, rfl⟩ := (number_reads 4).sound hcode
      exact ⟨⟨hkind, hlt⟩, rfl⟩
    next hkind =>
      simp only [Option.bind_eq_bind, Option.bind_eq_some_iff] at hread
      obtain ⟨⟨sequence, mid⟩, hsequence, hread⟩ := hread
      split at hread
      · cases hread
      next hflag =>
        simp only [Option.bind_eq_some_iff, Option.some.injEq, Prod.mk.injEq] at hread
        obtain ⟨⟨eventId, mid'⟩, hevent, ⟨session, rest'⟩, hsession, rfl, rfl⟩ := hread
        obtain ⟨hvs, rfl⟩ := ((number_reads 4).optional _).sound hsequence
        obtain ⟨hve, rfl⟩ := (number_reads 4).sound hevent
        obtain ⟨hvt, rfl⟩ := readSession_reads.sound hsession
        exact ⟨⟨hkind, hvs, hflag, hve, hvt⟩, by simp only [writeLead, List.append_assoc]⟩
  complete := by
    intro lead rest hfits
    cases lead with
    | error code =>
      have hcode := (number_reads 4).complete rest hfits.2
      simp only [readLead, if_pos hfits.1, writeLead, hcode, Option.map_some]
    | event sequence eventId session =>
      obtain ⟨hkind, hvs, hflag, hve, hvt⟩ := hfits
      have hsequence := ((number_reads 4).optional (n.flags &&& 3 != 0)).complete
        (toBytes 4 eventId ++ (writeSession session ++ rest)) hvs
      have hevent := (number_reads 4).complete (writeSession session ++ rest) hve
      have hsession := readSession_reads.complete rest hvt
      simp only [readLead, if_neg hkind, writeLead, List.append_assoc, hsequence,
        Option.bind_eq_bind, Option.bind_some, if_neg hflag, hevent, hsession]

/-- All fields of a frame are read, and its bytes are the layout of what was read. -/
theorem readFrame_eq_some {raw : List UInt8} {f : Frame} :
    readFrame raw = some f ↔
      f.layout = raw ∧ (f.nibbles.supported = true ∧ f.nibbles.flags < 16) ∧
        f.lead.Fits f.nibbles ∧ f.body.length < 256 ^ 4 := by
  constructor
  · intro hread
    simp only [readFrame, Option.bind_eq_bind, Option.bind_eq_some_iff] at hread
    obtain ⟨⟨nibbles, rest⟩, hheader, ⟨lead, rest'⟩, hlead, ⟨size, body⟩, hsize, hread⟩ := hread
    obtain ⟨hvh, rfl⟩ := readHeader_reads.sound hheader
    obtain ⟨hvl, rfl⟩ := (readLead_reads nibbles).sound hlead
    obtain ⟨hvs, rfl⟩ := (number_reads 4).sound hsize
    split at hread
    · cases hread
    next hlen =>
      simp only [ne_eq, Decidable.not_not] at hlen
      simp only [Option.some.injEq] at hread
      subst hread hlen
      exact ⟨rfl, hvh, hvl, hvs⟩
  · rintro ⟨rfl, hvh, hvl, hvs⟩
    obtain ⟨nibbles, lead, body⟩ := f
    have hheader := readHeader_reads.complete
      (writeLead lead ++ (toBytes 4 body.length ++ body)) hvh
    have hlead := (readLead_reads nibbles).complete (toBytes 4 body.length ++ body) hvl
    have hsize := (number_reads 4).complete body hvs
    simp only [readFrame, Frame.layout, hheader, hlead, hsize, Option.bind_eq_bind,
      Option.bind_some, ne_eq, not_true_eq_false, if_false]

theorem Frame.length_layout (f : Frame) :
    f.layout.length = 8 + (writeLead f.lead).length + f.body.length := by
  simp only [Frame.layout, writeHeader, List.length_append, List.length_cons, List.length_nil,
    length_toBytes]
  omega

/-- The fields of a supported frame are read. -/
theorem Frame.Supported.read {f : Frame} (h : f.Supported) :
    readFrame f.layout = some f ∧ 4 ≤ f.layout.length := by
  have hsize := h.size
  have hlen := f.length_layout
  have hbody : f.body.length < 256 ^ 4 := by
    unfold MAX_FRAME_BYTES at hsize
    omega
  exact ⟨readFrame_eq_some.mpr ⟨rfl, ⟨h.nibbles, h.flags⟩, h.lead, hbody⟩, by omega⟩

/-- A layout belongs to one supported frame. -/
theorem Frame.Supported.layout_inj {f g : Frame} (hf : f.Supported) (hg : g.Supported)
    (h : f.layout = g.layout) : f = g := by
  have hread := hf.read.1
  rw [h, hg.read.1] at hread
  exact (Option.some.inj hread).symm

/-! ### Payloads -/

variable {L : Libraries} {F : Formats}

theorem Frame.Packs.unpack {f : Frame} {data : List UInt8} (hL : Correct L F)
    (h : f.Packs F data) : unpack L f = some data := by
  unfold Frame.Packs at h
  unfold FrameDecoder.unpack
  split at h
  next hc => rw [if_pos hc, h]
  next hc =>
    have hout := (hL.inflate f.body data (MAX_FRAME_BYTES + 1) (by omega)).mpr h.1
    have hnot : ¬ (MAX_FRAME_BYTES < data.length ∨ true = false ∨ ([] : List UInt8) ≠ []) := by
      simp only [ne_eq, not_true_eq_false, or_false, Bool.true_eq_false]
      omega
    simp only [if_neg hc, hout, Option.bind_eq_bind, Option.bind_some, if_neg hnot]

theorem packs_of_unpack {f : Frame} {data : List UInt8} (hL : Correct L F)
    (h : unpack L f = some data) : f.Packs F data := by
  unfold FrameDecoder.unpack at h
  unfold Frame.Packs
  split at h
  next hc =>
    rw [if_pos hc]
    exact (Option.some.inj h).symm
  next hc =>
    simp only [Option.bind_eq_bind, Option.bind_eq_some_iff] at h
    obtain ⟨⟨out, eof, unused⟩, hout, h⟩ := h
    split at h
    · cases h
    next hok =>
      simp only [ne_eq, not_or, not_lt, Bool.not_eq_false, Decidable.not_not] at hok
      obtain ⟨hle, rfl, rfl⟩ := hok
      simp only [Option.some.injEq] at h
      subst h
      rw [if_neg hc]
      exact ⟨(hL.inflate f.body out (MAX_FRAME_BYTES + 1) (by omega)).mp hout, hle⟩

/-- A supported frame: its body is unpacked, and what it holds is read. -/
theorem decodeFrame_layout (L : Libraries) {f : Frame} (h : f.Supported) :
    decodeFrame L f.layout = decodeBody L f := by
  obtain ⟨hread, hlen⟩ := h.read
  simp only [decodeFrame, if_pos (And.intro hlen h.size), hread]

/-- Whatever is not the layout of a supported frame is refused. -/
theorem decodeFrame_refuses (L : Libraries) {raw : List UInt8}
    (h : ∀ f : Frame, f.Supported → f.layout ≠ raw) :
    decodeFrame L raw = .error .protocolError := by
  unfold decodeFrame
  split
  next hlen =>
    cases hread : readFrame raw with
    | none => rfl
    | some f =>
      obtain ⟨rfl, hn, hl, -⟩ := readFrame_eq_some.mp hread
      have hmedia : ¬ (f.nibbles.serial = 1 ∨ f.isAudio = true ∨ f.nibbles.kind = 15) := by
        intro hmedia
        exact h f ⟨hn.1, hn.2, hl, hmedia, hlen.2⟩ rfl
      simp only [not_or, Bool.not_eq_true] at hmedia
      obtain ⟨hserial, haudio, hkind⟩ := hmedia
      have hzero : f.nibbles.serial = 0 := by
        have := serial_lt hn.1
        omega
      simp only [decodeBody]
      cases unpack L f with
      | none => rfl
      | some data =>
        simp only [readPayload, hzero, ne_eq, not_true_eq_false, if_false, haudio,
          Bool.false_eq_true, hkind, not_false_eq_true, if_true, Except.map]
  next => rfl

/-! ### Exactness -/

/-- `raw` is a frame with a text on which `json.loads` raises `RecursionError`. -/
def TooDeep (L : Libraries) (F : Formats) (raw : List UInt8) : Prop :=
  ∃ (f : Frame) (data : List UInt8), f.Supported ∧ f.layout = raw ∧ f.nibbles.serial = 1 ∧ f.Packs F data ∧
    L.loads data = .recursionError

/-- What is returned gives all bytes back, whatever is raised is a protocol error, and every frame
that the server lays out is decoded to its parts. -/
structure Exact (L : Libraries) (F : Formats) (raw : List UInt8) : Prop where
  returned : ∀ d, decodeFrame L raw = .ok d →
    ∃ (f : Frame) (payload : Payload), f.Supported ∧ f.layout = raw ∧ f.Carries F payload ∧ d = f.decoded payload
  raised : ∀ e, decodeFrame L raw = .error e → e = .protocolError
  decodes : ∀ (f : Frame) (payload : Payload), f.Supported → f.layout = raw → f.Carries F payload →
    decodeFrame L raw = .ok (f.decoded payload)

theorem decodeFrame_tooDeep {raw : List UInt8} (hL : Correct L F) (h : TooDeep L F raw) :
    decodeFrame L raw = .error .recursionError := by
  obtain ⟨f, data, hf, rfl, hserial, hpacks, hdeep⟩ := h
  rw [decodeFrame_layout L hf, decodeBody, hpacks.unpack hL]
  simp only [readPayload, hserial, ne_eq, one_ne_zero, not_false_eq_true, if_true, hdeep,
    Except.map]

/-- What is read of the data of a supported frame is what the frame carries. -/
theorem readPayload_ok {f : Frame} {data : List UInt8} {payload : Payload} (hL : Correct L F)
    (hf : f.Supported) (hpacks : f.Packs F data) (h : readPayload L f data = .ok payload) :
    f.Carries F payload := by
  unfold readPayload at h
  split at h
  next hserial =>
    have hone : f.nibbles.serial = 1 := by
      have := serial_lt hf.nibbles
      omega
    split at h
    next j hj =>
      split at h
      next hobj =>
        cases h
        exact ⟨data, hpacks, hone, hL.read data j hj, hobj⟩
      next => cases h
    next => cases h
    next => cases h
  next hserial =>
    have hzero : f.nibbles.serial = 0 := by omega
    have hbytes : f.Carries F (.bytes data) := ⟨data, hpacks, hzero, rfl⟩
    split at h
    · cases h
      exact hbytes
    · split at h
      · cases h
      · cases h
        exact hbytes

/-- Only a text that is nested too deeply raises something else. -/
theorem readPayload_error {f : Frame} {data : List UInt8} {e : Raised} (hserial : f.nibbles.serial < 2)
    (h : readPayload L f data = .error e) :
    e = .protocolError ∨ f.nibbles.serial = 1 ∧ L.loads data = .recursionError := by
  unfold readPayload at h
  split at h
  next hne =>
    split at h
    next => split at h <;> cases h; exact .inl rfl
    next => cases h; exact .inl rfl
    next hdeep => exact .inr ⟨by omega, hdeep⟩
  next =>
    split at h
    · cases h
    · split at h <;> cases h
      exact .inl rfl

/-- What a supported frame carries is read, unless its text is nested too deeply. -/
theorem Frame.Carries.decoded {f : Frame} {payload : Payload} (hL : Correct L F)
    (hf : f.Supported) (h : f.Carries F payload) (hdeep : ¬ TooDeep L F f.layout) :
    decodeFrame L f.layout = .ok (f.decoded payload) := by
  obtain ⟨data, hpacks, hpayload⟩ := h
  rw [decodeFrame_layout L hf, decodeBody, hpacks.unpack hL]
  cases payload with
  | bytes content =>
    obtain ⟨hzero, rfl⟩ := hpayload
    have hmedia : f.isAudio = true ∨ f.nibbles.kind = 15 := hf.media.resolve_left (by omega)
    simp only [readPayload, hzero, ne_eq, not_true_eq_false, if_false]
    split
    · rfl
    next haudio =>
      have hkind : f.nibbles.kind = 15 := hmedia.resolve_left haudio
      simp only [hkind, not_true_eq_false, if_false, Except.map]
  | json j =>
    obtain ⟨hone, hjson, hobj⟩ := hpayload
    rcases hL.readable data j hjson with hvalue | hraise
    · simp only [readPayload, hone, ne_eq, one_ne_zero, not_false_eq_true, if_true, hvalue, hobj,
        Except.map]
    · exact absurd ⟨f, data, hf, rfl, hone, hpacks, hraise⟩ hdeep

/-- What is returned belongs to a supported frame with these bytes. -/
theorem decodeFrame_ok {raw : List UInt8} {d : Decoded} (hL : Correct L F)
    (h : decodeFrame L raw = .ok d) :
    ∃ (f : Frame) (payload : Payload), f.Supported ∧ f.layout = raw ∧ f.Carries F payload ∧
      d = f.decoded payload := by
  by_cases hlaid : ∃ f : Frame, f.Supported ∧ f.layout = raw
  · obtain ⟨f, hf, rfl⟩ := hlaid
    rw [decodeFrame_layout L hf, decodeBody] at h
    cases hdata : unpack L f with
    | none => simp [hdata] at h
    | some data =>
      rw [hdata] at h
      cases hpayload : readPayload L f data with
      | error e => simp [hpayload, Except.map] at h
      | ok payload =>
        simp only [hpayload, Except.map, Except.ok.injEq] at h
        exact ⟨f, payload, hf, rfl, readPayload_ok hL hf (packs_of_unpack hL hdata) hpayload, h.symm⟩
  · rw [decodeFrame_refuses L fun f hf heq => hlaid ⟨f, hf, heq⟩] at h
    cases h

theorem decodeFrame_error {raw : List UInt8} {e : Raised} (hL : Correct L F)
    (h : decodeFrame L raw = .error e) : e = .protocolError ∨ TooDeep L F raw := by
  by_cases hlaid : ∃ f : Frame, f.Supported ∧ f.layout = raw
  · obtain ⟨f, hf, rfl⟩ := hlaid
    rw [decodeFrame_layout L hf, decodeBody] at h
    cases hdata : unpack L f with
    | none => simp_all
    | some data =>
      rw [hdata] at h
      cases hpayload : readPayload L f data with
      | ok payload => simp [hpayload, Except.map] at h
      | error e' =>
        simp only [hpayload, Except.map, Except.error.injEq] at h
        subst h
        refine (readPayload_error (serial_lt hf.nibbles) hpayload).imp_right fun ⟨hone, hdeep⟩ => ?_
        exact ⟨f, data, hf, rfl, hone, packs_of_unpack hL hdata, hdeep⟩
  · rw [decodeFrame_refuses L fun f hf heq => hlaid ⟨f, hf, heq⟩] at h
    cases h
    exact .inl rfl

/-- The decoder accepts exactly its grammar on the inputs that do not nest a text too deeply. -/
theorem frames_decoded (hL : Correct L F) (raw : List UInt8) :
    Exact L F raw ↔ ¬ TooDeep L F raw := by
  constructor
  · intro h hdeep
    have := h.raised _ (decodeFrame_tooDeep hL hdeep)
    cases this
  · intro hdeep
    constructor
    · intro d hd
      exact decodeFrame_ok hL hd
    · intro e he
      exact (decodeFrame_error hL he).resolve_right hdeep
    · rintro f payload hf rfl hcarries
      exact hcarries.decoded hL hf hdeep

/-! ### A frame that leaves the handler -/

/-- It reads the empty object, and gives up on more than a thousand opening brackets. -/
def brackets : Libraries where
  decompress _ _ := none
  loads text :=
    if text = [0x7b, 0x7d] then .value (.obj [])
    else if text.all (· == 0x5b) ∧ 1000 < text.length then .recursionError else .valueError

def emptyObject : Formats where
  gzip _ _ := False
  json text j := text = [0x7b, 0x7d] ∧ j = .obj []

theorem brackets_correct : Correct brackets emptyObject where
  inflate := by simp [brackets, emptyObject]
  read := by
    intro text j h
    simp only [brackets] at h
    split at h
    next heq => exact ⟨heq, (Loads.value.inj h).symm⟩
    next => split at h <;> cases h
  readable := by
    rintro text j ⟨rfl, rfl⟩
    exact .inl rfl

/-- A message of the server with event 450, without sequence and session. -/
def message (body : List UInt8) : Frame :=
  ⟨⟨9, 4, 1, 0⟩, .event none 450 "", body⟩

theorem message_supported {body : List UInt8} (h : body.length ≤ 1000000) :
    (message body).Supported where
  nibbles := rfl
  flags := Nat.le_add_left 5 11
  lead := by
    simp only [message, Lead.Fits]
    decide
  media := .inl rfl
  size := by
    rw [Frame.length_layout]
    simp [message, writeLead, writeOptional, writeSession, MAX_FRAME_BYTES]
    omega

theorem message_tooDeep {body : List UInt8} (h : body.length ≤ 1000000) :
    TooDeep brackets emptyObject (message body).layout ↔ brackets.loads body = .recursionError := by
  constructor
  · rintro ⟨f, data, hf, hlayout, -, hpacks, hdeep⟩
    obtain rfl := hf.layout_inj (message_supported h) hlayout
    obtain rfl : data = body := by simpa [Frame.Packs, message] using hpacks
    exact hdeep
  · intro hdeep
    exact ⟨message body, body, message_supported h, rfl, rfl, rfl, hdeep⟩

theorem frames_decoded_empty : Exact brackets emptyObject (message [0x7b, 0x7d]).layout := by
  refine (frames_decoded brackets_correct _).mpr ?_
  rw [message_tooDeep (by decide)]
  simp [brackets]

theorem brackets_deep {n : ℕ} (h : 1000 < n) :
    brackets.loads (List.replicate n 0x5b) = .recursionError := by
  have hne : List.replicate n (0x5b : UInt8) ≠ [0x7b, 0x7d] := by
    intro heq
    have := congrArg List.length heq
    simp only [List.length_replicate, List.length_cons, List.length_nil] at this
    omega
  simp only [brackets, if_neg hne, List.all_replicate, List.length_replicate]
  rw [if_pos]
  exact ⟨by simp, h⟩

/-- Half a million brackets end the decoder with `RecursionError`. -/
theorem brackets_escape :
    ¬ Exact brackets emptyObject (message (List.replicate 500000 0x5b)).layout := by
  have hlen : (List.replicate 500000 (0x5b : UInt8)).length ≤ 1000000 := by
    rw [List.length_replicate]
    omega
  have hdeep := (message_tooDeep hlen).mpr (brackets_deep (by omega))
  intro h
  have := h.raised _ (decodeFrame_tooDeep brackets_correct hdeep)
  cases this

end CompanionBackend.FrameDecoder
