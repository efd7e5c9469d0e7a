import CompanionBackend.Base64Url
import CompanionBackend.FlatJson
import CompanionBackend.ReconnectService

/-!
# Signed tickets

A ticket is the JSON of its payload and the HMAC of that text, both as base64. Checking it reads
nothing before the signature is right. A payload's strings need no escape, and instants are
microseconds since 1970.
-/
namespace CompanionBackend.TicketCodec

open Runs FlatJson
open ReconnectService (Purpose Ticket)

/-- The errors that `verify` and `consume_voice_ticket` can meet. -/
inductive Fault
  /-- `TicketError`, with its text. -/
  | ticket (reason : String)
  | value
  | type
  | attribute
  | database
  deriving DecidableEq, Repr

def purposeName : Purpose → Text
  | .voiceCall => "voice_call_v1".toList
  | .voiceReconnect => "voice_reconnect_v1".toList

def isHex (c : Char) : Bool := "0123456789abcdef".toList.contains c

/-- The keys of the two codecs, `hmac.digest` and the `hexdigest` of SHA-256. -/
structure Crypto where
  key : Purpose → List ℕ
  hmac : List ℕ → Text → List ℕ
  hmac_length : ∀ k t, (hmac k t).length = 32
  sha256 : Text → Text
  sha256_length : ∀ t, (sha256 t).length = 64
  sha256_hex : ∀ t, ∀ c ∈ sha256 t, isHex c = true

/-- The payload, with its keys sorted. -/
def payload (t : Ticket) : List (Text × Scalar) :=
  [("call_id".toList, .str t.callId), ("device".toList, .str t.device),
    ("expires_ms".toList, .int t.expiresMs), ("jti".toList, .str t.jti),
    ("purpose".toList, .str (purposeName t.purpose)), ("user_id".toList, .int t.userId)]

/-- `_b64(json.dumps(payload))`. -/
def bodyOf (t : Ticket) : Text := Base64Url.encode ((dumps (payload t)).map Char.toNat)

def signature (C : Crypto) (p : Purpose) (body : Text) : Text :=
  Base64Url.encode (C.hmac (C.key p) body)

/-- `issue` of the codec whose purpose the ticket has. -/
def issue (C : Crypto) (t : Ticket) : Text := bodyOf t ++ '.' :: signature C t.purpose (bodyOf t)

/-- `ticket.split('.')`, when it gives two parts. -/
def splitTicket (ticket : Text) : Option (Text × Text) :=
  match ticket.span fun c => c ≠ '.' with
  | (body, '.' :: signature) => if '.' ∈ signature then none else some (body, signature)
  | _ => none

/-- `hmac.compare_digest`, which takes texts of ASCII characters only. -/
def compareDigest (a b : Text) : Except Fault Bool :=
  if a.all (fun c => c.toNat < 128) && b.all (fun c => c.toNat < 128) then .ok (a = b)
  else .error .type

/-- `json.loads(base64.urlsafe_b64decode(...))` of what `issue` has written. -/
def loadBody (body : Text) : Except Fault (List (Text × Scalar)) :=
  orRaise ((Base64Url.decode body).bind fun bytes => loads (bytes.map Char.ofNat)) .value

def field (value : List (Text × Scalar)) (key : String) : Option Scalar := value.lookup key.toList

def intField (value : List (Text × Scalar)) (key : String) : Option ℤ :=
  match field value key with
  | some (.int n) => some n
  | _ => none

def fieldNames : List Text :=
  ["purpose", "user_id", "call_id", "jti", "device", "expires_ms"].map String.toList

/-- The body of `verify`, up to its `except`. -/
def check (C : Crypto) (p : Purpose) (ticket callId deviceId : Text) (now : ℕ) :
    Except Fault (List (Text × Scalar)) := do
  require (ticket.length ≤ 2048) .value
  let (body, sig) ← orRaise (splitTicket ticket) .value
  let same ← compareDigest sig (signature C p body)
  require (same = true) .value
  let value ← loadBody body
  require ((∀ m ∈ value, m.1 ∈ fieldNames) ∧ ∀ k ∈ fieldNames, k ∈ value.map Prod.fst) .value
  require (field value "purpose" = some (.str (purposeName p)) ∧
    field value "call_id" = some (.str callId) ∧
    field value "device" = some (.str (C.sha256 deviceId))) .value
  let expires ← orRaise (intField value "expires_ms") .value
  require ((now / 1000 : ℕ) < expires) .value
  return value

/-- `verify` of the codec with the purpose. -/
def verify (C : Crypto) (p : Purpose) (ticket callId deviceId : Text) (now : ℕ) :
    Except Fault (List (Text × Scalar)) :=
  (check C p ticket callId deviceId now).mapError fun
    | .value | .type | .attribute => .ticket "ticket_invalid_or_expired"
    | e => e

/-! ### Nothing but a ticket error -/

/-- The errors that are caught. -/
def Caught (e : Fault) : Prop := e = .value ∨ e = .type ∨ e = .attribute

theorem caught_of_check {C : Crypto} {p : Purpose} {ticket callId deviceId : Text} {now : ℕ}
    {e : Fault} (h : check C p ticket callId deviceId now = .error e) : Caught e := by
  unfold check at h
  rcases bind_eq_error h with h | ⟨_, -, h⟩
  · exact Or.inl (require_eq_error h)
  rcases bind_eq_error h with h | ⟨⟨body, sig⟩, -, h⟩
  · exact Or.inl (orRaise_eq_error h)
  rcases bind_eq_error h with h | ⟨same, -, h⟩
  · unfold compareDigest at h
    split_ifs at h
    exact Or.inr (Or.inl (Except.error.inj h).symm)
  rcases bind_eq_error h with h | ⟨_, -, h⟩
  · exact Or.inl (require_eq_error h)
  rcases bind_eq_error h with h | ⟨value, -, h⟩
  · exact Or.inl (orRaise_eq_error h)
  rcases bind_eq_error h with h | ⟨_, -, h⟩
  · exact Or.inl (require_eq_error h)
  rcases bind_eq_error h with h | ⟨_, -, h⟩
  · exact Or.inl (require_eq_error h)
  rcases bind_eq_error h with h | ⟨expires, -, h⟩
  · exact Or.inl (orRaise_eq_error h)
  rcases bind_eq_error h with h | ⟨_, -, h⟩
  · exact Or.inl (require_eq_error h)
  cases h

/-- `verify` raises `TicketError` only. -/
theorem verify_error {C : Crypto} {p : Purpose} {ticket callId deviceId : Text} {now : ℕ}
    {e : Fault} (h : verify C p ticket callId deviceId now = .error e) :
    e = .ticket "ticket_invalid_or_expired" := by
  unfold verify at h
  cases hcheck : check C p ticket callId deviceId now with
  | ok value => simp [hcheck, Except.mapError] at h
  | error e' =>
    rw [hcheck] at h
    simp only [Except.mapError, Except.error.injEq] at h
    rcases caught_of_check hcheck with rfl | rfl | rfl <;> exact h.symm

/-! ### What verifies was issued -/

/-- The parts of a text that `verify` accepts. -/
theorem verify_eq_ok {C : Crypto} {p : Purpose} {ticket callId deviceId : Text} {now : ℕ}
    {value : List (Text × Scalar)} (h : verify C p ticket callId deviceId now = .ok value) :
    ∃ body, splitTicket ticket = some (body, signature C p body) ∧ loadBody body = .ok value ∧
      field value "purpose" = some (.str (purposeName p)) ∧
      field value "call_id" = some (.str callId) ∧
      field value "device" = some (.str (C.sha256 deviceId)) ∧
      ∃ expires, intField value "expires_ms" = some expires ∧ (now / 1000 : ℕ) < expires := by
  unfold verify at h
  rw [mapError_eq_ok] at h
  unfold check at h
  obtain ⟨_, -, h⟩ := bind_eq_ok.mp h
  obtain ⟨⟨body, sig⟩, hsplit, h⟩ := bind_eq_ok.mp h
  obtain ⟨same, hsame, h⟩ := bind_eq_ok.mp h
  obtain ⟨_, heq, h⟩ := bind_eq_ok.mp h
  obtain ⟨value', hload, h⟩ := bind_eq_ok.mp h
  obtain ⟨_, -, h⟩ := bind_eq_ok.mp h
  obtain ⟨_, hfields, h⟩ := bind_eq_ok.mp h
  obtain ⟨expires, hexpires, h⟩ := bind_eq_ok.mp h
  obtain ⟨_, hlater, h⟩ := bind_eq_ok.mp h
  obtain rfl : value' = value := Except.ok.inj h
  have hsig : sig = signature C p body := by
    unfold compareDigest at hsame
    split_ifs at hsame
    obtain rfl := Except.ok.inj hsame
    simpa using require_eq_ok.mp heq
  obtain ⟨hpurpose, hcall, hdevice⟩ := require_eq_ok.mp hfields
  exact ⟨body, hsig ▸ orRaise_eq_ok.mp hsplit, hload, hpurpose, hcall, hdevice, expires, orRaise_eq_ok.mp hexpires,
    require_eq_ok.mp hlater⟩

/-! ### What was issued verifies -/

/-- The strings of a ticket as uuid and digests make them, and its numbers as the database does. -/
structure WellFormed (t : Ticket) : Prop where
  callId : Plain t.callId ∧ t.callId.length ≤ 64
  jti : Plain t.jti ∧ t.jti.length ≤ 64
  device : Plain t.device ∧ t.device.length ≤ 64
  userId : t.userId < 10 ^ 10
  expires : ∃ n : ℕ, t.expiresMs = n ∧ n < 10 ^ 15

theorem plain_literal {s : String} (h : s.toList.all plain = true) : Plain s.toList :=
  List.all_eq_true.mp h

theorem plain_purposeName (p : Purpose) : Plain (purposeName p) := by
  cases p <;> exact plain_literal (by decide)

theorem plainMember_int {s : String} (n : ℤ) (h : s.toList.all plain = true) :
    PlainMember (s.toList, .int n) := ⟨plain_literal h, by rintro _ ⟨⟩⟩

theorem plainMember_str {s : String} {t : Text} (ht : Plain t) (h : s.toList.all plain = true) :
    PlainMember (s.toList, .str t) := ⟨plain_literal h, by rintro _ ⟨⟩; exact ht⟩

theorem plain_payload {t : Ticket} (h : WellFormed t) : ∀ m ∈ payload t, PlainMember m := by
  intro m hm
  simp only [payload, List.mem_cons, List.not_mem_nil, or_false] at hm
  rcases hm with rfl | rfl | rfl | rfl | rfl | rfl
  · exact plainMember_str h.callId.1 (by decide)
  · exact plainMember_str h.device.1 (by decide)
  · exact plainMember_int _ (by decide)
  · exact plainMember_str h.jti.1 (by decide)
  · exact plainMember_str (plain_purposeName _) (by decide)
  · exact plainMember_int _ (by decide)

theorem loadBody_bodyOf {t : Ticket} (h : WellFormed t) : loadBody (bodyOf t) = .ok (payload t) := by
  have hascii := dumps_ascii (plain_payload h)
  have hbytes : ∀ b ∈ (dumps (payload t)).map Char.toNat, b < 256 := by
    intro b hb
    obtain ⟨c, hc, rfl⟩ := List.mem_map.mp hb
    exact (hascii c hc).trans (by omega)
  have hchars : ((dumps (payload t)).map Char.toNat).map Char.ofNat = dumps (payload t) := by
    rw [List.map_map]
    refine (List.map_congr_left fun c _ => ?_).trans (List.map_id _)
    simp
  rw [loadBody, bodyOf, Base64Url.decode_encode hbytes]
  simp only [Option.bind_some, hchars, loads_dumps (plain_payload h), orRaise_some]

theorem length_dumps_payload {t : Ticket} (h : WellFormed t) : (dumps (payload t)).length ≤ 400 := by
  obtain ⟨n, hn, hlt⟩ := h.expires
  have huser : (Nat.toDigits 10 t.userId).length ≤ 10 :=
    (Nat.length_toDigits_le_iff (by omega) (by omega)).mpr h.userId
  have hexpires : (Nat.toDigits 10 n).length ≤ 15 :=
    (Nat.length_toDigits_le_iff (by omega) (by omega)).mpr hlt
  have hpurpose : (purposeName t.purpose).length ≤ 18 := by cases t.purpose <;> decide
  have hcall := h.callId.2
  have hjti := h.jti.2
  have hdevice := h.device.2
  have huserInt : (t.userId : ℤ) = Int.ofNat t.userId := rfl
  have hexpiresInt : (n : ℤ) = Int.ofNat n := rfl
  simp only [dumps, payload, tail, member, quote, List.flatMap_cons, List.flatMap_nil,
    List.length_cons, List.length_append, List.length_nil, hn, huserInt, hexpiresInt, Scalar.dumps,
    String.length_toList]
  have hkeys : "call_id".length = 7 ∧ "device".length = 6 ∧ "expires_ms".length = 10 ∧
      "jti".length = 3 ∧ "purpose".length = 7 ∧ "user_id".length = 7 := by decide
  obtain ⟨hcallKey, hdeviceKey, hexpiresKey, hjtiKey, hpurposeKey, huserKey⟩ := hkeys
  omega

theorem length_issue {C : Crypto} {t : Ticket} (h : WellFormed t) :
    (issue C t).length ≤ 2048 := by
  have hdumps := length_dumps_payload h
  simp only [issue, bodyOf, signature, List.length_append, List.length_cons,
    Base64Url.length_encode, List.length_map, C.hmac_length]
  omega

theorem dot_not_mem (bytes : List ℕ) : '.' ∉ Base64Url.encode bytes := by
  intro hmem
  have halphabet : '.' ∉ Base64Url.alphabet := by decide
  exact halphabet (Base64Url.encode_mem hmem)

theorem splitTicket_issue (C : Crypto) (t : Ticket) :
    splitTicket (issue C t) = some (bodyOf t, signature C t.purpose (bodyOf t)) := by
  have hspan : (issue C t).span (fun c => decide (c ≠ '.')) =
      (bodyOf t, '.' :: signature C t.purpose (bodyOf t)) := by
    refine span_append (fun c hc => ?_) (by simp)
    refine decide_eq_true ?_
    rintro rfl
    exact dot_not_mem _ hc
  have hdot : '.' ∉ signature C t.purpose (bodyOf t) := dot_not_mem _
  simp only [splitTicket, hspan, if_neg hdot]

theorem signature_ascii (C : Crypto) (p : Purpose) (body : Text) :
    (signature C p body).all (fun c => decide (c.toNat < 128)) = true := by
  refine List.all_eq_true.mpr fun c hc => ?_
  have hall : Base64Url.alphabet.all (fun c => decide (c.toNat < 128)) = true := by decide
  exact List.all_eq_true.mp hall c (Base64Url.encode_mem hc)

/-- The names of the fields, in the order of the payload. -/
theorem names_payload (t : Ticket) : (∀ m ∈ payload t, m.1 ∈ fieldNames) ∧
    ∀ k ∈ fieldNames, k ∈ (payload t).map Prod.fst := by
  have hkeys : (payload t).map Prod.fst =
      ["call_id", "device", "expires_ms", "jti", "purpose", "user_id"].map String.toList := rfl
  refine ⟨fun m hm => ?_, ?_⟩
  · have hmem := List.mem_map_of_mem (f := Prod.fst) hm
    rw [hkeys] at hmem
    have hall : ∀ k ∈ ["call_id", "device", "expires_ms", "jti", "purpose", "user_id"].map
        String.toList, k ∈ fieldNames := by decide
    exact hall _ hmem
  · rw [hkeys]
    decide

section Fields

variable (t : Ticket)

theorem field_purpose : field (payload t) "purpose" = some (.str (purposeName t.purpose)) := rfl

theorem field_callId : field (payload t) "call_id" = some (.str t.callId) := rfl

theorem field_device : field (payload t) "device" = some (.str t.device) := rfl

theorem field_jti : field (payload t) "jti" = some (.str t.jti) := rfl

theorem intField_userId : intField (payload t) "user_id" = some (t.userId : ℤ) := rfl

theorem intField_expires : intField (payload t) "expires_ms" = some t.expiresMs := rfl

end Fields

/-- A ticket verifies for its call and device until it expires. -/
theorem verify_issue {C : Crypto} {t : Ticket} {deviceId : Text} {now : ℕ} (h : WellFormed t)
    (hdevice : t.device = C.sha256 deviceId) (hnow : (now / 1000 : ℕ) < t.expiresMs) :
    verify C t.purpose (issue C t) t.callId deviceId now = .ok (payload t) := by
  have hsame : compareDigest (signature C t.purpose (bodyOf t)) (signature C t.purpose (bodyOf t)) =
      .ok true := by
    simp [compareDigest, signature_ascii]
  have hfields : field (payload t) "purpose" = some (.str (purposeName t.purpose)) ∧
      field (payload t) "call_id" = some (.str t.callId) ∧
      field (payload t) "device" = some (.str (C.sha256 deviceId)) :=
    ⟨field_purpose t, field_callId t, by rw [field_device, hdevice]⟩
  unfold verify
  rw [mapError_eq_ok]
  unfold check
  rw [require_of_pos (length_issue h), ok_bind, splitTicket_issue, orRaise_some, ok_bind]
  dsimp only
  rw [hsame, ok_bind, require_of_pos rfl, ok_bind, loadBody_bodyOf h, ok_bind,
    require_of_pos (names_payload t), ok_bind, require_of_pos hfields, ok_bind, intField_expires,
    orRaise_some, ok_bind, require_of_pos hnow, ok_bind]
  rfl

theorem splitTicket_eq_some {ticket body sig : Text} (h : splitTicket ticket = some (body, sig)) :
    ticket = body ++ '.' :: sig := by
  unfold splitTicket at h
  split at h
  · rename_i first rest hspan
    split_ifs at h
    obtain ⟨rfl, rfl⟩ := Prod.mk.inj (Option.some.inj h)
    rw [List.span_eq_takeWhile_dropWhile] at hspan
    obtain ⟨hfirst, hrest⟩ := Prod.mk.inj hspan
    rw [← hfirst, ← hrest, List.takeWhile_append_dropWhile]
  · cases h

/-- Nobody else has the keys: a text with a right signature is one that a codec with this key has
signed. -/
def Unforged (C : Crypto) (p : Purpose) (signed : List Ticket) (ticket : Text) : Prop :=
  match splitTicket ticket with
  | some (body, sig) =>
    sig = signature C p body → ∃ t ∈ signed, C.key t.purpose = C.key p ∧ bodyOf t = body
  | none => True

instance (C : Crypto) (p : Purpose) (signed : List Ticket) (ticket : Text) :
    Decidable (Unforged C p signed ticket) := by
  unfold Unforged
  split <;> infer_instance

theorem purposeName_inj {p q : Purpose} (h : purposeName p = purposeName q) : p = q := by
  revert h
  cases p <;> cases q <;> decide

/-- What verifies has been issued, for this purpose, call and device, and has not expired. -/
theorem issued_of_verify {C : Crypto} {p : Purpose} {signed : List Ticket}
    {ticket callId deviceId : Text} {now : ℕ} {value : List (Text × Scalar)}
    (hsigned : ∀ t ∈ signed, WellFormed t) (hticket : Unforged C p signed ticket)
    (h : verify C p ticket callId deviceId now = .ok value) :
    ∃ t ∈ signed, value = payload t ∧ ticket = issue C t ∧ t.purpose = p ∧ t.callId = callId ∧
      t.device = C.sha256 deviceId ∧ (now / 1000 : ℕ) < t.expiresMs := by
  obtain ⟨body, hsplit, hload, hpurpose, hcall, hdevice, expires, hexpires, hlater⟩ :=
    verify_eq_ok h
  unfold Unforged at hticket
  rw [hsplit] at hticket
  obtain ⟨t, ht, -, rfl⟩ := hticket rfl
  obtain rfl : payload t = value :=
    Except.ok.inj ((loadBody_bodyOf (hsigned t ht)).symm.trans hload)
  have hp : t.purpose = p := by
    rw [field_purpose, Option.some.injEq, Scalar.str.injEq] at hpurpose
    exact purposeName_inj hpurpose
  rw [field_callId, Option.some.injEq, Scalar.str.injEq] at hcall
  rw [field_device, Option.some.injEq, Scalar.str.injEq] at hdevice
  rw [intField_expires, Option.some.injEq] at hexpires
  refine ⟨t, ht, rfl, ?_, hp, hcall, hdevice, hexpires ▸ hlater⟩
  rw [issue, hp]
  exact splitTicket_eq_some hsplit

end CompanionBackend.TicketCodec
