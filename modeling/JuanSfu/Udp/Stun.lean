import JuanSfu.Sdp.SessionDescription

/-!
# `udp/stun.cpp` and `udp/ice_connection.cpp`

The classifier `isStun`, the parser that accepts less than the classifier lets
through, the check of a request's credentials, and the response the server
signs. Offsets are absolute in the datagram. A value that the length field of
its attribute carries past the datagram is a `readPastDatagram`.
-/

namespace JuanSfu

def stunHeaderSize : ℕ := 20

def kStunMagicCookie : UInt32 := 0x2112A442

def stunFingerprintXorValue : UInt32 := 0x5354554e

def kStunMessageIntegritySize : ℕ := 20

def fingerPrintAttriSize : ℕ := 8

def stunBindingResponse : UInt16 := 0x0101

def stunUsername : UInt16 := 0x0006

def stunMessageIntegrity : UInt16 := 0x0008

def stunXorMappedAddress : UInt16 := 0x0020

def stunPriority : UInt16 := 0x0024

def stunUseCandidate : UInt16 := 0x0025

def stunFingerprint : UInt16 := 0x8028

def stunIceControlling : UInt16 := 0x802A

/-- `STUN_CLASS_ENUM`. -/
inductive StunClass where
  | request
  | indication
  | successResponse
  | errorResponse
deriving DecidableEq

/-- `BINDING`, the one named value of `STUN_METHOD_ENUM`; a packet may carry
any other. -/
def binding : UInt16 := 1

/-- The attributes that are kept; a USE-CANDIDATE is stored as a
`StunAttributePriority` without a priority. -/
inductive StunAttribute where
  | username (len : UInt16) (remoteUfrag localUfrag : Str)
  | integrity (len : UInt16) (endpos : ℕ) (hmacSha1 : Bytes)
  | iceControlling (len : UInt16) (text : Bytes)
  | useCandidate (len : UInt16)
  | priority (len : UInt16) (priority : UInt32)
  | xorAddress (len : UInt16) (family : UInt8) (addr : IpAddress)
deriving DecidableEq

def StunAttribute.type : StunAttribute → UInt16
  | .username .. => stunUsername
  | .integrity .. => stunMessageIntegrity
  | .iceControlling .. => stunIceControlling
  | .useCandidate .. => stunUseCandidate
  | .priority .. => stunPriority
  | .xorAddress .. => stunXorMappedAddress

/-- `StunAttribute::len`, the length the attribute declared. -/
def StunAttribute.len : StunAttribute → UInt16
  | .username len _ _ => len
  | .integrity len _ _ => len
  | .iceControlling len _ => len
  | .useCandidate len => len
  | .priority len _ => len
  | .xorAddress len _ _ => len

/-- Of the header, the transaction id is all that is read again. -/
structure StunPacket where
  transId : Bytes
  cls : StunClass
  method : UInt16
  attris : List StunAttribute
deriving DecidableEq

namespace StunPacket

/-- The two bits compared with 0 are the top bits of the second byte:
`prefix` is the high end of a little-endian 16-bit word. -/
def isStun (data : Bytes) : Bool :=
  stunHeaderSize ≤ data.length && data.getD 0 0 < 3 &&
    getBE32 data 4 == kStunMagicCookie && data.getD 1 0 >>> (6 : UInt8) == 0

theorem length_of_isStun {data : Bytes} (h : isStun data = true) : 20 ≤ data.length := by
  unfold isStun at h
  rw [Bool.and_eq_true, Bool.and_eq_true, Bool.and_eq_true] at h
  exact of_decide_eq_true h.1.1.1

/-! ## `parse` -/

/-- What stands in the last 8 bytes is a FINGERPRINT if it starts like one. -/
def validateFingerprint (env : Env) (data : Bytes) : Bool :=
  let fingerPrint := data.length - fingerPrintAttriSize
  let type := getBE16 data fingerPrint
  let flen := getBE16 data (fingerPrint + 2)
  let fp := getBE32 data (fingerPrint + 4)
  if type ≠ stunFingerprint then true
  else if flen ≠ 4 then false
  else fp == env.crc32 (data.take fingerPrint) ^^^ stunFingerprintXorValue

/-- The length field counts the bytes after the header and ends on a word. -/
def lengthOk (data : Bytes) : Bool :=
  (getBE16 data 2).toNat + stunHeaderSize == data.length &&
    getBE16 data 2 &&& 0x03 == 0

def msgClass (data : Bytes) : StunClass :=
  match data.getD 0 0 &&& 0x01 == 1, data.getD 1 0 &&& 0x10 == 0x10 with
  | false, false => .request
  | false, true => .indication
  | true, false => .successResponse
  | true, true => .errorResponse

def msgMethod (data : Bytes) : UInt16 :=
  let msgType := getBE16 data 0
  (msgType &&& 0x000f) ||| ((msgType &&& 0x00e0) >>> (1 : UInt16)) |||
    ((msgType &&& 0x3E00) >>> (2 : UInt16))

/-- Rounded up to a word, in 16 bits. -/
def getRealLen (len : UInt16) : UInt16 :=
  if len % 4 ≠ 0 then (len / 4 + 1) * 4 else len

/-- `n` bytes of the datagram from `pos` on. -/
def readValue (data : Bytes) (pos n : ℕ) : Result Bytes :=
  if pos + n ≤ data.length then .ok (substr data pos n)
  else .error .readPastDatagram

/-- One turn of the loop: the attribute at `pos`, if it is one of those that
are kept, and where the next one starts. -/
def parseOneAttri (data : Bytes) (pos : ℕ) : Result (Option StunAttribute × ℕ) := do
  let type := getBE16 data (stunHeaderSize + pos)
  let flen := getBE16 data (stunHeaderSize + pos + 2)
  let value := stunHeaderSize + pos + 4
  let next := pos + ((getRealLen flen).toNat + 4)
  if type = stunUsername then
    let text ← readValue data value flen.toNat
    let vecs ← split text (str ":") []
    if vecs.length = 2 then
      let localUfrag ← index vecs 1
      let remoteUfrag ← index vecs 0
      return (some (.username flen remoteUfrag localUfrag), next)
    else
      return (some (.username flen [] []), next)
  else if type = stunMessageIntegrity then
    let hmacSha1 ← readValue data value flen.toNat
    return (some (.integrity flen (pos + stunHeaderSize) hmacSha1),
      pos + (flen.toNat + 4))
  else if type = stunIceControlling then
    let text ← readValue data value flen.toNat
    return (some (.iceControlling flen text), next)
  else if type = stunUseCandidate then
    return (some (.useCandidate flen), next)
  else if type = stunPriority then
    let word ← readValue data value 4
    return (some (.priority flen (getBE32 word 0)), next)
  else
    return (none, next)

/-- The loop of `parse_attri`; its counter allows 20 turns. -/
def parseAttriLoop (data : Bytes) : ℕ → ℕ → Result (List StunAttribute)
  | 0, _ => .ok []
  | counter + 1, pos =>
      if pos + 4 + stunHeaderSize < data.length then do
        let (attri, next) ← parseOneAttri data pos
        let rest ← parseAttriLoop data counter next
        return attri.toList ++ rest
      else .ok []

def parseAttri (data : Bytes) : Result (List StunAttribute) :=
  parseAttriLoop data 20 0

/-- `none` is the source's `nullptr`. -/
def parse (env : Env) (data : Bytes) : Result (Option StunPacket) :=
  if !isStun data then .ok none
  else if !lengthOk data then .ok none
  else if !validateFingerprint env data then .ok none
  else do
    let attris ← parseAttri data
    return some
      { transId := substr data 8 12
        cls := msgClass data
        method := msgMethod data
        attris }

/-- What `parse` asks of a message beyond `isStun`. -/
def accepts (env : Env) (data : Bytes) : Bool :=
  lengthOk data && validateFingerprint env data

theorem parse_eq (env : Env) {data : Bytes} (hs : isStun data = true) :
    parse env data =
      if accepts env data then do
        let attris ← parseAttri data
        return some
          { transId := substr data 8 12, cls := msgClass data, method := msgMethod data,
            attris }
      else .ok none := by
  unfold parse accepts
  cases lengthOk data <;> cases validateFingerprint env data <;> simp [hs]

theorem split_ne_null (text splitter : Str) (vecs : List Str) {e : Fault}
    (he : e.isNull) : split text splitter vecs ≠ .error e := by
  unfold split
  split
  · exact fun h => by cases h
  · rintro h
    cases h
    cases he

theorem readValue_ne_null (data : Bytes) (pos n : ℕ) {e : Fault} (he : e.isNull) :
    readValue data pos n ≠ .error e := by
  unfold readValue
  split
  · exact fun h => by cases h
  · rintro h
    cases h
    cases he

theorem parseOneAttri_ne_null (data : Bytes) (pos : ℕ) {e : Fault} (he : e.isNull) :
    parseOneAttri data pos ≠ .error e := by
  unfold parseOneAttri
  dsimp only
  split
  · refine bind_ne_error (readValue_ne_null _ _ _ he) fun text _ => ?_
    refine bind_ne_error (split_ne_null _ _ _ he) fun vecs _ => ?_
    split
    · refine bind_ne_error (index_ne_null _ _ he) fun localUfrag _ => ?_
      exact bind_ne_error (index_ne_null _ _ he) fun remoteUfrag _ => ok_ne_error _ _
    · exact ok_ne_error _ _
  · split
    · exact bind_ne_error (readValue_ne_null _ _ _ he) fun _ _ => ok_ne_error _ _
    · split
      · exact bind_ne_error (readValue_ne_null _ _ _ he) fun _ _ => ok_ne_error _ _
      · split
        · exact ok_ne_error _ _
        · split
          · exact bind_ne_error (readValue_ne_null _ _ _ he) fun _ _ => ok_ne_error _ _
          · exact ok_ne_error _ _

theorem parseAttriLoop_ne_null (data : Bytes) {e : Fault} (he : e.isNull) :
    ∀ counter pos, parseAttriLoop data counter pos ≠ .error e
  | 0, _ => ok_ne_error _ _
  | counter + 1, pos => by
      unfold parseAttriLoop
      split
      · refine bind_ne_error (parseOneAttri_ne_null data pos he) fun p _ => ?_
        exact bind_ne_error (parseAttriLoop_ne_null data he counter p.2)
          fun _ _ => ok_ne_error _ _
      · exact ok_ne_error _ _

/-- Parsing itself follows no pointer. -/
theorem parse_ne_null (env : Env) (data : Bytes) {e : Fault} (he : e.isNull) :
    parse env data ≠ .error e := by
  unfold parse
  split
  · exact ok_ne_error _ _
  · split
    · exact ok_ne_error _ _
    · split
      · exact ok_ne_error _ _
      · exact bind_ne_error (parseAttriLoop_ne_null data he 20 0) fun _ _ => ok_ne_error _ _

/-- `parse` returns null on what it does not accept, and on nothing else. -/
theorem parse_eq_none (env : Env) {data : Bytes} (hs : isStun data = true) :
    parse env data = .ok none ↔ accepts env data = false := by
  rw [parse_eq env hs]
  cases accepts env data with
  | false => simp
  | true =>
      simp only [if_true, reduceCtorEq, iff_false]
      intro h
      obtain ⟨attris, -, h⟩ := bind_ok h
      cases h

/-! ## `validate` -/

/-- `hdr->msg_len = HostToNetwork16(len)`. -/
def setMsgLen (data : Bytes) (len : UInt16) : Bytes :=
  data.take 2 ++ putBE16 len ++ data.drop 4

/-- The length under which the MESSAGE-INTEGRITY at `endpos` is computed. -/
def integrityLen (endpos : ℕ) : UInt16 :=
  UInt16.ofNat (endpos + 24 - stunHeaderSize)

/-- `memcmp` of 20 bytes with `c_str()`, which ends one byte after the value. -/
def sameIntegrity (hmac value : Bytes) : Result Bool :=
  if value.length + 1 < kStunMessageIntegritySize then .error .readPastDatagram
  else .ok (hmac == (value ++ [0]).take kStunMessageIntegritySize)

/-- The loop of `validate`: the verdict and the datagram it leaves. -/
def validateLoop (env : Env) (param : IceParameter) :
    List StunAttribute → Bytes → Result (Bool × Bytes)
  | [], data => .ok (true, data)
  | .username _ remoteUfrag _ :: attris, data =>
      if remoteUfrag ≠ param.ufrag then .ok (false, data)
      else validateLoop env param attris data
  | .integrity _ endpos hmacSha1 :: attris, data => do
      let written := setMsgLen data (integrityLen endpos)
      let hmac := env.hmacSha1 param.passwd (written.take endpos)
      if hmac.length ≠ kStunMessageIntegritySize then
        return (false, written)
      -- the early returns leave the new length in the datagram
      if !(← sameIntegrity hmac hmacSha1) then
        return (false, written)
      validateLoop env param attris (setMsgLen written (getBE16 data 2))
  | _ :: attris, data => validateLoop env param attris data

def validate (env : Env) (sp : StunPacket) (param : IceParameter) (data : Bytes) :
    Result (Bool × Bytes) :=
  validateLoop env param sp.attris data

theorem sameIntegrity_ne_null (hmac value : Bytes) {e : Fault} (he : e.isNull) :
    sameIntegrity hmac value ≠ .error e := by
  unfold sameIntegrity
  split
  · rintro h
    cases h
    cases he
  · exact ok_ne_error _ _

theorem validateLoop_ne_null (env : Env) (param : IceParameter) {e : Fault}
    (he : e.isNull) (attris : List StunAttribute) :
    ∀ data, validateLoop env param attris data ≠ .error e := by
  induction attris with
  | nil => exact fun data => ok_ne_error _ _
  | cons a attris ih =>
      intro data
      cases a with
      | username len remoteUfrag localUfrag =>
          unfold validateLoop
          split
          · exact ok_ne_error _ _
          · exact ih data
      | integrity len endpos hmacSha1 =>
          unfold validateLoop
          dsimp only
          split
          · exact ok_ne_error _ _
          · refine bind_ne_error (sameIntegrity_ne_null _ _ he) fun same _ => ?_
            split
            · exact ok_ne_error _ _
            · exact ih _
      | iceControlling => exact ih data
      | useCandidate => exact ih data
      | priority => exact ih data
      | xorAddress => exact ih data

/-- The bytes a MESSAGE-INTEGRITY at `endpos` signs: the message up to it, with
the length that ends after it. -/
def signedPrefix (data : Bytes) (endpos : ℕ) : Bytes :=
  (setMsgLen data (integrityLen endpos)).take endpos

/-- What one attribute must satisfy for `validate` to go on past it. -/
def Checks (env : Env) (param : IceParameter) (data : Bytes) : StunAttribute → Prop
  | .username _ remoteUfrag _ => remoteUfrag = param.ufrag
  | .integrity _ endpos hmacSha1 =>
      (env.hmacSha1 param.passwd (signedPrefix data endpos)).length =
          kStunMessageIntegritySize ∧
        env.hmacSha1 param.passwd (signedPrefix data endpos) =
          (hmacSha1 ++ [0]).take kStunMessageIntegritySize
  | _ => True

theorem high_byte (c d : UInt8) : ((c.toUInt16 <<< 8 ||| d.toUInt16) >>> 8).toUInt8 = c := by
  have hc := c.toNat_lt
  have hd : d.toNat >>> 8 = 0 := by
    have := d.toNat_lt
    rw [Nat.shiftRight_eq_div_pow]
    omega
  apply UInt8.toNat_inj.mp
  simp only [UInt16.toNat_toUInt8, UInt16.toNat_shiftRight, UInt16.toNat_or,
    UInt16.toNat_shiftLeft, UInt8.toNat_toUInt16]
  rw [Nat.shiftRight_or_distrib]
  simp only [UInt16.reduceToNat, Nat.reduceMod, hd, Nat.or_zero]
  rw [Nat.shiftRight_eq_div_pow, Nat.shiftLeft_eq]
  omega

theorem low_byte (c d : UInt8) : (c.toUInt16 <<< 8 ||| d.toUInt16).toUInt8 = d := by
  simp only [← UInt8.toBitVec_inj]
  simp

/-- Putting the old length back undoes the rewriting. -/
theorem setMsgLen_restore {data : Bytes} (h : 4 ≤ data.length) (len : UInt16) :
    setMsgLen (setMsgLen data len) (getBE16 data 2) = data := by
  match data, h with
  | a :: b :: c :: d :: rest, _ =>
      simpa [setMsgLen, putBE16, getBE16, high_byte] using low_byte c d

/-- A MESSAGE-INTEGRITY is compared if there is an HMAC to compare it with. -/
theorem validateLoop_integrity {env : Env} {param : IceParameter} {data : Bytes} (len : UInt16)
    (endpos : ℕ) (hmacSha1 : Bytes) (attris : List StunAttribute)
    (hsize : (env.hmacSha1 param.passwd (signedPrefix data endpos)).length =
      kStunMessageIntegritySize) :
    validateLoop env param (.integrity len endpos hmacSha1 :: attris) data = (do
      if !(← sameIntegrity (env.hmacSha1 param.passwd (signedPrefix data endpos)) hmacSha1) then
        return (false, setMsgLen data (integrityLen endpos))
      validateLoop env param attris
        (setMsgLen (setMsgLen data (integrityLen endpos)) (getBE16 data 2))) := by
  rw [validateLoop]
  exact if_neg (not_not.mpr hsize)

/-- An attribute that passes its check leaves the datagram as it was to the
next one. -/
theorem validateLoop_passes {env : Env} {param : IceParameter} {data : Bytes}
    (hlen : 4 ≤ data.length) {a : StunAttribute} (h : Checks env param data a)
    (attris : List StunAttribute) :
    validateLoop env param (a :: attris) data = validateLoop env param attris data := by
  cases a with
  | username len remoteUfrag localUfrag =>
      rw [validateLoop]
      exact if_neg (not_not.mpr h)
  | integrity len endpos hmacSha1 =>
      obtain ⟨hsize, heq⟩ := h
      have hlong : ¬ hmacSha1.length + 1 < kStunMessageIntegritySize := by
        intro hshort
        rw [heq, List.length_take, List.length_append, List.length_singleton] at hsize
        omega
      have hsame : sameIntegrity (env.hmacSha1 param.passwd (signedPrefix data endpos)) hmacSha1 =
          .ok true := by
        rw [sameIntegrity, if_neg hlong, heq, beq_self_eq_true]
      rw [validateLoop_integrity len endpos hmacSha1 attris hsize, hsame,
        setMsgLen_restore hlen]
      rfl
  | _ => rfl

/-- How the loop ends at an attribute that fails its check. -/
def stopsAt (env : Env) (param : IceParameter) (data : Bytes) :
    StunAttribute → Result (Bool × Bytes)
  | .integrity _ endpos hmacSha1 =>
      if (env.hmacSha1 param.passwd (signedPrefix data endpos)).length =
            kStunMessageIntegritySize ∧ hmacSha1.length + 1 < kStunMessageIntegritySize then
        .error .readPastDatagram
      else .ok (false, setMsgLen data (integrityLen endpos))
  | _ => .ok (false, data)

theorem validateLoop_fails {env : Env} {param : IceParameter} {data : Bytes} {a : StunAttribute}
    (h : ¬ Checks env param data a) (attris : List StunAttribute) :
    validateLoop env param (a :: attris) data = stopsAt env param data a := by
  cases a with
  | username len remoteUfrag localUfrag =>
      rw [validateLoop]
      exact if_pos h
  | integrity len endpos hmacSha1 =>
      by_cases hsize : (env.hmacSha1 param.passwd (signedPrefix data endpos)).length =
          kStunMessageIntegritySize
      · rw [validateLoop_integrity len endpos hmacSha1 attris hsize, stopsAt, sameIntegrity]
        by_cases hshort : hmacSha1.length + 1 < kStunMessageIntegritySize
        · rw [if_pos hshort, if_pos ⟨hsize, hshort⟩]
          rfl
        · have hne : env.hmacSha1 param.passwd (signedPrefix data endpos) ≠
              (hmacSha1 ++ [0]).take kStunMessageIntegritySize := fun heq => h ⟨hsize, heq⟩
          rw [if_neg hshort, if_neg fun hboth => hshort hboth.2, beq_eq_false_iff_ne.mpr hne]
          rfl
      · rw [stopsAt, if_neg fun hboth => hsize hboth.1, validateLoop]
        exact if_pos hsize
  | _ => exact absurd trivial h

/-- The loop does not end with `true` there. -/
theorem stopsAt_ne_true (env : Env) (param : IceParameter) (data data' : Bytes)
    (a : StunAttribute) : stopsAt env param data a ≠ .ok (true, data') := by
  intro h
  cases a with
  | integrity len endpos hmacSha1 =>
      rw [stopsAt] at h
      split at h
      · cases h
      · cases h
  | _ => cases h

/-- **What `validate` accepts**: every kept attribute passes its check, each
HMAC being computed over the datagram as it came in. -/
theorem validateLoop_true {env : Env} {param : IceParameter} {data data' : Bytes}
    (hlen : 4 ≤ data.length) {attris : List StunAttribute}
    (h : validateLoop env param attris data = .ok (true, data')) :
    ∀ a ∈ attris, Checks env param data a := by
  induction attris with
  | nil => simp
  | cons a attris ih =>
      by_cases hchecks : Checks env param data a
      · rw [validateLoop_passes hlen hchecks] at h
        exact List.forall_mem_cons.mpr ⟨hchecks, ih h⟩
      · rw [validateLoop_fails hchecks] at h
        exact absurd h (stopsAt_ne_true env param data data' a)

/-! ## The response -/

def getAttribute (attris : List StunAttribute) (type : UInt16) :
    Option StunAttribute :=
  attris.find? (·.type == type)

/-- `StunAttributeXorAddress::write`. -/
def writeXorAddress (len : UInt16) (family : UInt8) (addr : IpAddress) : Bytes :=
  putBE16 stunXorMappedAddress ++ putBE16 len ++ [0, family] ++
    putBE16 (addr.port ^^^ (kStunMagicCookie >>> 16).toUInt16) ++
    putBE32 (addr.ip ^^^ kStunMagicCookie)

/-- `StunAttributeIntegrity::write`. -/
def writeIntegrity (hmacSha1 : Bytes) : Bytes :=
  putBE16 stunMessageIntegrity ++ putBE16 (UInt16.ofNat kStunMessageIntegritySize) ++
    hmacSha1

/-- `StunAttributeFingerPrint::write`. -/
def writeFingerPrint (fp : UInt32) : Bytes :=
  putBE16 stunFingerprint ++ putBE16 4 ++ putBE32 fp

/-- The header is written first and its length is then set twice: for the
HMAC, and for the CRC, the final value. -/
def serializeBindResponse (env : Env) (transId : Bytes)
    (attris : List StunAttribute) (passwd : Str) : Bytes :=
  let hdr := putBE16 stunBindingResponse ++ putBE16 0 ++ putBE32 kStunMagicCookie ++
    transId
  let wr :=
    match getAttribute attris stunXorMappedAddress with
    | some (.xorAddress len family addr) => hdr ++ writeXorAddress len family addr
    | _ => hdr
  let wr := setMsgLen wr (UInt16.ofNat (wr.length - stunHeaderSize + 24))
  let hmac := env.hmacSha1 passwd wr
  let wr :=
    if hmac.length = kStunMessageIntegritySize then wr ++ writeIntegrity hmac else wr
  let wr := setMsgLen wr (UInt16.ofNat (wr.length - stunHeaderSize + 8))
  wr ++ writeFingerPrint (env.crc32 wr ^^^ stunFingerprintXorValue)

end StunPacket

/-! ## `IceConnection` -/

structure IceConnection where
  remoteAddr : IpAddress
  localAddr : BindAddress
  icePwd : Str
deriving DecidableEq

namespace IceConnection

/-- What `send_binding_response` sends to the remote address. Of the request
it reads the transaction id, through the pointer it is given. -/
def sendBindingResponse (env : Env) (c : IceConnection) (sp : Option StunPacket) :
    Result Bytes :=
  match sp with
  | none => .error .nullStunPacket
  | some sp => .ok (StunPacket.serializeBindResponse env sp.transId
      [.xorAddress 8 0x01 c.remoteAddr] c.icePwd)

/-- An established connection answers without looking at the credentials. -/
def onUdpData (env : Env) (c : IceConnection) (data : Bytes) :
    Result (Option Bytes) :=
  if !StunPacket.isStun data then .ok none
  else do
    let sp ← StunPacket.parse env data
    let reply ← c.sendBindingResponse env sp
    return some reply

end IceConnection

end JuanSfu
