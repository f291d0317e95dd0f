import JuanSfu.System
import JuanSfu.Udp.StunAttributes

/-!
# What the server's own decoder makes of a binding response

The response is written front to back, its length field set twice on the way;
the decoder reads at absolute offsets and sets the length field once more to
check the HMAC. Both are brought to one form here, header and attributes in a
row, and compared attribute by attribute.
-/

namespace JuanSfu

namespace StunPacket

/-! ## The response -/

/-- The header of a binding response. -/
def responseHeader (len : UInt16) (transId : Bytes) : Bytes :=
  putBE16 stunBindingResponse ++ putBE16 len ++ putBE32 kStunMagicCookie ++ transId

theorem length_responseHeader {transId : Bytes} (h : transId.length = 12) (len : UInt16) :
    (responseHeader len transId).length = stunHeaderSize := by
  simp [responseHeader, putBE16, putBE32, h, stunHeaderSize]

/-- Rewriting the length field of a response. -/
theorem setMsgLen_responseHeader (len len' : UInt16) (transId rest : Bytes) :
    setMsgLen (responseHeader len transId ++ rest) len' = responseHeader len' transId ++ rest := by
  rfl

/-- The value of the XOR-MAPPED-ADDRESS of a response. -/
def xorValue (addr : IpAddress) : Bytes :=
  ([0, 0x01] : Bytes) ++ putBE16 (addr.port ^^^ (kStunMagicCookie >>> 16).toUInt16) ++
    putBE32 (addr.ip ^^^ kStunMagicCookie)

/-- The bytes the HMAC of a response is computed over. -/
def signedPart (transId : Bytes) (addr : IpAddress) : Bytes :=
  responseHeader 36 transId ++ attriBytes stunXorMappedAddress 8 (xorValue addr)

/-- The bytes the CRC of a response is computed over. -/
def checkedPart (transId : Bytes) (addr : IpAddress) (hmac : Bytes) : Bytes :=
  responseHeader 44 transId ++ attriBytes stunXorMappedAddress 8 (xorValue addr) ++
    attriBytes stunMessageIntegrity 20 hmac

/-- **The response as header and attributes**: after both rewritings the length
field is 44, while the HMAC was computed under 36. -/
theorem serializeBindResponse_eq (env : Env) {transId : Bytes} (ht : transId.length = 12)
    (addr : IpAddress) (passwd : Str)
    (hmac : (env.hmacSha1 passwd (signedPart transId addr)).length = kStunMessageIntegritySize) :
    serializeBindResponse env transId [.xorAddress 8 0x01 addr] passwd =
      checkedPart transId addr (env.hmacSha1 passwd (signedPart transId addr)) ++
        attriBytes stunFingerprint 4
          (putBE32 (env.crc32 (checkedPart transId addr
            (env.hmacSha1 passwd (signedPart transId addr))) ^^^ stunFingerprintXorValue)) := by
  have hxor : writeXorAddress 8 0x01 addr =
      attriBytes stunXorMappedAddress 8 (xorValue addr) := by
    simp only [writeXorAddress, attriBytes, xorValue, List.append_assoc]
  have hlen : ∀ len, (responseHeader len transId ++
      attriBytes stunXorMappedAddress 8 (xorValue addr)).length = 32 := by
    intro len
    rw [List.length_append, length_responseHeader ht, length_attriBytes]
    rfl
  have hhdr : putBE16 stunBindingResponse ++ putBE16 0 ++ putBE32 kStunMagicCookie ++ transId =
      responseHeader 0 transId := rfl
  have hsigned : setMsgLen (responseHeader 0 transId ++
      attriBytes stunXorMappedAddress 8 (xorValue addr)) (UInt16.ofNat (32 - stunHeaderSize + 24)) =
      signedPart transId addr := setMsgLen_responseHeader ..
  have hwritten : ∀ hmac : Bytes, hmac.length = kStunMessageIntegritySize →
      setMsgLen (signedPart transId addr ++ writeIntegrity hmac)
        (UInt16.ofNat ((signedPart transId addr ++ writeIntegrity hmac).length -
          stunHeaderSize + 8)) = checkedPart transId addr hmac := by
    intro hmac h
    have htotal : (signedPart transId addr ++ writeIntegrity hmac).length = 56 := by
      rw [List.length_append, signedPart, hlen]
      simp [writeIntegrity, putBE16, h, kStunMessageIntegritySize]
    rw [htotal, signedPart, List.append_assoc, setMsgLen_responseHeader, ← List.append_assoc]
    rfl
  have hattri : getAttribute [.xorAddress 8 0x01 addr] stunXorMappedAddress =
      some (.xorAddress 8 0x01 addr) := rfl
  simp only [serializeBindResponse, hattri, hhdr, hxor, hlen, hsigned]
  rw [if_pos hmac, hwritten _ hmac]
  rfl

/-- A response as the decoder gets it: what the two checksums came out as. -/
def responseBytes (transId : Bytes) (addr : IpAddress) (hmac : Bytes) (fp : UInt32) : Bytes :=
  checkedPart transId addr hmac ++ attriBytes stunFingerprint 4 (putBE32 fp)

section Response

variable {transId : Bytes} (ht : transId.length = 12) (addr : IpAddress) (hmac : Bytes)
  (fp : UInt32)

include ht

theorem hasAttri_xorAddress :
    HasAttri (responseBytes transId addr hmac fp) 0 stunXorMappedAddress 8 (xorValue addr) := by
  refine ⟨responseHeader 44 transId, attriBytes stunMessageIntegrity 20 hmac ++
    attriBytes stunFingerprint 4 (putBE32 fp), ?_, length_responseHeader ht 44⟩
  simp only [responseBytes, checkedPart, List.append_assoc]

theorem hasAttri_integrity :
    HasAttri (responseBytes transId addr hmac fp) 12 stunMessageIntegrity 20 hmac := by
  refine ⟨responseHeader 44 transId ++ attriBytes stunXorMappedAddress 8 (xorValue addr),
    attriBytes stunFingerprint 4 (putBE32 fp), ?_, ?_⟩
  · simp only [responseBytes, checkedPart, List.append_assoc]
  · rw [List.length_append, length_responseHeader ht]
    rfl

variable {hmac} (hm : hmac.length = kStunMessageIntegritySize)

include hm

theorem length_checkedPart : (checkedPart transId addr hmac).length = 56 := by
  rw [checkedPart, List.length_append, List.length_append, length_responseHeader ht,
    length_attriBytes, length_attriBytes, hm]
  rfl

theorem length_responseBytes : (responseBytes transId addr hmac fp).length = 64 := by
  rw [responseBytes, List.length_append, length_checkedPart ht addr hm, length_attriBytes]
  rfl

theorem hasAttri_fingerprint :
    HasAttri (responseBytes transId addr hmac fp) 36 stunFingerprint 4 (putBE32 fp) :=
  ⟨checkedPart transId addr hmac, [], by rw [List.append_nil, responseBytes],
    length_checkedPart ht addr hm⟩

/-- Of the three attributes the parser keeps the MESSAGE-INTEGRITY. -/
theorem parseAttri_responseBytes :
    parseAttri (responseBytes transId addr hmac fp) = .ok [.integrity 20 32 hmac] := by
  have hne : hmac ≠ [] := by
    rintro rfl
    cases hm
  have hend : parseAttriLoop (responseBytes transId addr hmac fp) 17 44 = .ok [] := by
    rw [parseAttriLoop, length_responseBytes ht addr fp hm, if_neg (by decide)]
  have hfp := (hasAttri_fingerprint ht addr fp hm).skip (List.cons_ne_nil _ _) rfl 17
    (by decide)
  have hrest : parseAttriLoop (responseBytes transId addr hmac fp) 18
      (12 + (hmac.length + 4)) = .ok [] := by
    rw [hm]
    exact hfp.trans hend
  have hmi := (hasAttri_integrity ht addr hmac fp).integrity hne hm.symm 18 hrest
  have hxor := (hasAttri_xorAddress ht addr hmac fp).skip (List.cons_ne_nil _ _) rfl 19
    (by decide)
  exact hxor.trans hmi

omit ht hm in
/-- The first eight bytes of a response are the same for all. -/
theorem exists_responseBytes (transId : Bytes) (addr : IpAddress) (hmac : Bytes) (fp : UInt32) :
    ∃ rest, responseBytes transId addr hmac fp =
    [0x01, 0x01, 0x00, 44, 0x21, 0x12, 0xA4, 0x42] ++ (transId ++ rest) :=
  ⟨_, by
    simp only [responseBytes, checkedPart, responseHeader, List.append_assoc]
    rfl⟩

omit ht hm in
theorem msgLen_responseBytes (transId : Bytes) (addr : IpAddress) (hmac : Bytes)
    (fp : UInt32) : getBE16 (responseBytes transId addr hmac fp) 2 = 44 := by
  obtain ⟨rest, h⟩ := exists_responseBytes transId addr hmac fp
  exact getBE16_mid [0x01, 0x01] ([0x21, 0x12, 0xA4, 0x42] ++ (transId ++ rest)) h rfl

theorem isStun_responseBytes : isStun (responseBytes transId addr hmac fp) = true := by
  obtain ⟨rest, h⟩ := exists_responseBytes transId addr hmac fp
  have hcookie : getBE32 (responseBytes transId addr hmac fp) 4 = kStunMagicCookie :=
    getBE32_mid [0x01, 0x01, 0x00, 44] (transId ++ rest) h rfl
  have hbits : (1 : UInt8) >>> 6 = 0 := by decide
  unfold isStun
  rw [length_responseBytes ht addr fp hm, hcookie, h]
  simp [stunHeaderSize, hbits]

theorem lengthOk_responseBytes : lengthOk (responseBytes transId addr hmac fp) = true := by
  unfold lengthOk
  rw [length_responseBytes ht addr fp hm, msgLen_responseBytes]
  rfl

omit hm in
theorem header_responseBytes (hmac : Bytes) (fp : UInt32) :
    substr (responseBytes transId addr hmac fp) 8 12 = transId ∧
      msgClass (responseBytes transId addr hmac fp) = .successResponse ∧
      msgMethod (responseBytes transId addr hmac fp) = binding := by
  obtain ⟨rest, h⟩ := exists_responseBytes transId addr hmac fp
  refine ⟨?_, ?_, ?_⟩
  · rw [h, ← ht]
    exact List.take_left
  · have hbits : (1 : UInt8) &&& 16 = 0 := by decide
    rw [h]
    simp [msgClass, hbits]
  · have htype : getBE16 (responseBytes transId addr hmac fp) 0 = 0x0101 :=
      getBE16_mid [] ([0x00, 44, 0x21, 0x12, 0xA4, 0x42] ++ (transId ++ rest)) h rfl
    unfold msgMethod
    rw [htype]
    rfl

/-- The decoder computes the CRC over the bytes the writer computed it over. -/
theorem validateFingerprint_responseBytes (env : Env)
    (hfp : fp = env.crc32 (checkedPart transId addr hmac) ^^^ stunFingerprintXorValue) :
    validateFingerprint env (responseBytes transId addr hmac fp) = true := by
  have hattri := hasAttri_fingerprint ht addr fp hm
  have hchecked := length_checkedPart ht addr hm
  have hpos : (responseBytes transId addr hmac fp).length - fingerPrintAttriSize =
      stunHeaderSize + 36 := by
    rw [length_responseBytes ht addr fp hm]
    rfl
  have hvalue : getBE32 (responseBytes transId addr hmac fp) (stunHeaderSize + 36 + 4) = fp := by
    have h := getBE32_append (checkedPart transId addr hmac)
      (attriBytes stunFingerprint 4 (putBE32 fp)) 4
    rw [hchecked] at h
    exact h.trans (getBE32_putBE32 fp [])
  have htake : (responseBytes transId addr hmac fp).take (stunHeaderSize + 36) =
      checkedPart transId addr hmac := by
    rw [responseBytes, show stunHeaderSize + 36 = 56 from rfl, ← hchecked, List.take_left]
  unfold validateFingerprint
  dsimp only
  rw [hpos, hattri.type_eq, hattri.len_eq, hvalue, htake, hfp]
  simp

/-- **What the decoder makes of a response.** -/
theorem parse_responseBytes (env : Env)
    (hfp : fp = env.crc32 (checkedPart transId addr hmac) ^^^ stunFingerprintXorValue) :
    parse env (responseBytes transId addr hmac fp) =
      .ok (some ⟨transId, .successResponse, binding, [.integrity 20 32 hmac]⟩) := by
  have haccepts : accepts env (responseBytes transId addr hmac fp) = true := by
    rw [accepts, lengthOk_responseBytes ht addr fp hm,
      validateFingerprint_responseBytes ht addr fp hm env hfp]
    rfl
  obtain ⟨htrans, hcls, hmethod⟩ := header_responseBytes ht addr hmac fp
  rw [parse_eq env (isStun_responseBytes ht addr fp hm), if_pos haccepts,
    parseAttri_responseBytes ht addr fp hm, htrans, hcls, hmethod]
  rfl

/-- The decoder computes the HMAC over the bytes the writer computed it over. -/
theorem validate_responseBytes (env : Env) {param : IceParameter}
    (hhmac : hmac = env.hmacSha1 param.passwd (signedPart transId addr)) (cls : StunClass)
    (method : UInt16) :
    validate env ⟨transId, cls, method, [.integrity 20 32 hmac]⟩ param
      (responseBytes transId addr hmac fp) =
        .ok (true, responseBytes transId addr hmac fp) := by
  have hlen := length_responseBytes ht addr fp hm
  -- the length field under which the response was signed is put back
  have hsigned : (setMsgLen (responseBytes transId addr hmac fp) (integrityLen 32)).take 32 =
      signedPart transId addr := by
    have hpart : (signedPart transId addr).length = 32 := by
      rw [signedPart, List.length_append, length_responseHeader ht, length_attriBytes]
      rfl
    rw [responseBytes, checkedPart, List.append_assoc, List.append_assoc,
      setMsgLen_responseHeader, ← List.append_assoc]
    rw [show integrityLen 32 = 36 from rfl, ← signedPart, ← hpart, List.take_left]
  have hsame : sameIntegrity hmac hmac = .ok true := by
    unfold sameIntegrity
    rw [hm, if_neg (by decide), List.take_append_of_le_length (Nat.le_of_eq hm.symm), ← hm,
      List.take_length, beq_self_eq_true]
  have hlong : 4 ≤ (responseBytes transId addr hmac fp).length := by omega
  have hrestore := setMsgLen_restore hlong (integrityLen 32)
  unfold validate validateLoop
  dsimp only
  rw [hsigned, ← hhmac, if_neg (not_not.mpr hm), hsame, hrestore]
  rfl

end Response

/-! ## The address in a response -/

/-- Where the value of the first attribute of a type begins, as a client that
walks over the attributes finds it. -/
def findAttri (data : Bytes) (type : UInt16) : ℕ → ℕ → Option ℕ
  | 0, _ => none
  | counter + 1, pos =>
      if pos + 4 + stunHeaderSize < data.length then
        if getBE16 data (stunHeaderSize + pos) = type then some (stunHeaderSize + pos + 4)
        else
          findAttri data type counter
            (pos + ((getRealLen (getBE16 data (stunHeaderSize + pos + 2))).toNat + 4))
      else none

/-- The IPv4 address of the XOR-MAPPED-ADDRESS, port and address each xored with
the magic cookie. -/
def mappedAddress (data : Bytes) : Option IpAddress :=
  (findAttri data stunXorMappedAddress 20 0).bind fun value =>
    if data.getD (value + 1) 0 = 0x01 then
      some
        { port := getBE16 data (value + 2) ^^^ (kStunMagicCookie >>> 16).toUInt16
          ip := getBE32 data (value + 4) ^^^ kStunMagicCookie }
    else none

theorem mappedAddress_responseBytes {transId : Bytes} (ht : transId.length = 12)
    (addr : IpAddress) (hmac : Bytes) (fp : UInt32) :
    mappedAddress (responseBytes transId addr hmac fp) = some addr := by
  have hattri := hasAttri_xorAddress ht addr hmac fp
  have hfind : findAttri (responseBytes transId addr hmac fp) stunXorMappedAddress 20 0 =
      some (stunHeaderSize + 4) := by
    rw [findAttri, if_pos (hattri.lt_length (List.cons_ne_nil _ _)), hattri.type_eq, if_pos rfl]
  have hhdr : (responseHeader 44 transId).length = stunHeaderSize := length_responseHeader ht 44
  have hdata : responseBytes transId addr hmac fp = responseHeader 44 transId ++
      (attriBytes stunXorMappedAddress 8 (xorValue addr) ++
        (attriBytes stunMessageIntegrity 20 hmac ++
          attriBytes stunFingerprint 4 (putBE32 fp))) := by
    simp only [responseBytes, checkedPart, List.append_assoc]
  generalize attriBytes stunMessageIntegrity 20 hmac ++ attriBytes stunFingerprint 4 (putBE32 fp) =
    rest at hdata
  have hfamily : (responseBytes transId addr hmac fp).getD (stunHeaderSize + 5) 0 = 0x01 := by
    rw [hdata, ← hhdr, List.getD_eq_getElem?_getD,
      List.getElem?_append_right (Nat.le_add_right _ _), Nat.add_sub_cancel_left]
    rfl
  have hport : getBE16 (responseBytes transId addr hmac fp) (stunHeaderSize + 6) =
      addr.port ^^^ (kStunMagicCookie >>> 16).toUInt16 := by
    refine getBE16_mid (responseHeader 44 transId ++ (putBE16 stunXorMappedAddress ++
      putBE16 8 ++ ([0, 0x01] : Bytes))) (putBE32 (addr.ip ^^^ kStunMagicCookie) ++ rest) ?_ ?_
    · simp only [hdata, attriBytes, xorValue, List.append_assoc]
    · rw [List.length_append, hhdr]
      rfl
  have hip : getBE32 (responseBytes transId addr hmac fp) (stunHeaderSize + 8) =
      addr.ip ^^^ kStunMagicCookie := by
    refine getBE32_mid (responseHeader 44 transId ++ (putBE16 stunXorMappedAddress ++
      putBE16 8 ++ ([0, 0x01] : Bytes) ++
      putBE16 (addr.port ^^^ (kStunMagicCookie >>> 16).toUInt16))) rest ?_ ?_
    · simp only [hdata, attriBytes, xorValue, List.append_assoc]
    · rw [List.length_append, hhdr]
      rfl
  unfold mappedAddress
  rw [hfind, Option.bind_some, if_pos hfamily, Nat.add_assoc, Nat.add_assoc, hport, hip,
    UInt16.xor_assoc, UInt32.xor_assoc, UInt16.xor_self, UInt32.xor_self, UInt16.xor_zero,
    UInt32.xor_zero]

end StunPacket

/-- **Encoder and decoder agree**: for every request with a 12-byte transaction
id, every remote address and every password, the server accepts its own
response and reads from it what was put in. -/
theorem IceConnection.sendBindingResponse_decoded (env : Env)
    (hmac : ∀ key input, (env.hmacSha1 key input).length = kStunMessageIntegritySize)
    (c : IceConnection) {sp : StunPacket} (ht : sp.transId.length = 12) :
    ∃ data, c.sendBindingResponse env (some sp) = .ok data ∧
      StunPacket.isStun data = true ∧
      (getBE16 data 2).toNat = data.length - stunHeaderSize ∧
      (getBE16 data 2).toNat % 4 = 0 ∧
      StunPacket.validateFingerprint env data = true ∧
      (∃ resp, StunPacket.parse env data = .ok (some resp) ∧
        resp.transId = sp.transId ∧ resp.cls = .successResponse ∧ resp.method = binding ∧
        ∀ param : IceParameter, param.passwd = c.icePwd →
          StunPacket.validate env resp param data = .ok (true, data)) ∧
      StunPacket.mappedAddress data = some c.remoteAddr := by
  have hm := hmac c.icePwd (StunPacket.signedPart sp.transId c.remoteAddr)
  have hsend : c.sendBindingResponse env (some sp) = .ok (StunPacket.responseBytes sp.transId
      c.remoteAddr _ _) :=
    congrArg Except.ok (StunPacket.serializeBindResponse_eq env ht c.remoteAddr c.icePwd hm)
  have hfp := StunPacket.validateFingerprint_responseBytes ht c.remoteAddr _ hm env rfl
  have hparse := StunPacket.parse_responseBytes ht c.remoteAddr _ hm env rfl
  generalize env.crc32 _ ^^^ _ = fp at hsend hfp hparse
  have hstun := StunPacket.isStun_responseBytes ht c.remoteAddr fp hm
  have hlen := StunPacket.length_responseBytes ht c.remoteAddr fp hm
  have hfield := StunPacket.msgLen_responseBytes sp.transId c.remoteAddr
    (env.hmacSha1 c.icePwd (StunPacket.signedPart sp.transId c.remoteAddr)) fp
  refine ⟨_, hsend, hstun, ?_, ?_, hfp, ⟨_, hparse, rfl, rfl, rfl, ?_⟩,
    StunPacket.mappedAddress_responseBytes ht _ _ _⟩
  · rw [hlen, hfield]
    rfl
  · rw [hfield]
    rfl
  · intro param hp
    exact StunPacket.validate_responseBytes ht c.remoteAddr fp hm env (by rw [hp]) _ _

theorem IceConnection.sendBindingResponse_decoded_local :
    ∃ data, (⟨⟨0x7F000001, 9⟩, ⟨str "0.0.0.0", 7000⟩, str "passwd"⟩ :
        IceConnection).sendBindingResponse Sample.env
          (some ⟨List.replicate 12 5, .request, binding, []⟩) = .ok data ∧
      StunPacket.isStun data = true ∧
      (getBE16 data 2).toNat = data.length - stunHeaderSize ∧
      (getBE16 data 2).toNat % 4 = 0 ∧
      StunPacket.validateFingerprint Sample.env data = true ∧
      (∃ resp, StunPacket.parse Sample.env data = .ok (some resp) ∧
        resp.transId = List.replicate 12 5 ∧ resp.cls = .successResponse ∧
        resp.method = binding ∧
        ∀ param : IceParameter, param.passwd = str "passwd" →
          StunPacket.validate Sample.env resp param data = .ok (true, data)) ∧
      StunPacket.mappedAddress data = some ⟨0x7F000001, 9⟩ :=
  IceConnection.sendBindingResponse_decoded Sample.env (fun _ _ => rfl) _ rfl

end JuanSfu
