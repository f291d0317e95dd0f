import JuanSfu.RtcBase.Crc32
import JuanSfu.Safety.AttributeLists
import JuanSfu.Safety.ResponsePassword
import JuanSfu.Safety.StunFingerprint
import JuanSfu.Safety.StunIntegrity

/-!
# A connectivity check succeeds

A client that has the ufrag and the password of the answer writes a binding request:
its attributes with the server's ufrag first in the USERNAME, then the signature under
the password, then the checksum. Such a request is parsed and accepted whatever else
it holds, and what comes back verifies under the same password.
-/

namespace JuanSfu

open StunPacket StunTlv

/-- An attribute padded with zeros. -/
def StunTlv.ofValue (type : UInt16) (value : Bytes) : StunTlv where
  type
  value
  padding := List.replicate ((4 - value.length % 4) % 4) 0
  padded := List.length_replicate

/-- A binding request up to its signature. -/
structure ConnectivityCheck (ufrag : Str) where
  transId : Bytes
  attris : List StunTlv
  transId_length : transId.length = 12
  sized : ∀ a ∈ attris, a.Sized
  unsigned : ∀ a ∈ attris, a.type ≠ stunMessageIntegrity
  /-- The server's name stands before the client's. -/
  named : ∀ a ∈ attris, a.type = stunUsername →
    ∃ name, a.value = ufrag ++ str ":" ++ name ∧ name ≠ [] ∧ 58 ∉ name
  few : attris.length ≤ 18
  fits : (encode attris).length + 32 < 65536

namespace ConnectivityCheck

variable {env : Env} {ufrag : Str} {check : ConnectivityCheck ufrag} {passwd : Str}

def header (check : ConnectivityCheck ufrag) (len : ℕ) : Bytes :=
  putBE16 1 ++ putBE16 (UInt16.ofNat len) ++ putBE32 kStunMagicCookie ++ check.transId

/-- What is signed; the length counts up to the end of the signature. -/
def signedPart (check : ConnectivityCheck ufrag) : Bytes :=
  check.header ((encode check.attris).length + 24) ++ encode check.attris

def integrity (check : ConnectivityCheck ufrag) (env : Env) (passwd : Str) : StunTlv :=
  .ofValue stunMessageIntegrity (env.hmacSha1 passwd check.signedPart)

/-- What the checksum is taken of; the length counts up to its end. -/
def checkedPart (check : ConnectivityCheck ufrag) (env : Env) (passwd : Str) : Bytes :=
  check.header ((encode check.attris).length + 32) ++
    encode (check.attris ++ [check.integrity env passwd])

def fingerprint (check : ConnectivityCheck ufrag) (env : Env) (passwd : Str) : StunTlv :=
  .ofValue stunFingerprint
    (putBE32 (env.crc32 (check.checkedPart env passwd) ^^^ stunFingerprintXorValue))

def allAttris (check : ConnectivityCheck ufrag) (env : Env) (passwd : Str) : List StunTlv :=
  check.attris ++ [check.integrity env passwd, check.fingerprint env passwd]

/-- The datagram that the client sends. -/
def bytes (check : ConnectivityCheck ufrag) (env : Env) (passwd : Str) : Bytes :=
  check.header ((encode check.attris).length + 32) ++ encode (check.allAttris env passwd)

/-! ## The request is a message -/

theorem length_header (check : ConnectivityCheck ufrag) (len : ℕ) :
    (check.header len).length = stunHeaderSize := by
  simp [header, putBE16, putBE32, check.transId_length, stunHeaderSize]

theorem length_fingerprint_bytes (check : ConnectivityCheck ufrag) (env : Env) (passwd : Str) :
    (check.fingerprint env passwd).bytes.length = 8 := by
  have hvalue : (check.fingerprint env passwd).value.length = 4 := rfl
  rw [length_bytes, (check.fingerprint env passwd).padded, hvalue]

/-- Nothing of the header but the length depends on what follows. -/
theorem isStun_bytes (check : ConnectivityCheck ufrag) (env : Env) (passwd : Str) :
    isStun (check.bytes env passwd) = true := by
  have hlen : 20 ≤ (check.bytes env passwd).length := by
    rw [bytes, List.length_append, length_header]
    exact Nat.le_add_right 20 _
  have hcookie : getBE32 (check.bytes env passwd) 4 = kStunMagicCookie := by
    refine getBE32_mid (putBE16 1 ++ putBE16 (UInt16.ofNat ((encode check.attris).length + 32)))
      (check.transId ++ encode (check.allAttris env passwd)) ?_ rfl
    simp only [bytes, header, List.append_assoc]
  have hfirst : (check.bytes env passwd).getD 0 0 = 0 := rfl
  have hsecond : (check.bytes env passwd).getD 1 0 = 1 := rfl
  have hbits : (1 : UInt8) >>> 6 = 0 := by decide
  unfold isStun
  rw [hcookie, hfirst, hsecond]
  simp [stunHeaderSize, hlen, hbits]

theorem type_request_lt : (1 : UInt16).toNat < 16384 := by decide

section

variable (hmac : ∀ key input, (env.hmacSha1 key input).length = kStunMessageIntegritySize)

include hmac

theorem length_integrity_bytes (check : ConnectivityCheck ufrag) (passwd : Str) :
    (check.integrity env passwd).bytes.length = 24 := by
  rw [length_bytes, (check.integrity env passwd).padded]
  show (env.hmacSha1 passwd check.signedPart).length +
    (4 - (env.hmacSha1 passwd check.signedPart).length % 4) % 4 + 4 = 24
  rw [hmac]
  rfl

theorem length_encode_allAttris (check : ConnectivityCheck ufrag) (passwd : Str) :
    (encode (check.allAttris env passwd)).length = (encode check.attris).length + 32 := by
  rw [allAttris, StunMessage.encode_append, List.length_append, encode_cons, encode_cons,
    List.length_append, List.length_append, length_integrity_bytes hmac, length_fingerprint_bytes]
  rfl

/-- The request as a message with its attributes. -/
def message (check : ConnectivityCheck ufrag) (passwd : Str) : StunMessage where
  type := 1
  transId := check.transId
  attris := check.allAttris env passwd
  type_lt := type_request_lt
  transId_length := check.transId_length
  fits := by
    rw [length_encode_allAttris hmac]
    exact check.fits

theorem header_message (check : ConnectivityCheck ufrag) (passwd : Str) :
    (message hmac check passwd).header = check.header ((encode check.attris).length + 32) := by
  show putBE16 1 ++ putBE16 (UInt16.ofNat (encode (check.allAttris env passwd)).length) ++ _ ++ _ =
    _
  rw [length_encode_allAttris hmac]
  rfl

theorem bytes_message (check : ConnectivityCheck ufrag) (passwd : Str) :
    (message hmac check passwd).bytes = check.bytes env passwd := by
  rw [StunMessage.bytes, header_message]
  rfl

theorem validateFingerprint_bytes (check : ConnectivityCheck ufrag) (passwd : Str) :
    validateFingerprint env (check.bytes env passwd) = true := by
  have hattris : (message hmac check passwd).attris =
      (check.attris ++ [check.integrity env passwd]) ++ [check.fingerprint env passwd] := by
    rw [List.append_assoc]
    rfl
  rw [← bytes_message hmac, StunMessage.validateFingerprint_last hattris rfl rfl, header_message]
  exact getBE32_mid [] [] (by simp [fingerprint, checkedPart, StunTlv.ofValue]) rfl

end

/-! ## What the server makes of it -/

theorem located_append (pos : ℕ) (attris attris' : List StunTlv) :
    located pos (attris ++ attris') =
      located pos attris ++ located (pos + (encode attris).length) attris' := by
  induction attris generalizing pos with
  | nil => rfl
  | cons a attris ih =>
      rw [List.cons_append, located, located, ih, encode_cons, List.length_append, Nat.add_assoc]
      rfl

/-- What is signed stands in front of the signature, but for the length. -/
theorem signedPrefix_bytes (check : ConnectivityCheck ufrag) (passwd : Str) :
    signedPrefix (check.bytes env passwd) (stunHeaderSize + (encode check.attris).length) =
      check.signedPart := by
  have hrest : encode (check.allAttris env passwd) = encode check.attris ++
      encode [check.integrity env passwd, check.fingerprint env passwd] :=
    StunMessage.encode_append ..
  have hlen : integrityLen (stunHeaderSize + (encode check.attris).length) =
      UInt16.ofNat ((encode check.attris).length + 24) := by
    unfold integrityLen
    congr 1
    omega
  have hset : setMsgLen (check.bytes env passwd)
      (integrityLen (stunHeaderSize + (encode check.attris).length)) =
        check.signedPart ++
          encode [check.integrity env passwd, check.fingerprint env passwd] := by
    rw [hlen, bytes, hrest, signedPart, List.append_assoc]
    rfl
  have htake : stunHeaderSize + (encode check.attris).length = check.signedPart.length := by
    rw [signedPart, List.length_append, length_header]
  rw [signedPrefix, hset, htake, List.take_left]

section

variable (hmac : ∀ key input, (env.hmacSha1 key input).length = kStunMessageIntegritySize)

include hmac

/-- Every attribute that the server keeps passes its check. -/
theorem checks_bytes (hufrag : ufrag ≠ []) (hcolon : 58 ∉ ufrag)
    (check : ConnectivityCheck ufrag) {param : IceParameter} (hparam : param.ufrag = ufrag)
    {p : ℕ × StunTlv} (hp : p ∈ located 0 (check.allAttris env param.passwd))
    {entry : StunAttribute} (h : Records p entry) :
    Checks env param (check.bytes env param.passwd) entry := by
  rw [allAttris, located_append, List.mem_append] at hp
  cases entry with
  | username len remoteUfrag localUfrag =>
      have htype : p.2.type = stunUsername := h.type.symm
      have hmem : p.2 ∈ check.attris := by
        rcases hp with hp | hp
        · exact mem_of_located hp
        · rcases List.mem_cons.mp hp with rfl | hp
          · cases htype
          · obtain rfl := List.mem_singleton.mp hp
            cases htype
      obtain ⟨name, hvalue, hname, hname'⟩ := check.named p.2 hmem htype
      cases h.username ufrag name htype hvalue hufrag hname hcolon hname'
      exact hparam.symm
  | integrity len endpos hmacSha1 =>
      have htype : p.2.type = stunMessageIntegrity := h.type.symm
      obtain rfl : p = (0 + (encode check.attris).length, check.integrity env param.passwd) := by
        rcases hp with hp | hp
        · exact absurd htype (check.unsigned _ (mem_of_located hp))
        · rcases List.mem_cons.mp hp with rfl | hp
          · rfl
          · obtain rfl := List.mem_singleton.mp hp
            cases htype
      cases h.integrity htype
      refine (checks_integrity_iff hmac (hmac _ _)).mpr ?_
      dsimp only
      rw [Nat.zero_add, signedPrefix_bytes]
  | _ => trivial

omit hmac in
theorem validateLoop_of_checks {param : IceParameter} {data : Bytes} (hlen : 4 ≤ data.length)
    {attris : List StunAttribute} (h : ∀ a ∈ attris, Checks env param data a) :
    validateLoop env param attris data = .ok (true, data) := by
  induction attris with
  | nil => rfl
  | cons a attris ih =>
      rw [List.forall_mem_cons] at h
      rw [validateLoop_passes hlen h.1, ih h.2]

/-- The entries are those of the attributes, one by one. -/
theorem exists_entries (check : ConnectivityCheck ufrag) (passwd : Str) :
    ∃ entries, parseAttri (check.bytes env passwd) = .ok entries ∧ ∀ entry ∈ entries,
      ∃ p ∈ located 0 (check.allAttris env passwd), Records p entry := by
  have hne : check.allAttris env passwd ≠ [] := by simp [allAttris]
  have hcount : (check.allAttris env passwd).length ≤ 20 := by
    rw [allAttris, List.length_append]
    exact Nat.add_le_add_right check.few 2
  have hfit : (encode (check.allAttris env passwd)).length < 65536 := by
    rw [length_encode_allAttris hmac]
    exact check.fits
  have hsized : ∀ a ∈ check.allAttris env passwd, a.Sized := by
    intro a ha
    rcases List.mem_append.mp ha with ha | ha
    · exact check.sized a ha
    · rcases List.mem_cons.mp ha with rfl | ha
      · exact ⟨fun _ => hmac _ _, nofun⟩
      · obtain rfl := List.mem_singleton.mp ha
        exact ⟨nofun, nofun⟩
  have hlast : ((check.allAttris env passwd).getLast hne).value ≠ [] := by
    simp [allAttris, fingerprint, StunTlv.ofValue, putBE32, putBE16]
  obtain ⟨entries, hentries, hrecords⟩ := parseAttri_encode
    (check.length_header ((encode check.attris).length + 32)) hne hcount hfit hsized hlast
  refine ⟨entries, hentries, fun entry hentry => ?_⟩
  obtain ⟨hlen, hget⟩ := List.forall₂_iff_get.mp hrecords
  obtain ⟨i, hi, rfl⟩ := List.getElem_of_mem hentry
  exact ⟨_, List.mem_of_mem_filter (List.getElem_mem (hlen ▸ hi)), hget i _ hi⟩

theorem parse_bytes (hufrag : ufrag ≠ []) (hcolon : 58 ∉ ufrag) (check : ConnectivityCheck ufrag)
    {param : IceParameter} (hparam : param.ufrag = ufrag) :
    ∃ sp, parse env (check.bytes env param.passwd) = .ok (some sp) ∧
      sp.transId = check.transId ∧
      sp.validate env param (check.bytes env param.passwd) =
        .ok (true, check.bytes env param.passwd) := by
  obtain ⟨entries, hentries, hrecords⟩ := exists_entries hmac check param.passwd
  have haccepts : accepts env (check.bytes env param.passwd) = true := by
    have hlengthOk := StunMessage.lengthOk_bytes (message hmac check param.passwd)
    rw [bytes_message] at hlengthOk
    rw [accepts, hlengthOk, validateFingerprint_bytes hmac]
    rfl
  have htrans : substr (check.bytes env param.passwd) 8 12 = check.transId := by
    show (check.transId ++ encode _).take 12 = check.transId
    rw [← check.transId_length, List.take_left]
  have hlen : 4 ≤ (check.bytes env param.passwd).length :=
    Nat.le_trans (by decide) (length_of_isStun (check.isStun_bytes env param.passwd))
  refine ⟨{ transId := substr (check.bytes env param.passwd) 8 12
            cls := msgClass (check.bytes env param.passwd)
            method := msgMethod (check.bytes env param.passwd)
            attris := entries }, ?_, htrans, validateLoop_of_checks hlen ?_⟩
  · rw [parse_eq env (check.isStun_bytes env param.passwd), if_pos haccepts, hentries]
    rfl
  · intro entry hentry
    obtain ⟨p, hp, hrecord⟩ := hrecords entry hentry
    exact checks_bytes hmac hufrag hcolon check hparam hp hrecord

end

end ConnectivityCheck

/-! ## What the client makes of the response -/

/-- The reply is a success response to this transaction that ends in a FINGERPRINT; it
verifies under the password, and tells the client its own address. -/
structure Answers (env : Env) (passwd : Str) (transId : Bytes) (addr : IpAddress)
    (reply : Bytes) : Prop where
  parsed : ∃ resp, parse env reply = .ok (some resp) ∧ resp.transId = transId ∧
    resp.cls = .successResponse ∧ resp.method = binding ∧
    (∃ len endpos hmacSha1, .integrity len endpos hmacSha1 ∈ resp.attris) ∧
    ∀ param : IceParameter, param.passwd = passwd →
      resp.validate env param reply = .ok (true, reply)
  fingerprint : StunMessage.EndsLike reply ∧ StunMessage.EndsRight env reply
  mapped : StunPacket.mappedAddress reply = some addr

variable {env : Env}

/-- The FINGERPRINT of a response is that of the bytes in front of it. -/
theorem StunPacket.responseBytes_fingerprint {transId hmac : Bytes} {fp : UInt32}
    (ht : transId.length = 12) (addr : IpAddress)
    (hm : hmac.length = kStunMessageIntegritySize)
    (hfp : fp = env.crc32 (StunPacket.checkedPart transId addr hmac) ^^^ stunFingerprintXorValue) :
    StunMessage.EndsLike (responseBytes transId addr hmac fp) ∧
      StunMessage.EndsRight env (responseBytes transId addr hmac fp) := by
  have hlike : StunMessage.EndsLike (responseBytes transId addr hmac fp) := by
    unfold StunMessage.EndsLike
    rw [length_responseBytes ht addr fp hm]
    exact (hasAttri_fingerprint ht addr fp hm).type_eq
  have hvalidate := validateFingerprint_responseBytes ht addr fp hm env hfp
  exact ⟨hlike, StunMessage.validateFingerprint_iff.mp hvalidate hlike⟩

theorem IceConnection.sendBindingResponse_answers
    (hmac : ∀ key input, (env.hmacSha1 key input).length = kStunMessageIntegritySize)
    {c : IceConnection} {sp : StunPacket} (ht : sp.transId.length = 12) :
    ∃ reply, c.sendBindingResponse env (some sp) = .ok reply ∧
      Answers env c.icePwd sp.transId c.remoteAddr reply := by
  have hm := hmac c.icePwd (StunPacket.signedPart sp.transId c.remoteAddr)
  refine ⟨_, congrArg Except.ok (serializeBindResponse_eq env ht c.remoteAddr c.icePwd hm),
    ?_, ?_, ?_⟩
  · refine ⟨_, parse_responseBytes ht c.remoteAddr _ hm env rfl, rfl, rfl, rfl, ?_, ?_⟩
    · exact ⟨_, _, _, List.mem_singleton_self _⟩
    · intro param hp
      exact validate_responseBytes ht c.remoteAddr _ hm env (by rw [hp]) _ _
  · exact responseBytes_fingerprint ht c.remoteAddr hm rfl
  · exact mappedAddress_responseBytes ht _ _ _

namespace RoomMember

variable {m : RoomMember} {addr : IpAddress} {data : Bytes} {sp : StunPacket}
  {param : IceParameter}

/-- A request that passes is answered, by the connection there is or by a new one. -/
theorem onStun_answers
    (hmac : ∀ key input, (env.hmacSha1 key input).length = kStunMessageIntegritySize)
    (hbuf : ∀ data, env.readAfterReset data = data) (hparam : m.iceParameter = some param)
    (hice : ∀ ice, (m.ports addr).iceConnection = some ice →
      ice.remoteAddr = addr ∧ ice.icePwd = param.passwd)
    (hp : parse env data = .ok (some sp)) (hv : sp.validate env param data = .ok (true, data)) :
    ∃ up ice reply, m.onStun env addr (m.ports addr) data =
        .ok (up, [.bindingResponse addr reply]) ∧ up.iceConnection = some ice ∧
      ice.icePwd = param.passwd ∧ Answers env param.passwd sp.transId addr reply := by
  obtain ⟨hstun, ht⟩ := parse_some hp
  cases hi : (m.ports addr).iceConnection with
  | some ice =>
      obtain ⟨haddr, hpwd⟩ := hice ice hi
      obtain ⟨reply, hreply, hanswers⟩ := ice.sendBindingResponse_answers hmac ht
      refine ⟨m.ports addr, ice, reply, ?_, hi, hpwd, haddr ▸ hpwd ▸ hanswers⟩
      have hdata : ice.onUdpData env data = .ok (some reply) := by
        rw [IceConnection.onUdpData, hstun, hp]
        show (ice.sendBindingResponse env (some sp) >>= fun reply => pure (some reply)) = _
        rw [hreply]
        rfl
      unfold onStun
      rw [hi]
      dsimp only
      rw [hdata, ← haddr]
      rfl
  | none =>
      obtain ⟨answer, content, rest, hans, hcontents, rfl⟩ := iceParameter_eq_some hparam
      obtain ⟨reply, hreply, hanswers⟩ := (⟨addr, m.addr, content.ice.passwd⟩ :
        IceConnection).sendBindingResponse_answers hmac ht
      have hcheck : checkFirst env answer (some sp) data = .ok true := by
        rw [checkFirst, hcontents]
        dsimp only
        rw [hbuf, hv]
        rfl
      have hfirst : m.onFirstStun env addr data =
          .ok (some (⟨addr, m.addr, content.ice.passwd⟩, reply)) := by
        unfold onFirstStun
        rw [hp, ok_bind, hans]
        dsimp only
        rw [hcheck, ok_bind, if_pos rfl, hcontents]
        show (IceConnection.sendBindingResponse env ⟨addr, m.addr, content.ice.passwd⟩ (some sp) >>=
          fun reply => pure (some (_, reply))) = _
        rw [hreply]
        rfl
      refine ⟨{ m.ports addr with iceConnection := some ⟨addr, m.addr, content.ice.passwd⟩ },
        ⟨addr, m.addr, content.ice.passwd⟩, reply, ?_, rfl, rfl, hanswers⟩
      unfold onStun
      rw [hi]
      dsimp only
      rw [hfirst]
      rfl

end RoomMember

namespace Server

variable {cfg : Config} {s : Server} {r : ℤ} {u : Str} {m : RoomMember}

/-- **A connectivity check succeeds**: at any time of any run, a client with the ufrag
and the password of the current answer gets a response to its request that it
accepts, from any address that has no ICE connection or one under this password; and
the address has one afterwards. -/
theorem connectivity_check_succeeds
    (hmac : ∀ key input, (env.hmacSha1 key input).length = kStunMessageIntegritySize)
    (hbuf : ∀ data, env.readAfterReset data = data) (hr : Lts.Reachable (system env cfg) s)
    (hmem : s.member r u = some m) (hrcv : m.udpReceiver.isSome) {param : IceParameter}
    (hparam : m.iceParameter = some param) (hufrag : param.ufrag ≠ []) (hcolon : 58 ∉ param.ufrag)
    {addr : IpAddress}
    (hice : ∀ ice, s.iceAt r u addr = some ice → ice.icePwd = param.passwd)
    (check : ConnectivityCheck param.ufrag) (o : Oracle) :
    ∃ s' ice reply, s.exec env (.datagram r u addr (check.bytes env param.passwd) o) =
        .ok (s', [.member r u (.bindingResponse addr reply)]) ∧
      Answers env param.passwd check.transId addr reply ∧
      s'.iceAt r u addr = some ice ∧ ice.icePwd = param.passwd := by
  obtain ⟨rcv, hrcv⟩ := Option.isSome_iff_exists.mp hrcv
  obtain ⟨sp, hp, htrans, hv⟩ := ConnectivityCheck.parse_bytes hmac hufrag hcolon check rfl
  have hiceAt : s.iceAt r u addr = (m.ports addr).iceConnection := by
    rw [iceAt, hmem, Option.bind_some]
  have hheld : ∀ ice, (m.ports addr).iceConnection = some ice →
      ice.remoteAddr = addr ∧ ice.icePwd = param.passwd := by
    intro ice hi
    exact ⟨(reachable_wellFormed hr).addressed r u m addr ice hmem hi, hice ice (hiceAt.trans hi)⟩
  obtain ⟨up, ice, reply, hstun, hnew, hpwd, hanswers⟩ :=
    RoomMember.onStun_answers hmac hbuf hparam hheld hp hv
  have hrecv : m.onUdpReceive env s.media rcv.udp addr (check.bytes env param.passwd) o =
      .ok (s.media, { m with udpHandles := m.udpHandles.insert addr up },
        [.bindingResponse addr reply]) := by
    unfold RoomMember.onUdpReceive
    dsimp only
    rw [if_pos (check.isStun_bytes env param.passwd), hstun]
    rfl
  refine ⟨_, ice, reply, exec_datagram_ok hmem hrcv hrecv, htrans ▸ hanswers, ?_, hpwd⟩
  show (((s.setMember r u _).member r u).bind fun m => (m.ports addr).iceConnection) = some ice
  rw [member_setMember, if_pos ⟨rfl, rfl⟩, Option.bind_some, RoomMember.ports_insert, if_pos rfl]
  exact hnew

/-- A request with a USERNAME and a PRIORITY. -/
def sampleCheck : ConnectivityCheck (str "ufrag") where
  transId := List.replicate 12 5
  attris := [.ofValue stunUsername (str "ufrag:client"), .ofValue stunPriority [0x6E, 0, 1, 0xFF]]
  transId_length := rfl
  sized := by decide
  unsigned := by decide
  named a ha htype := by
    rcases List.mem_cons.mp ha with rfl | ha
    · exact ⟨str "client", by decide, by decide, by decide⟩
    · obtain rfl := List.mem_singleton.mp ha
      cases htype
  few := by decide
  fits := by decide

/-- HMAC-SHA1 under the password, of the request and of the response to it. -/
def sampleHmac (key input : Bytes) : Bytes :=
  if key = str "passwd" ∧ input = sampleCheck.signedPart then
    [70, 168, 215, 201, 45, 88, 53, 168, 201, 214, 67, 189, 112, 181, 89, 181, 55, 181, 209, 45]
  else if key = str "passwd" ∧
      input = StunPacket.signedPart (List.replicate 12 5) ⟨1, 2⟩ then
    [211, 35, 101, 95, 94, 88, 21, 49, 122, 133, 91, 45, 182, 12, 100, 59, 196, 175, 187, 58]
  else List.replicate 20 0

theorem length_sampleHmac (key input : Bytes) :
    (sampleHmac key input).length = kStunMessageIntegritySize := by
  unfold sampleHmac
  split
  · rfl
  · split <;> rfl

def checksEnv : Env := { Sample.env with hmacSha1 := sampleHmac, crc32 := computeCrc32 }

theorem connectivity_check_succeeds_published :
    ∃ s s' ice reply, Lts.Reachable (system checksEnv Sample.cfg) s ∧
      s.exec checksEnv (.datagram 1 Sample.alice ⟨1, 2⟩
        (sampleCheck.bytes checksEnv (str "passwd")) {}) =
          .ok (s', [.member 1 Sample.alice (.bindingResponse ⟨1, 2⟩ reply)]) ∧
      Answers checksEnv (str "passwd") (List.replicate 12 5) ⟨1, 2⟩ reply ∧
      s'.iceAt 1 Sample.alice ⟨1, 2⟩ = some ice ∧ ice.icePwd = str "passwd" := by
  obtain ⟨s, hs, hv⟩ := exists_reachable_of_runEvents checksEnv Sample.cfg Sample.published
    (fun s => (s.member 1 Sample.alice).map fun m =>
      (m.udpReceiver.isSome, m.iceParameter, (m.ports ⟨1, 2⟩).iceConnection))
    (some (true, some ⟨str "ice-lite", str "ufrag", str "passwd"⟩, none)) (by decide +kernel)
  obtain ⟨m, hmem, hm⟩ := Option.map_eq_some_iff.mp hv
  obtain ⟨hrcv, hm⟩ := Prod.mk.inj hm
  obtain ⟨hparam, hnone⟩ := Prod.mk.inj hm
  have hice : ∀ ice, s.iceAt 1 Sample.alice ⟨1, 2⟩ = some ice → ice.icePwd = str "passwd" := by
    intro ice hi
    rw [iceAt, hmem, Option.bind_some, hnone] at hi
    cases hi
  obtain ⟨s', ice, reply, hexec, hanswers, hi, hpwd⟩ := connectivity_check_succeeds
    length_sampleHmac (fun _ => rfl) hs hmem hrcv hparam (by decide) (by decide) hice
    sampleCheck {}
  exact ⟨s, s', ice, reply, hs, hexec, hanswers, hi, hpwd⟩

end Server

end JuanSfu
