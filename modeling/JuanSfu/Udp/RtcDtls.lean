import JuanSfu.Sdp.SslFingerprint
import JuanSfu.Utils.SUtil

/-!
# `udp/rtc_dtls.cpp`

`RtcDtls` frames the incoming records and follows the handshake by the events
of the TLS adapter. The adapter is driven from outside the repository: what it
does while it is being called is a list of `AdapterAct`s, executed in order.
-/

namespace JuanSfu

/-- `rtc::GetSrtpKeyAndSaltLengths`. -/
def getSrtpKeyAndSaltLengths (cryptoSuite : ℤ) : Option (ℕ × ℕ) :=
  if cryptoSuite = 1 ∨ cryptoSuite = 2 then some (16, 14)
  else if cryptoSuite = 7 then some (16, 12)
  else if cryptoSuite = 8 then some (32, 12)
  else none

/-- What a completed handshake has agreed on: a suite the program asked for
and the exported material, two keys and two salts long. -/
structure Keying where
  suite : ℤ
  material : Bytes
  keyLen : ℕ
  saltLen : ℕ
  lengths : getSrtpKeyAndSaltLengths suite = some (keyLen, saltLen)
  sized : material.length = keyLen * 2 + saltLen * 2

/-- `rtc::StreamState`. -/
inductive StreamState where
  | closed
  | opening
  | opened
deriving DecidableEq

/-- `rtc::StreamResult`. -/
inductive StreamResult where
  | error
  | success
  | block
  | eos
deriving DecidableEq

/-- The stream below the adapter. -/
structure DtlsStreamInterface where
  que : List Bytes := []
  state : StreamState := .opened
  isStop : Bool := false
deriving DecidableEq

namespace DtlsStreamInterface

def queCapacity : ℕ := 2048

/-- `Read`: a packet leaves the queue whole; what does not fit into the buffer is
lost. -/
def read (s : DtlsStreamInterface) (bufferLen : ℕ) :
    DtlsStreamInterface × StreamResult × Option Bytes :=
  match s.state with
  | .closed => (s, .eos, none)
  | .opening => (s, .block, none)
  | .opened =>
      match s.que with
      | [] => (s, .block, none)
      | packet :: que => ({ s with que }, .success, some (packet.take bufferLen))

/-- A read leaves the stream as it is, or takes the first packet of an open one. -/
theorem read_cases (s : DtlsStreamInterface) (bufferLen : ℕ) :
    (∃ ret, s.read bufferLen = (s, ret, none) ∧ ret ≠ .success) ∨
      ∃ packet que, s.state = .opened ∧ s.que = packet :: que ∧
        s.read bufferLen = ({ s with que }, .success, some (packet.take bufferLen)) := by
  unfold read
  cases hstate : s.state with
  | closed => exact Or.inl ⟨_, rfl, by simp⟩
  | opening => exact Or.inl ⟨_, rfl, by simp⟩
  | opened =>
      cases hque : s.que with
      | nil => exact Or.inl ⟨_, rfl, by simp⟩
      | cons packet que => exact Or.inr ⟨packet, que, rfl, rfl, rfl⟩

def close (s : DtlsStreamInterface) : DtlsStreamInterface :=
  { s with state := .closed, que := [] }

def stopUdp (s : DtlsStreamInterface) : DtlsStreamInterface :=
  { s with isStop := true }

/-- `_que.WriteBack`. -/
def writeBack (s : DtlsStreamInterface) (data : Bytes) :
    Bool × DtlsStreamInterface :=
  if s.que.length = queCapacity then (false, s)
  else (true, { s with que := s.que ++ [data] })

end DtlsStreamInterface

inductive DtlsTransportState where
  | new
  | connecting
  | connected
  | closed
  | failed
deriving DecidableEq

structure RtcDtls where
  udp : UdpId
  remoteAddr : IpAddress
  downward : DtlsStreamInterface := {}
  remoteAlg : Str := []
  remoteFingerprintValue : Bytes := []
  state : DtlsTransportState := .new
  /-- What the adapter can export, from the end of its one handshake on. -/
  keying : Option Keying := none

/-- What the adapter does when it is called or when its timer runs out. -/
inductive AdapterAct where
  | read (bufferLen : ℕ)
  | write (data : Bytes)
  | close
  | handshakeDone (k : Keying)
  /-- It raises `SignalEvent` with these bits; `reads` are the results of the
  `Read` calls that answer `SE_READ`. -/
  | signal (seOpen seClose seRead : Bool) (error : ℤ) (reads : List StreamResult)

/-- The calls into the adapter one datagram may cause: `StartSSL` and its
result, then `SE_READ` on the stream below. -/
structure Adapter where
  startActs : List AdapterAct := []
  startSsl : Bool := true
  acts : List AdapterAct := []

namespace RtcDtls

def isDtls (data : Bytes) : Bool :=
  13 ≤ data.length && (19 < data.getD 0 0 && data.getD 0 0 < 64)

def isDtlsClientHelloPacket (data : Bytes) : Bool :=
  isDtls data && 17 < data.length && (data.getD 0 0 == 22 && data.getD 13 0 == 1)

def kDtlsRecordHeaderLen : ℕ := 13

def destory (d : RtcDtls) : RtcDtls := { d with downward := d.downward.stopUdp }

def setRemoteDtls (d : RtcDtls) (alg : Str) (digest : Bytes) : RtcDtls :=
  if d.remoteFingerprintValue = digest ∧ alg ≠ [] then d
  else { d with remoteAlg := alg, remoteFingerprintValue := digest }

def setupDtls (env : Env) (d : RtcDtls) : Bool :=
  if d.remoteFingerprintValue.length < 1 then false
  else if !env.setPeerCertificateDigest d.remoteAlg d.remoteFingerprintValue then false
  else env.setDtlsSrtpCryptoSuites

/-- The suite, the send key and the receive key, each a key followed by its
salt; the exported layout is `key1 | key2 | salt1 | salt2`. What was agreed on is
still there when the adapter has been closed, and `RTC_DCHECK` is off (`NDEBUG`). -/
def extractSrtpKeys (d : RtcDtls) : Option (ℤ × Bytes × Bytes) := do
  let k ← d.keying
  let (keyLen, saltLen) ← getSrtpKeyAndSaltLengths k.suite
  let key1 := substr k.material 0 keyLen
  let key2 := substr k.material keyLen keyLen
  let salt1 := substr k.material (keyLen + keyLen) saltLen
  let salt2 := k.material.drop (keyLen + keyLen + saltLen)
  return (k.suite, key2 ++ salt2, key1 ++ salt1)

/-! ## Events of the adapter -/

/-- The `do ... while` of `slot_dtls_event`: it goes on while `Read` succeeds. -/
def readLoop (d : RtcDtls) : List StreamResult → RtcDtls
  | .success :: reads => readLoop d reads
  | .eos :: _ => { d with state := .closed }
  | .error :: _ => { d with state := .failed }
  | .block :: _ => d
  | [] => d

def slotDtlsEvent (d : RtcDtls) (seOpen seClose seRead : Bool) (error : ℤ)
    (reads : List StreamResult) : RtcDtls :=
  let d := if seOpen then { d with state := .connected } else d
  let d := if seClose then { d with state := if error = 0 then .closed else .failed }
    else d
  if seRead then d.readLoop reads else d

/-- One act, and what it writes to the network. -/
def act (d : RtcDtls) : AdapterAct → RtcDtls × List Bytes
  | .read bufferLen => ({ d with downward := (d.downward.read bufferLen).1 }, [])
  | .write data => (d, if d.downward.isStop then [] else [data])
  | .close => ({ d with downward := d.downward.close }, [])
  | .handshakeDone k => ({ d with keying := d.keying.or (some k) }, [])
  | .signal seOpen seClose seRead error reads =>
      (d.slotDtlsEvent seOpen seClose seRead error reads, [])

def runActs (d : RtcDtls) : List AdapterAct → RtcDtls × List Bytes
  | [] => (d, [])
  | a :: acts =>
      let (d, sent) := d.act a
      let (d, rest) := runActs d acts
      (d, sent ++ rest)

/-! ## Datagrams -/

/-- The framing loop: the bytes are records, each with the length its header
names. Every turn takes 13 bytes at least, so the fuel is their number. -/
def recordsLoop : ℕ → Bytes → Bool
  | _, [] => true
  | 0, _ => false
  | fuel + 1, data =>
      if data.length < kDtlsRecordHeaderLen then false
      else
        let recordLen := (getBE16 data 11).toNat
        if recordLen + kDtlsRecordHeaderLen > data.length then false
        else recordsLoop fuel (data.drop (kDtlsRecordHeaderLen + recordLen))

/-- `DtlsStreamInterface::on_packet_receive`: `SE_READ` is signalled whether
or not the packet found room. -/
def onPacketReceive (d : RtcDtls) (data : Bytes) (acts : List AdapterAct) :
    Bool × RtcDtls × List Bytes :=
  if d.downward.isStop then (false, d, [])
  else
    let (flag, downward) := d.downward.writeBack data
    (flag, runActs { d with downward } acts)

def doHandleDtlsPacket (d : RtcDtls) (data : Bytes) (acts : List AdapterAct) :
    Bool × RtcDtls × List Bytes :=
  if recordsLoop data.length data then d.onPacketReceive data acts
  else (false, d, [])

/-- `handle_dtls`: a ClientHello that is delivered sets the state after the
adapter has returned, over what its events have set. -/
def handleDtls (d : RtcDtls) (data : Bytes) (adapter : Adapter) :
    RtcDtls × List Bytes :=
  let (d, started) :=
    if d.state = .new then
      let (d, started) := d.runActs adapter.startActs
      (if adapter.startSsl then { d with state := .connecting } else d, started)
    else (d, [])
  match d.state with
  | .connecting =>
      if isDtlsClientHelloPacket data then
        let (flag, d, sent) := d.doHandleDtlsPacket data adapter.acts
        (if flag then { d with state := .connected } else d, started ++ sent)
      else (d, started)
  | .connected =>
      let (_, d, sent) := d.doHandleDtlsPacket data adapter.acts
      (d, started ++ sent)
  | _ => (d, started)

theorem readLoop_keying (d : RtcDtls) (reads : List StreamResult) :
    (d.readLoop reads).keying = d.keying := by
  fun_induction readLoop d reads with
  | case1 reads ih => exact ih
  | _ => rfl

theorem slotDtlsEvent_keying (d : RtcDtls) (seOpen seClose seRead : Bool) (error : ℤ)
    (reads : List StreamResult) :
    (d.slotDtlsEvent seOpen seClose seRead error reads).keying = d.keying := by
  unfold slotDtlsEvent
  cases seOpen <;> cases seClose <;> cases seRead <;>
    simp only [Bool.false_eq_true, if_true, if_false, readLoop_keying]

theorem readLoop_downward (d : RtcDtls) (reads : List StreamResult) :
    (d.readLoop reads).downward = d.downward := by
  fun_induction readLoop d reads with
  | case1 reads ih => exact ih
  | _ => rfl

theorem slotDtlsEvent_downward (d : RtcDtls) (seOpen seClose seRead : Bool) (error : ℤ)
    (reads : List StreamResult) :
    (d.slotDtlsEvent seOpen seClose seRead error reads).downward = d.downward := by
  unfold slotDtlsEvent
  cases seOpen <;> cases seClose <;> cases seRead <;>
    simp only [Bool.false_eq_true, if_true, if_false, readLoop_downward]

/-! ## Keys -/

end RtcDtls

namespace Keying

/-- The second key and its salt. -/
def sendKey (k : Keying) : Bytes :=
  substr k.material k.keyLen k.keyLen ++ k.material.drop (k.keyLen + k.keyLen + k.saltLen)

/-- The first key and its salt. -/
def recvKey (k : Keying) : Bytes :=
  substr k.material 0 k.keyLen ++ substr k.material (k.keyLen + k.keyLen) k.saltLen

theorem sendKey_length (k : Keying) : k.sendKey.length = k.keyLen + k.saltLen := by
  have hsized := k.sized
  simp only [sendKey, substr, List.length_append, List.length_take, List.length_drop]
  omega

theorem recvKey_length (k : Keying) : k.recvKey.length = k.keyLen + k.saltLen := by
  have hsized := k.sized
  simp only [recvKey, substr, List.length_append, List.length_take, List.length_drop]
  omega

end Keying

namespace RtcDtls

/-- Keys can be extracted exactly from the end of the handshake on. -/
theorem extractSrtpKeys_eq (d : RtcDtls) :
    d.extractSrtpKeys = d.keying.map fun k => (k.suite, k.sendKey, k.recvKey) := by
  unfold extractSrtpKeys
  cases d.keying with
  | none => rfl
  | some k =>
      show (do
        let (keyLen, saltLen) ← getSrtpKeyAndSaltLengths k.suite
        _ : Option _) = _
      rw [k.lengths]
      rfl

/-- A completed handshake stays completed. -/
theorem act_keying {d : RtcDtls} {k : Keying} (h : d.keying = some k) (a : AdapterAct) :
    (d.act a).1.keying = some k := by
  cases a with
  | read bufferLen => exact h
  | write data => exact h
  | close => exact h
  | handshakeDone k' =>
      show d.keying.or (some k') = some k
      rw [h]
      rfl
  | signal seOpen seClose seRead error reads =>
      rw [← h]
      exact slotDtlsEvent_keying d seOpen seClose seRead error reads

theorem runActs_keying {d : RtcDtls} {k : Keying} (h : d.keying = some k)
    (acts : List AdapterAct) : (d.runActs acts).1.keying = some k := by
  induction acts generalizing d with
  | nil => exact h
  | cons a acts ih => exact ih (act_keying h a)

theorem doHandleDtlsPacket_keying {d : RtcDtls} {k : Keying} (h : d.keying = some k)
    (data : Bytes) (acts : List AdapterAct) :
    (d.doHandleDtlsPacket data acts).2.1.keying = some k := by
  unfold doHandleDtlsPacket onPacketReceive
  split
  · split
    · exact h
    · exact runActs_keying (d := { d with downward := (d.downward.writeBack data).2 }) h acts
  · exact h

theorem handleDtls_keying {d : RtcDtls} {k : Keying} (h : d.keying = some k) (data : Bytes)
    (adapter : Adapter) : (d.handleDtls data adapter).1.keying = some k := by
  -- starting the handshake may change the state, not the keys
  have hstart : ∃ d₁ started, (if d.state = .new then
      ((if adapter.startSsl then { (d.runActs adapter.startActs).1 with state := .connecting }
        else (d.runActs adapter.startActs).1), (d.runActs adapter.startActs).2)
      else (d, [])) = (d₁, started) ∧ d₁.keying = some k := by
    have hrun := runActs_keying h adapter.startActs
    split
    · refine ⟨_, _, rfl, ?_⟩
      split
      · exact hrun
      · exact hrun
    · exact ⟨d, [], rfl, h⟩
  obtain ⟨d₁, started, hfirst, h₁⟩ := hstart
  unfold handleDtls
  dsimp only
  rw [hfirst]
  have hrun := doHandleDtlsPacket_keying h₁ data adapter.acts
  dsimp only
  split
  · split
    · dsimp only
      split
      · exact hrun
      · exact hrun
    · exact h₁
  · exact hrun
  · exact h₁

end RtcDtls

end JuanSfu
