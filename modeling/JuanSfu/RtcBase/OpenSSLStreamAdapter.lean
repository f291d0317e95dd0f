import JuanSfu.Lib.Lts
import JuanSfu.Udp.RtcDtls

/-!
# `rtc_base/openssl_stream_adapter.cc`: the adapter between OpenSSL and `RtcDtls`

The adapter reads datagrams from the stream below it, gives them to OpenSSL and
tells `RtcDtls` what has come of it by events. It calls `RtcDtls` back while it
is being called, and `RtcDtls` calls it again from there to read. OpenSSL is
outside the repository: what one call into it does, through the stream and
through the callback that verifies the peer's certificate, and what it comes to,
is chosen by the environment, call by call. A call on an `SSL*` that is null is
`none`. The build is one with `NDEBUG`, in which `RTC_DCHECK` checks nothing.
-/

namespace JuanSfu

/-- The buffer of `slot_dtls_event`. -/
def kMaxDtlsPacketLen : ℕ := 2048

def sslErrorNone : ℤ := 0

def sslErrorWantRead : ℤ := 2

def sslErrorWantWrite : ℤ := 3

def sslErrorZeroReturn : ℤ := 6

/-- `OpenSSLStreamAdapter::SSLState`. -/
inductive SSLState where
  | none
  | wait
  | connecting
  | connected
  | error
  | closed
deriving DecidableEq

/-- What OpenSSL does while one of its functions runs: `stream_read`,
`stream_write`, and `SSLVerifyCallback` with the certificate of the peer. -/
inductive BioAct where
  | read (outl : ℕ)
  | write (data : Bytes)
  | verify (cert : Bytes)
deriving DecidableEq

/-- One call of an OpenSSL function that may use the stream. -/
structure SslCall where
  acts : List BioAct := []
  /-- `SSL_get_error`, behind it. -/
  error : ℤ := sslErrorWantRead
  /-- The bytes `SSL_read` has read, and `SSL_pending` behind it. -/
  code : ℕ := 0
  pending : ℕ := 0
  /-- `DTLSv1_get_timeout` has a time. -/
  timeout : Bool := false
deriving DecidableEq

/-- What `BeginSSL` is given by `SetupSSLContext`, `BIO_new` and `SSL_new`. -/
structure SslSetup where
  context : Bool := true
  bio : Bool := true
  ssl : Bool := true
deriving DecidableEq

structure OpenSSLStreamAdapter where
  state : SSLState := .none
  sslErrorCode : ℤ := 0
  sslReadNeedsWrite : Bool := false
  sslWriteNeedsRead : Bool := false
  /-- `ssl_` is not null. -/
  ssl : Bool := false
  sslCtx : Bool := false
  peerCertChain : Option Bytes := none
  peerCertificateVerified : Bool := false
  peerCertificateDigestValue : Bytes := []
  peerCertificateDigestAlgorithm : Str := []
  /-- `timeout_task_` is running. -/
  timeoutTask : Bool := false
deriving DecidableEq

namespace OpenSSLStreamAdapter

/-- `OpenSSLDigest::GetDigestSize`. -/
def getDigestSize (alg : Str) : Option ℕ :=
  if alg = str "md5" then some 16
  else if alg = str "sha-1" then some 20
  else if alg = str "sha-224" then some 28
  else if alg = str "sha-256" then some 32
  else if alg = str "sha-384" then some 48
  else if alg = str "sha-512" then some 64
  else none

/-- Before the handshake, when there is no certificate yet. -/
def setPeerCertificateDigest (a : OpenSSLStreamAdapter) (digestAlg : Str) (digestVal : Bytes) :
    Bool × OpenSSLStreamAdapter :=
  match getDigestSize digestAlg with
  | none => (false, a)
  | some expectedLen =>
      if expectedLen ≠ digestVal.length then (false, a)
      else (true,
        { a with
          peerCertificateDigestValue := digestVal
          peerCertificateDigestAlgorithm := digestAlg })

def hasPeerCertificateDigest (a : OpenSSLStreamAdapter) : Bool :=
  !a.peerCertificateDigestAlgorithm.isEmpty && !a.peerCertificateDigestValue.isEmpty

/-- Client authentication is on. -/
def waitingToVerifyPeerCertificate (a : OpenSSLStreamAdapter) : Bool :=
  !a.peerCertificateVerified

/-- `digestOf alg cert` is the digest of a certificate, if it can be computed. -/
def verifyPeerCertificate (digestOf : Str → Bytes → Option Bytes) (a : OpenSSLStreamAdapter) :
    Bool × OpenSSLStreamAdapter :=
  if !a.hasPeerCertificateDigest then (false, a)
  else
    match a.peerCertChain with
    | none => (false, a)
    | some cert =>
        if digestOf a.peerCertificateDigestAlgorithm cert = some a.peerCertificateDigestValue
        then (true, { a with peerCertificateVerified := true })
        else (false, a)

end OpenSSLStreamAdapter

/-! ## The objects of one connection -/

/-- A `stream_read` that succeeded: the packet that left the queue, the size of
OpenSSL's buffer, and what was copied to it. -/
structure BioRead where
  packet : Bytes
  outl : ℕ
  data : Bytes
deriving DecidableEq

/-- An entry of the log. -/
inductive StackMark where
  | arrived (data : Bytes)
  | fed (r : BioRead)
  /-- `SSLVerifyCallback` was called, and what it returned. -/
  | presented (cert : Bytes) (ok : Bool)
  /-- `SSL_accept` reported success. -/
  | established
  /-- The adapter raised `SignalEvent`. -/
  | signal (seOpen seClose seRead : Bool) (error : ℤ)
  /-- `SSL_export_keying_material` filled the buffer. -/
  | exported (cs : ℤ) (sendKey recvKey : Bytes)
deriving DecidableEq

/-- A connection, its adapter, what OpenSSL will do when it is called next, and
what has been sent and has happened. -/
structure DtlsStack where
  dtls : RtcDtls
  adapter : OpenSSLStreamAdapter := {}
  calls : List SslCall := []
  sent : List Bytes := []
  log : List StackMark := []

namespace DtlsStack

section Calls

variable (digestOf : Str → Bytes → Option Bytes)

/-! ### Calls into OpenSSL -/

def sslVerifyCallback (s : DtlsStack) (cert : Bytes) : DtlsStack :=
  let a := { s.adapter with peerCertChain := some cert }
  let (ok, a) := if a.peerCertificateDigestAlgorithm = [] then (true, a)
    else a.verifyPeerCertificate digestOf
  { s with adapter := a, log := s.log ++ [.presented cert ok] }

/-- `stream_read`. -/
def streamRead (s : DtlsStack) (outl : ℕ) : DtlsStack :=
  match s.dtls.downward.read outl, s.dtls.downward.que with
  | (downward, _, some data), packet :: _ =>
      { s with dtls.downward := downward, log := s.log ++ [.fed { packet, outl, data }] }
  | (downward, _, _), _ => { s with dtls.downward := downward }

/-- `DtlsStreamInterface::Write`. -/
def streamWrite (s : DtlsStack) (data : Bytes) : DtlsStack :=
  { s with sent := s.sent ++ if s.dtls.downward.isStop then [] else [data] }

def bioAct (s : DtlsStack) : BioAct → DtlsStack
  | .read outl => s.streamRead outl
  | .write data => s.streamWrite data
  | .verify cert => s.sslVerifyCallback digestOf cert

/-- The next call of OpenSSL; when nothing more is chosen, it waits for input. -/
def runCall (s : DtlsStack) : SslCall × DtlsStack :=
  match s.calls with
  | [] => ({}, s)
  | c :: calls => (c, c.acts.foldl (bioAct digestOf) { s with calls })

/-- A call on `ssl_`. -/
def callSsl (s : DtlsStack) : Option (SslCall × DtlsStack) :=
  if s.adapter.ssl then some (s.runCall digestOf) else none

/-! ### The end of a connection -/

def cleanup (s : DtlsStack) : DtlsStack :=
  let s := if s.adapter.state ≠ .error then
      { s with adapter.state := .closed, adapter.sslErrorCode := 0 }
    else s
  -- `SSL_shutdown` may still write
  let s := if s.adapter.ssl then (s.runCall digestOf).2 else s
  { s with
    adapter.ssl := false, adapter.sslCtx := false, adapter.peerCertChain := none
    adapter.timeoutTask := false }

/-- `Error` that raises no event. -/
def fail (s : DtlsStack) (err : ℤ) : DtlsStack :=
  { s with adapter.state := .error, adapter.sslErrorCode := err }.cleanup digestOf

def close (s : DtlsStack) : DtlsStack :=
  let s := s.cleanup digestOf
  { s with dtls.downward := s.dtls.downward.close }

/-! ### Reading -/

/-- The loop of `FlushInput`; every turn is a call into OpenSSL. -/
def flushInput : ℕ → ℕ → DtlsStack → Option DtlsStack
  | _, 0, s => some s
  | 0, _ + 1, _ => none
  | fuel + 1, left + 1, s => do
      let (c, s) ← s.callSsl digestOf
      if c.error ≠ sslErrorNone then
        return s.fail digestOf c.error
      flushInput fuel (left + 1 - c.code) s

def read (s : DtlsStack) : Option (StreamResult × DtlsStack) :=
  match s.adapter.state with
  | .none =>
      -- in clear text, from the stream below
      let (downward, ret, _) := s.dtls.downward.read kMaxDtlsPacketLen
      some (ret, { s with dtls.downward := downward })
  | .wait | .connecting => some (.block, s)
  | .connected =>
      if s.adapter.waitingToVerifyPeerCertificate then some (.block, s)
      else do
        let (c, s) ← { s with adapter.sslReadNeedsWrite := false }.callSsl digestOf
        if c.error = sslErrorNone then
          if c.pending = 0 then
            return (.success, s)
          let s ← s.flushInput digestOf (s.calls.length + 1) c.pending
          return (.error, s)
        else if c.error = sslErrorWantRead then
          return (.block, s)
        else if c.error = sslErrorWantWrite then
          return (.block, { s with adapter.sslReadNeedsWrite := true })
        else if c.error = sslErrorZeroReturn then
          return (.eos, s.close digestOf)
        else
          return (.error, s.fail digestOf c.error)
  | .closed => some (.eos, s)
  | .error => some (.error, s)

/-! ### Events -/

/-- The `do ... while` of `RtcDtls::slot_dtls_event`. -/
def readLoop : ℕ → DtlsStack → Option DtlsStack
  | 0, _ => none
  | fuel + 1, s => do
      let (ret, s) ← s.read digestOf
      match ret with
      | .success => readLoop fuel s
      | .eos => return { s with dtls.state := .closed }
      | .error => return { s with dtls.state := .failed }
      | .block => return s

/-- A turn of the loop takes a call or a packet. -/
def turns (s : DtlsStack) : ℕ := s.calls.length + s.dtls.downward.que.length

def slotDtlsEvent (s : DtlsStack) (seOpen seClose seRead : Bool) (error : ℤ) :
    Option DtlsStack :=
  let s := if seOpen then { s with dtls.state := .connected } else s
  let s := if seClose then { s with dtls.state := if error = 0 then .closed else .failed }
    else s
  if seRead then s.readLoop digestOf (s.turns + 1) else some s

/-- `SignalEvent` of the adapter; `RtcDtls` is what is connected to it. -/
def signalEvent (s : DtlsStack) (seOpen seClose seRead : Bool) (error : ℤ) :
    Option DtlsStack :=
  { s with log := s.log ++ [StackMark.signal seOpen seClose seRead error] }.slotDtlsEvent digestOf
    seOpen seClose seRead error

/-- `Error` that raises `SE_CLOSE`. -/
def failAndSignal (s : DtlsStack) (err : ℤ) : Option DtlsStack :=
  (s.fail digestOf err).signalEvent digestOf false true false err

/-- `ContinueSSL`, in the role of the server. -/
def continueSSL (s : DtlsStack) : Option (ℤ × DtlsStack) := do
  let (c, s) ← { s with adapter.timeoutTask := false }.callSsl digestOf
  if c.error = sslErrorNone then
    let s := { s with adapter.state := .connected, log := s.log ++ [.established] }
    if s.adapter.waitingToVerifyPeerCertificate then
      return (0, s)
    let s ← s.signalEvent digestOf true false true 0
    return (0, s)
  else if c.error = sslErrorWantRead then
    return (0, if c.timeout then { s with adapter.timeoutTask := true } else s)
  else if c.error = sslErrorWantWrite then
    return (0, s)
  else
    return (c.error, s)

def beginSSL (s : DtlsStack) (setup : SslSetup) : Option (ℤ × DtlsStack) :=
  if !setup.context then some (-1, s)
  else if !setup.bio || !setup.ssl then some (-1, { s with adapter.sslCtx := true })
  else { s with adapter.sslCtx := true, adapter.ssl := true }.continueSSL digestOf

def startSSL (s : DtlsStack) (setup : SslSetup) : Option (ℤ × DtlsStack) :=
  if s.adapter.state ≠ .none then some (-1, s)
  else if s.dtls.downward.state ≠ .opened then some (0, { s with adapter.state := .wait })
  else do
    let (err, s) ← { s with adapter.state := .connecting }.beginSSL digestOf setup
    if err ≠ 0 then
      return (err, s.fail digestOf err)
    return (0, s)

/-- `OnEvent` of the event that the stream below raises, `SE_READ`. -/
def onEvent (s : DtlsStack) : Option DtlsStack :=
  match s.adapter.state with
  | .none => s.signalEvent digestOf false false true 0
  | .connecting => do
      let (err, s) ← s.continueSSL digestOf
      if err ≠ 0 then s.failAndSignal digestOf err else return s
  -- `SE_WRITE` may be raised with it, which `RtcDtls` does not look at
  | .connected => s.signalEvent digestOf false false true 0
  | _ => some s

/-- The task of `SetTimeout`: `DTLSv1_handle_timeout`, and then `ContinueSSL`,
whose result is not looked at. -/
def timeoutExpired (s : DtlsStack) : Option DtlsStack := do
  let (_, s) ← { s with adapter.timeoutTask := false }.callSsl digestOf
  let (_, s) ← s.continueSSL digestOf
  return s

/-! ### `RtcDtls` over the adapter -/

def onPacketReceive (s : DtlsStack) (data : Bytes) : Option (Bool × DtlsStack) :=
  if s.dtls.downward.isStop then some (false, s)
  else do
    let (flag, downward) := s.dtls.downward.writeBack data
    let s ← { s with dtls.downward := downward }.onEvent digestOf
    return (flag, s)

def doHandleDtlsPacket (s : DtlsStack) (data : Bytes) : Option (Bool × DtlsStack) :=
  if RtcDtls.recordsLoop data.length data then s.onPacketReceive digestOf data
  else some (false, s)

/-- `handle_dtls` up to its switch. -/
def startIfNew (s : DtlsStack) (setup : SslSetup) : Option DtlsStack :=
  if s.dtls.state = .new then do
    let (ret, s) ← s.startSSL digestOf setup
    return if ret = 0 then { s with dtls.state := .connecting } else s
  else some s

def handleDtls (s : DtlsStack) (data : Bytes) (setup : SslSetup) : Option DtlsStack := do
  let s ← s.startIfNew digestOf setup
  match s.dtls.state with
  | .connecting =>
      if RtcDtls.isDtlsClientHelloPacket data then do
        let (flag, s) ← s.doHandleDtlsPacket digestOf data
        return if flag then { s with dtls.state := .connected } else s
      else return s
  | .connected => do
      let (_, s) ← s.doHandleDtlsPacket digestOf data
      return s
  | _ => return s

/-- `unset` is what the caller's variable for the suite holds, `profile` what
`SSL_get_selected_srtp_profile` finds, and `material` what is exported. The
result of `GetDtlsSrtpCryptoSuite` is not looked at. -/
def extractSrtpKeys (s : DtlsStack) (unset : ℤ) (profile : Option ℤ)
    (material : Option (ℕ → UInt8)) : Option DtlsStack :=
  let cs := if s.adapter.state = .connected then profile.getD unset else unset
  match getSrtpKeyAndSaltLengths cs with
  | none => some s
  | some (keyLen, saltLen) =>
      if s.adapter.ssl then
        match material with
        | none => some s
        | some material =>
            let results := (List.range (keyLen * 2 + saltLen * 2)).map material
            let key1 := substr results 0 keyLen
            let key2 := substr results keyLen keyLen
            let salt1 := substr results (keyLen + keyLen) saltLen
            let salt2 := results.drop (keyLen + keyLen + saltLen)
            some { s with log := s.log ++ [.exported cs (key2 ++ salt2) (key1 ++ salt1)] }
      else none

end Calls

/-! ### The system -/

/-- What is called from outside; each event brings what OpenSSL does in it. -/
inductive Event where
  | arrives (data : Bytes) (setup : SslSetup) (calls : List SslCall)
  | timeout (calls : List SslCall)
  | keys (unset : ℤ) (profile : Option ℤ) (material : Option (ℕ → UInt8))
  | destory

/-- The timer runs out only if it is running. -/
def Due (s : DtlsStack) : Event → Prop
  | .timeout _ => s.adapter.timeoutTask = true
  | _ => True

/-- `none` if a null `SSL*` is used or a loop does not end. -/
def exec (digestOf : Str → Bytes → Option Bytes) (s : DtlsStack) : Event → Option DtlsStack
  | .arrives data setup calls =>
      { s with calls, log := s.log ++ [StackMark.arrived data] }.handleDtls digestOf data setup
  | .timeout calls => { s with calls }.timeoutExpired digestOf
  | .keys unset profile material => s.extractSrtpKeys unset profile material
  | .destory => some { s with dtls := s.dtls.destory }

/-- A connection as `on_udp_receive` makes it: `set_remote_dtls` and
`setup_dtls`, with the fingerprint of the offer. -/
def create (udp : UdpId) (addr : IpAddress) (alg : Str) (digest : Bytes) : Option DtlsStack :=
  let dtls : RtcDtls := { udp, remoteAddr := addr }
  let dtls := dtls.setRemoteDtls alg digest
  if dtls.remoteFingerprintValue.length < 1 then none
  else
    let (ok, adapter) := OpenSSLStreamAdapter.setPeerCertificateDigest {} dtls.remoteAlg
      dtls.remoteFingerprintValue
    if ok then some { dtls, adapter } else none

/-- Connections to a peer whose certificate has this digest, and what may happen
to them. -/
def system (digestOf : Str → Bytes → Option Bytes) (alg : Str) (digest : Bytes) :
    Lts.System DtlsStack Event where
  init s := ∃ udp addr, create udp addr alg digest = some s
  step s e s' := s.Due e ∧ s.exec digestOf e = some s'

end DtlsStack

end JuanSfu
