import JuanSfu.Utils.SUtil

/-!
# `rtc::SSLFingerprint` and the libraries behind the model

The text form of a fingerprint is read and written by code of this repository.
What lies outside it (HMAC, CRC, the certificate, libsrtp, the TLS engine) is
collected in `Env`: every theorem holds for all of its values, and a theorem
that needs a library to behave says so in a hypothesis.
-/

namespace JuanSfu

structure SSLFingerprint where
  algorithm : Str
  digest : Bytes
deriving DecidableEq

/-- `rtc::IsFips180DigestAlgorithm`. -/
def isFips180DigestAlgorithm (alg : Str) : Bool :=
  alg == str "sha-1" || alg == str "sha-224" || alg == str "sha-256" ||
    alg == str "sha-384" || alg == str "sha-512"

def hexDigit (v : UInt8) : UInt8 := if v < 10 then 48 + v else 55 + v

/-- `hex_decode` of one character. -/
def hexDecode (ch : UInt8) : Option UInt8 :=
  if 48 ≤ ch ∧ ch ≤ 57 then some (ch - 48)
  else if 65 ≤ ch ∧ ch ≤ 70 then some (ch - 65 + 10)
  else if 97 ≤ ch ∧ ch ≤ 102 then some (ch - 97 + 10)
  else none

/-- `hex_decode_with_delimiter` with delimiter `:`. -/
def hexDecodeWithDelimiter : Str → Option Bytes
  | [] => some []
  | [_] => none
  | [a, b] => do some [(← hexDecode a) <<< 4 ||| (← hexDecode b)]
  | [_, _, _] => none
  | a :: b :: d :: c :: rest => do
      let byte := (← hexDecode a) <<< 4 ||| (← hexDecode b)
      if d = 58 then some (byte :: (← hexDecodeWithDelimiter (c :: rest)))
      else none

/-- `SSLFingerprint::CreateUniqueFromRfc4572`: null unless the algorithm is a
FIPS 180 one and the text decodes to 1 to 64 bytes. -/
def createUniqueFromRfc4572 (algorithm fingerprint : Str) :
    Option SSLFingerprint :=
  if !isFips180DigestAlgorithm algorithm then none
  else if fingerprint = [] ∨ 64 < (fingerprint.length + 1) / 3 then none
  else
    match hexDecodeWithDelimiter fingerprint with
    | some (b :: digest) => some ⟨algorithm, b :: digest⟩
    | _ => none

/-- `GetRfc4572Fingerprint`: upper-case hex, a colon between two bytes. -/
def getRfc4572Fingerprint (fp : SSLFingerprint) : Str :=
  let octets : List Str :=
    fp.digest.map fun (b : UInt8) => [hexDigit (b >>> 4), hexDigit (b &&& 15)]
  (octets.intersperse [58]).flatten

/-! ## The libraries -/

/-- The lengths libsrtp keeps for a protection profile. -/
structure SrtpProfile where
  cipherKeyLen : ℕ
  rtpAuthTagLen : ℕ
  rtcpAuthTagLen : ℕ
deriving DecidableEq

inductive SrtpDirection where
  | inbound
  | outbound
deriving DecidableEq

/-- What `srtp_create` is given: direction, suite and key. -/
structure SrtpPolicy where
  direction : SrtpDirection
  suite : ℤ
  key : Bytes
deriving DecidableEq

/-- Code and data outside the repository, and the configuration. -/
structure Env where
  /-- What `ComputeHmac(DIGEST_SHA_1, key, input)` writes into its output. -/
  hmacSha1 : Str → Bytes → Bytes
  crc32 : Bytes → UInt32
  /-- `SSLFingerprint::CreateFromCertificate` of the server's certificate. -/
  certificateFingerprint : Option SSLFingerprint
  hostAsUriString : Str → Str
  ipAddressPrecedence : Str → ℕ
  /-- `server_ip` of the configuration file. -/
  ipstr : Str
  /-- The bytes at `read_ptr()` after `reset()` of a buffer that held the given
  datagram at its start. -/
  readAfterReset : Bytes → Bytes
  /-- `SSLStreamAdapter::SetPeerCertificateDigest`. -/
  setPeerCertificateDigest : Str → Bytes → Bool
  setDtlsSrtpCryptoSuites : Bool
  srtpInit : Bool
  srtpInstallEventHandler : Bool
  /-- `srtp_crypto_policy_set_from_profile_for_rtp` and `_rtcp`. -/
  srtpProfile : ℤ → Option SrtpProfile
  srtpCreate : SrtpPolicy → Bool
  srtpUpdate : SrtpPolicy → Bool

end JuanSfu
