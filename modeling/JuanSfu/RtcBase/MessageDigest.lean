import JuanSfu.Base
import JuanSfu.Lib.Hmac

/-!
# `rtc_base/message_digest.cc` and `rtc_base/openssl_digest.cc`

A digest is fed bytes and gives the hash of all of them, then starts over.
`ComputeHmac` uses one such object for three hashes in a row; it takes digests of up
to 32 bytes, whose block has 64. A result is the bytes that are written: their
number is what the source returns.
-/

namespace JuanSfu

/-- The hash functions of the library. -/
structure Evp where
  md5 : Hmac.Digest
  sha1 : Hmac.Digest
  sha224 : Hmac.Digest
  sha256 : Hmac.Digest
  sha384 : Hmac.Digest
  sha512 : Hmac.Digest

/-- `OpenSSLDigest::GetDigestEVP`. -/
def getDigestEvp (evp : Evp) (algorithm : Str) : Option Hmac.Digest :=
  if algorithm = str "md5" then some evp.md5
  else if algorithm = str "sha-1" then some evp.sha1
  else if algorithm = str "sha-224" then some evp.sha224
  else if algorithm = str "sha-256" then some evp.sha256
  else if algorithm = str "sha-384" then some evp.sha384
  else if algorithm = str "sha-512" then some evp.sha512
  else none

/-- `fed` is what the context has been given since it was initialised. -/
structure OpenSSLDigest where
  md : Option Hmac.Digest
  fed : Bytes := []

namespace OpenSSLDigest

def size (d : OpenSSLDigest) : ℕ := (d.md.map Hmac.Digest.size).getD 0

def update (d : OpenSSLDigest) (buf : Bytes) : OpenSSLDigest :=
  match d.md with
  | none => d
  | some _ => { d with fed := d.fed ++ buf }

def finish (d : OpenSSLDigest) (len : ℕ) : Bytes × OpenSSLDigest :=
  match d.md with
  | none => ([], d)
  | some md => if len < md.size then ([], d) else (md.hash d.fed, { d with fed := [] })

end OpenSSLDigest

/-- `MessageDigestFactory::Create`. -/
def createDigest (evp : Evp) (alg : Str) : Option OpenSSLDigest :=
  let digest : OpenSSLDigest := { md := getDigestEvp evp alg }
  if digest.size = 0 then none else some digest

def computeDigest (digest : OpenSSLDigest) (input : Bytes) (outLen : ℕ) :
    Bytes × OpenSSLDigest :=
  (digest.update input).finish outLen

def kBlockSize : ℕ := 64

/-- `new_key` of `ComputeHmac`. -/
def newKeyOf (digest : OpenSSLDigest) (key : Bytes) : Bytes × OpenSSLDigest :=
  if key.length > kBlockSize then
    let (hashed, digest) := computeDigest digest key kBlockSize
    (hashed ++ List.replicate (kBlockSize - digest.size) 0, digest)
  else (key ++ List.replicate (kBlockSize - key.length) 0, digest)

/-- `ComputeHmac` with a digest. -/
def computeHmac (digest : OpenSSLDigest) (key input : Bytes) (outLen : ℕ) :
    Bytes × OpenSSLDigest :=
  if digest.size > 32 then ([], digest)
  else
    let (newKey, digest) := newKeyOf digest key
    let oPad := newKey.map fun b => 0x5c ^^^ b
    let iPad := newKey.map fun b => 0x36 ^^^ b
    let (inner, digest) := ((digest.update iPad).update input).finish digest.size
    ((digest.update oPad).update inner).finish outLen

/-- `ComputeHmac` with the name of an algorithm. -/
def computeHmacOf (evp : Evp) (alg : Str) (key input : Bytes) (outLen : ℕ) : Bytes :=
  match createDigest evp alg with
  | none => []
  | some digest => (computeHmac digest key input outLen).1

/-! ## The code computes HMACs -/

section

variable {H : Hmac.Digest} {key input buf : Bytes} {outLen : ℕ}

@[simp] theorem OpenSSLDigest.size_some (fed : Bytes) :
    (OpenSSLDigest.mk (some H) fed).size = H.size := rfl

@[simp] theorem OpenSSLDigest.update_some (fed buf : Bytes) :
    (OpenSSLDigest.mk (some H) fed).update buf = ⟨some H, fed ++ buf⟩ := rfl

/-- With room for the hash, the object starts over. -/
theorem OpenSSLDigest.finish_some {fed : Bytes} (h : H.size ≤ outLen) :
    (OpenSSLDigest.mk (some H) fed).finish outLen = (H.hash fed, ⟨some H, []⟩) :=
  if_neg (Nat.not_lt.mpr h)

theorem newKeyOf_fresh (hsize : H.size ≤ kBlockSize) :
    newKeyOf ⟨some H, []⟩ key = (Hmac.blockKey H kBlockSize key, ⟨some H, []⟩) := by
  unfold newKeyOf Hmac.blockKey
  split
  · rw [computeDigest, OpenSSLDigest.update_some, OpenSSLDigest.finish_some hsize]
    rfl
  · rfl

/-- The last of the three hashes is that of the outer input. -/
theorem computeHmac_fresh (hsize : H.size ≤ 32) : computeHmac ⟨some H, []⟩ key input outLen =
    (OpenSSLDigest.mk (some H) (Hmac.outer H kBlockSize key input)).finish outLen := by
  have hblock : H.size ≤ kBlockSize := Nat.le_trans hsize (by decide)
  unfold computeHmac
  rw [OpenSSLDigest.size_some, if_neg (Nat.not_lt.mpr hsize), newKeyOf_fresh hblock]
  dsimp only
  rw [OpenSSLDigest.update_some, OpenSSLDigest.update_some, OpenSSLDigest.size_some,
    OpenSSLDigest.finish_some (Nat.le_refl _)]
  rfl

/-- **`ComputeHmac` gives the HMAC or nothing**: nothing for an algorithm that it does not
know, or whose hash is longer than 32 bytes or than the output. -/
theorem computeHmacOf_eq (evp : Evp) (alg : Str) (key input : Bytes) (outLen : ℕ) :
    computeHmacOf evp alg key input outLen =
      match getDigestEvp evp alg with
      | none => []
      | some H => if H.size ≠ 0 ∧ H.size ≤ 32 ∧ H.size ≤ outLen then
          Hmac.hmac H kBlockSize key input else [] := by
  unfold computeHmacOf createDigest
  dsimp only
  cases getDigestEvp evp alg with
  | none => rfl
  | some H =>
      rw [OpenSSLDigest.size_some]
      by_cases hzero : H.size = 0
      · simp [hzero]
      · rw [if_neg hzero]
        dsimp only
        by_cases hsize : H.size ≤ 32
        · rw [computeHmac_fresh hsize]
          by_cases hout : H.size ≤ outLen
          · rw [OpenSSLDigest.finish_some hout, if_pos ⟨hzero, hsize, hout⟩]
            rfl
          · rw [if_neg fun h => hout h.2.2]
            unfold OpenSSLDigest.finish
            dsimp only
            rw [if_pos (Nat.not_le.mp hout)]
        · rw [if_neg fun h => hsize h.2.1]
          unfold computeHmac
          rw [OpenSSLDigest.size_some, if_pos (Nat.not_le.mp hsize)]

theorem getDigestEvp_sha1 (evp : Evp) : getDigestEvp evp (str "sha-1") = some evp.sha1 := rfl

end

end JuanSfu
