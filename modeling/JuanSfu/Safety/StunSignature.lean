import JuanSfu.RtcBase.MessageDigest
import JuanSfu.Safety.StunIntegrity

/-!
# What the signature of a STUN message is good for

`validate` has `ComputeHmac` sign what stands in front of a MESSAGE-INTEGRITY with the
ice password. A value that it accepts stands for one password and one front: if two
packets are accepted with the same value, then these agree, or the packets show two
inputs that SHA-1 does not tell apart.
-/

namespace JuanSfu

namespace StunPacket

variable {env : Env} {evp : Evp} {param param' : IceParameter} {data data' : Bytes}

/-- The library signs with the source's `ComputeHmac`, over a SHA-1 of 20 bytes. -/
structure SignsWith (env : Env) (evp : Evp) : Prop where
  hmacSha1 (key : Str) (input : Bytes) : env.hmacSha1 key input =
    computeHmacOf evp (str "sha-1") key input kStunMessageIntegritySize
  size : evp.sha1.size = kStunMessageIntegritySize

theorem SignsWith.eq_hmac (h : SignsWith env evp) (key : Str) (input : Bytes) :
    env.hmacSha1 key input = Hmac.hmac evp.sha1 kBlockSize key input := by
  have hroom : evp.sha1.size ≠ 0 ∧ evp.sha1.size ≤ 32 ∧
      evp.sha1.size ≤ kStunMessageIntegritySize := by
    rw [h.size]
    decide
  rw [h.hmacSha1, computeHmacOf_eq, getDigestEvp_sha1]
  exact if_pos hroom

/-- What `memcmp` compares of a value: 20 bytes of its C string. -/
def compared (hmacSha1 : Bytes) : Bytes := (hmacSha1 ++ [0]).take kStunMessageIntegritySize

/-- The packet is accepted, and `value` is what was compared of its MESSAGE-INTEGRITY
at `endpos`, however long that is. -/
structure AcceptsValue (env : Env) (param : IceParameter) (data : Bytes) (endpos : ℕ)
    (value : Bytes) : Prop where
  length_ge : 4 ≤ data.length
  accepted : ∃ sp : StunPacket, ∃ len hmacSha1 data',
    .integrity len endpos hmacSha1 ∈ sp.attris ∧ compared hmacSha1 = value ∧
      sp.validate env param data = .ok (true, data')

theorem AcceptsValue.eq_hmac (hs : SignsWith env evp) {endpos : ℕ} {value : Bytes}
    (h : AcceptsValue env param data endpos value) :
    value = Hmac.hmac evp.sha1 kBlockSize param.passwd (signedPrefix data endpos) := by
  obtain ⟨sp, len, hmacSha1, data', hmem, hvalue, hvalidate⟩ := h.accepted
  obtain ⟨-, hsame⟩ := validateLoop_true h.length_ge hvalidate _ hmem
  rw [← hvalue, ← hs.eq_hmac]
  exact hsame.symm

/-- SHA-1 inputs of the two signatures collide, the outer ones or the inner ones. -/
def SignaturesCollide (evp : Evp) (param param' : IceParameter) (front front' : Bytes) : Prop :=
  Hmac.Collides evp.sha1 (Hmac.outer evp.sha1 kBlockSize param.passwd front)
      (Hmac.outer evp.sha1 kBlockSize param'.passwd front') ∨
    Hmac.Collides evp.sha1 (Hmac.inner evp.sha1 kBlockSize param.passwd front)
      (Hmac.inner evp.sha1 kBlockSize param'.passwd front')

/-- **A signature binds**: packets that are accepted with the same 20 bytes of a
MESSAGE-INTEGRITY, under one password or under two of one length of up to 64, have the
same bytes in front of it and were signed with the same password; otherwise the two
packets are a collision of SHA-1. -/
theorem signature_binds (hs : SignsWith env evp) {endpos endpos' : ℕ} {value : Bytes}
    (h : AcceptsValue env param data endpos value)
    (h' : AcceptsValue env param' data' endpos' value)
    (hpasswd : param.passwd = param'.passwd ∨
      param.passwd.length = param'.passwd.length ∧ param.passwd.length ≤ kBlockSize) :
    (param.passwd = param'.passwd ∧ signedPrefix data endpos = signedPrefix data' endpos') ∨
      SignaturesCollide evp param param' (signedPrefix data endpos)
        (signedPrefix data' endpos') := by
  have hblock : evp.sha1.size ≤ kBlockSize := by
    rw [hs.size]
    decide
  rcases Hmac.eq_or_collides hblock ((h.eq_hmac hs).symm.trans (h'.eq_hmac hs)) with
    ⟨hkey, hfront⟩ | hcollides
  · rcases hpasswd with hsame | ⟨hlen, hshort⟩
    · exact Or.inl ⟨hsame, hfront⟩
    · exact Or.inl ⟨Hmac.blockKey_inj hlen hshort hkey, hfront⟩
  · exact Or.inr hcollides

/-! A request signed with the password `p...p`, alone and with eight bytes behind it; of
SHA-1 the three inputs that matter are enough. -/

def signingKey : IceParameter := { ufrag := str "a", passwd := List.replicate 24 0x70 }

/-- What is signed: up to the USERNAME, with the length that ends after the value. -/
def signedFront : Bytes :=
  [0, 1, 0, 32, 0x21, 0x12, 0xA4, 0x42] ++ List.replicate 12 0 ++ [0, 6, 0, 3] ++ str "a:b" ++ [0]

def innerHash : Bytes :=
  [201, 245, 97, 204, 147, 184, 196, 245, 102, 66, 248, 146, 28, 68, 19, 151, 61, 57, 4, 240]

def signature : Bytes :=
  [246, 108, 172, 109, 235, 222, 21, 62, 146, 120, 145, 108, 46, 124, 93, 225, 174, 24, 111, 198]

/-- The key and its padding to a block, under a mask. -/
def maskedKey (mask : UInt8) : Bytes :=
  (List.replicate 24 (0x70 : UInt8) ++ List.replicate 40 0).map (mask ^^^ ·)

def knownSha1 : Hmac.Digest where
  size := 20
  hash m :=
    if m = maskedKey 0x36 ++ signedFront then innerHash
    else if m = maskedKey 0x5c ++ innerHash then signature
    else List.replicate 20 0
  length_hash m := by
    split
    · rfl
    · split <;> rfl

def signingEvp : Evp :=
  ⟨knownSha1, knownSha1, knownSha1, knownSha1, knownSha1, knownSha1⟩

def signingEnv : Env :=
  { Sample.env with
    hmacSha1 := fun key input =>
      computeHmacOf signingEvp (str "sha-1") key input kStunMessageIntegritySize }

/-- The request, with `rest` behind the MESSAGE-INTEGRITY and the length `len`. -/
def signedBytes (len : UInt8) (rest : Bytes) : Bytes :=
  [0, 1, 0, len] ++ signedFront.drop 4 ++ [0, 8, 0, 20] ++ signature ++ rest

theorem acceptsValue_signedBytes {len : UInt8} {rest : Bytes}
    (hfront : signedPrefix (signedBytes len rest) 28 = signedFront) :
    AcceptsValue signingEnv signingKey (signedBytes len rest) 28 signature := by
  have hmac : signingEnv.hmacSha1 signingKey.passwd signedFront = signature := by decide +kernel
  refine ⟨?_, ⟨[], .request, binding, [.integrity 20 28 signature]⟩, 20, signature,
    signedBytes len rest, List.mem_singleton.mpr rfl, rfl, ?_⟩
  · exact Nat.le_add_left 4 _
  · have hchecks : Checks signingEnv signingKey (signedBytes len rest)
        (.integrity 20 28 signature) := by
      show (signingEnv.hmacSha1 signingKey.passwd (signedPrefix (signedBytes len rest) 28)).length =
        _ ∧ signingEnv.hmacSha1 signingKey.passwd (signedPrefix (signedBytes len rest) 28) = _
      rw [hfront, hmac]
      exact ⟨rfl, rfl⟩
    exact validateLoop_passes (Nat.le_add_left 4 _) hchecks []

theorem signature_binds_resent :
    (signingKey.passwd = signingKey.passwd ∧ signedPrefix (signedBytes 32 []) 28 =
        signedPrefix (signedBytes 40 (List.replicate 8 1)) 28) ∨
      SignaturesCollide signingEvp signingKey signingKey (signedPrefix (signedBytes 32 []) 28)
        (signedPrefix (signedBytes 40 (List.replicate 8 1)) 28) :=
  signature_binds ⟨fun _ _ => rfl, rfl⟩ (acceptsValue_signedBytes rfl)
    (acceptsValue_signedBytes rfl) (Or.inl rfl)

end StunPacket

end JuanSfu
