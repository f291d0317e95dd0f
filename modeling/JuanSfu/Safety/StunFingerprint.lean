import JuanSfu.System
import JuanSfu.Udp.StunAttributes

/-!
# The fingerprint check

`validate_fingerprint` does not walk over the attributes. It looks at the last
eight bytes of the datagram and takes them for a FINGERPRINT if they begin like
one, whatever they are: the end of a value, padding, the last word of one
attribute and the header of the next, or the end of the transaction id.
-/

namespace JuanSfu

open StunTlv StunPacket

/-- A STUN message as the protocol has it: the two bits in front of the type are
clear, the transaction id has 12 bytes, and the length field can count the
attributes. -/
structure StunMessage where
  type : UInt16
  transId : Bytes
  attris : List StunTlv
  type_lt : type.toNat < 16384
  transId_length : transId.length = 12
  fits : (encode attris).length < 65536

namespace StunMessage

variable {env : Env} {m : StunMessage}

def header (m : StunMessage) : Bytes :=
  putBE16 m.type ++ putBE16 (UInt16.ofNat (encode m.attris).length) ++
    putBE32 kStunMagicCookie ++ m.transId

def bytes (m : StunMessage) : Bytes := m.header ++ encode m.attris

theorem length_header (m : StunMessage) : m.header.length = stunHeaderSize := by
  simp [header, putBE16, putBE32, m.transId_length, stunHeaderSize]

/-- The check fires on a last attribute that is a FINGERPRINT, and on nothing
else. -/
structure FiresExactly (env : Env) (m : StunMessage) : Prop where
  silent : (∀ a ∈ m.attris.getLast?, a.type ≠ stunFingerprint) →
    validateFingerprint env m.bytes = true
  fires : ∀ before a, m.attris = before ++ [a] → a.type = stunFingerprint →
    (validateFingerprint env m.bytes = true ↔ a.value.length = 4 ∧
      getBE32 a.value 0 = env.crc32 (m.header ++ encode before) ^^^ stunFingerprintXorValue)
  passes : (∀ a ∈ m.attris, a.type ≠ stunFingerprint) → parse env m.bytes ≠ .ok none

/-! ## The last eight bytes -/

/-- The last eight bytes begin with the type of a FINGERPRINT. -/
def EndsLike (data : Bytes) : Prop :=
  getBE16 data (data.length - fingerPrintAttriSize) = stunFingerprint

/-- They go on with its length and the CRC of what stands in front of them. -/
def EndsRight (env : Env) (data : Bytes) : Prop :=
  getBE16 data (data.length - fingerPrintAttriSize + 2) = 4 ∧
    getBE32 data (data.length - fingerPrintAttriSize + 4) =
      env.crc32 (data.take (data.length - fingerPrintAttriSize)) ^^^ stunFingerprintXorValue

theorem validateFingerprint_iff {data : Bytes} : validateFingerprint env data = true ↔
    (EndsLike data → EndsRight env data) := by
  unfold validateFingerprint EndsLike EndsRight
  dsimp only
  by_cases htype : getBE16 data (data.length - fingerPrintAttriSize) = stunFingerprint
  · by_cases hlen : getBE16 data (data.length - fingerPrintAttriSize + 2) = 4
    · simp [htype, hlen]
    · simp [htype, hlen]
  · simp [htype]

theorem encode_append (attris attris' : List StunTlv) :
    encode (attris ++ attris') = encode attris ++ encode attris' := by
  simp [encode]

/-- A FINGERPRINT of the right length is the last eight bytes. -/
theorem validateFingerprint_last {before : List StunTlv} {a : StunTlv}
    (hattris : m.attris = before ++ [a]) (htype : a.type = stunFingerprint)
    (hlen : a.value.length = 4) : validateFingerprint env m.bytes = true ↔
      getBE32 a.value 0 = env.crc32 (m.header ++ encode before) ^^^ stunFingerprintXorValue := by
  have hpadding : a.padding = [] := by
    have hpad := a.padded
    rw [hlen] at hpad
    exact List.length_eq_zero_iff.mp hpad
  have hfour : a.len = 4 := by rw [len, hlen]; rfl
  have hdata : m.bytes = (m.header ++ encode before) ++
      (attriBytes stunFingerprint 4 a.value ++ []) := by
    rw [bytes, hattris, encode_append, encode_cons, StunTlv.bytes, hpadding, htype, hfour]
    simp [encode]
  have hfront : m.bytes.length - fingerPrintAttriSize = (m.header ++ encode before).length := by
    rw [hdata, List.length_append, List.append_nil,
      length_attriBytes, hlen]
    rfl
  have hattri : HasAttri m.bytes (encode before).length stunFingerprint 4 a.value :=
    ⟨_, _, hdata, by rw [List.length_append, length_header]⟩
  have hstart : (m.header ++ encode before).length = stunHeaderSize + (encode before).length := by
    rw [List.length_append, length_header]
  have hvalue : getBE32 m.bytes ((m.header ++ encode before).length + 4) = getBE32 a.value 0 := by
    have hword := getBE32_append (m.header ++ encode before ++ (putBE16 stunFingerprint ++
      putBE16 4)) a.value 0
    rw [hdata, List.append_nil, attriBytes, ← List.append_assoc]
    have hbefore : (m.header ++ encode before ++ (putBE16 stunFingerprint ++ putBE16 4)).length =
        (m.header ++ encode before).length + 4 := List.length_append
    rwa [hbefore] at hword
  have htake : m.bytes.take (m.header ++ encode before).length = m.header ++ encode before := by
    rw [hdata, List.take_left]
  rw [validateFingerprint_iff, EndsLike, EndsRight, hfront, hvalue, htake, hstart, hattri.type_eq,
    hattri.len_eq]
  simp

/-! ## What the classifier and the length check say -/

theorem length_encode_mod (attris : List StunTlv) : (encode attris).length % 4 = 0 := by
  induction attris with
  | nil => rfl
  | cons a attris ih =>
      have hpad := a.padded
      rw [encode_cons, List.length_append, length_bytes]
      omega

theorem lengthOk_bytes (m : StunMessage) : lengthOk m.bytes = true := by
  have hfield : getBE16 m.bytes 2 = UInt16.ofNat (encode m.attris).length := by
    refine getBE16_mid (putBE16 m.type) (putBE32 kStunMagicCookie ++ m.transId ++
      encode m.attris) ?_ rfl
    simp only [bytes, header, List.append_assoc]
  have hnat : (UInt16.ofNat (encode m.attris).length).toNat = (encode m.attris).length :=
    UInt16.toNat_ofNat_of_lt' m.fits
  have hword : UInt16.ofNat (encode m.attris).length &&& 0x03 = 0 := by
    rw [← UInt16.toNat_inj, UInt16.toNat_and, hnat]
    show (encode m.attris).length &&& 2 ^ 2 - 1 = 0
    rw [Nat.and_two_pow_sub_one_eq_mod]
    exact length_encode_mod m.attris
  rw [lengthOk, hfield, hnat, hword, bytes, List.length_append, length_header]
  simp [Nat.add_comm]

/-- A message is parsed if it is classified as one and passes the check. -/
theorem parse_bytes_eq_none : parse env m.bytes = .ok none ↔
    ¬ (isStun m.bytes = true ∧ validateFingerprint env m.bytes = true) := by
  by_cases hstun : isStun m.bytes = true
  · rw [parse_eq_none env hstun, accepts, lengthOk_bytes, Bool.true_and]
    simp [hstun]
  · unfold parse
    simp [hstun]

/-! ## When the check fires as it should -/

/-- The condition on the last eight bytes, and on the type for the classifier. -/
structure TailTells (env : Env) (m : StunMessage) : Prop where
  /-- What only looks like a FINGERPRINT happens to be right. -/
  silent : (∀ a ∈ m.attris.getLast?, a.type ≠ stunFingerprint) →
    EndsLike m.bytes → EndsRight env m.bytes
  /-- In a FINGERPRINT of another length something looks like a wrong one. -/
  fires : ∀ a ∈ m.attris.getLast?, a.type = stunFingerprint → a.value.length ≠ 4 →
    EndsLike m.bytes ∧ ¬ EndsRight env m.bytes
  passes : (∀ a ∈ m.attris, a.type ≠ stunFingerprint) → isStun m.bytes = true

/-- **The fingerprint check fires exactly on fingerprints if and only if the last
eight bytes tell**, for every message and whatever the CRC. -/
theorem firesExactly_iff (env : Env) (m : StunMessage) :
    FiresExactly env m ↔ TailTells env m := by
  have hlast : ∀ before a, m.attris = before ++ [a] → m.attris.getLast? = some a := by
    intro before a h
    rw [h, List.getLast?_concat]
  constructor
  · rintro ⟨hsilent, hfires, hpasses⟩
    refine ⟨fun hno => validateFingerprint_iff.mp (hsilent hno), ?_, ?_⟩
    · intro a ha htype hlen
      obtain ⟨before, hattris⟩ := List.getLast?_eq_some_iff.mp ha
      have hfalse : ¬ validateFingerprint env m.bytes = true :=
        fun h => hlen ((hfires before a hattris htype).mp h).1
      rwa [validateFingerprint_iff, Classical.not_imp] at hfalse
    · intro hno
      have hparse := hpasses hno
      rw [ne_eq, parse_bytes_eq_none, not_not] at hparse
      exact hparse.1
  · rintro ⟨hsilent, hfires, hpasses⟩
    refine ⟨fun hno => validateFingerprint_iff.mpr (hsilent hno), ?_, ?_⟩
    · intro before a hattris htype
      by_cases hlen : a.value.length = 4
      · rw [validateFingerprint_last hattris htype hlen]
        simp [hlen]
      · have hwrong := hfires a (hlast before a hattris) htype hlen
        rw [validateFingerprint_iff]
        exact ⟨fun h => absurd (h hwrong.1) hwrong.2, fun h => absurd h.1 hlen⟩
    · intro hno
      have hlastno : ∀ a ∈ m.attris.getLast?, a.type ≠ stunFingerprint :=
        fun a ha => hno a (List.mem_of_getLast? ha)
      rw [ne_eq, parse_bytes_eq_none, not_not]
      exact ⟨hpasses hno, validateFingerprint_iff.mpr (hsilent hlastno)⟩

/-- A binding request without attributes; its transaction id has the bytes 80 28
in the middle. -/
def bareMessage : StunMessage where
  type := 1
  transId := [0, 0, 0, 0, 0x80, 0x28, 0, 0, 0, 0, 0, 0]
  attris := []
  type_lt := by decide
  transId_length := rfl
  fits := by decide

theorem bareMessage_rejected : parse Sample.env bareMessage.bytes = .ok none ∧
    ¬ FiresExactly Sample.env bareMessage := by
  have hparse : parse Sample.env bareMessage.bytes = .ok none := by
    rw [parse_bytes_eq_none]
    decide
  exact ⟨hparse, fun h => h.passes (by decide) hparse⟩

end StunMessage

end JuanSfu
