import JuanSfu.Base
import JuanSfu.Lib.Crc

/-!
# `rtc_base/crc32.cc`

The table has the eight shifts of every byte, and `UpdateCrc32` moves the register
on by a byte at a time with it. So it computes the CRC that takes the bits of the
buffer one by one, and what it returns goes on where it stopped.
-/

namespace JuanSfu

open Crc

def kCrc32Polynomial : UInt32 := 0xEDB88320

/-- One turn of the inner loop of `LoadCrc32Table`. -/
def crc32Shift (c : UInt32) : UInt32 :=
  if c &&& 1 ≠ 0 then kCrc32Polynomial ^^^ (c >>> 1) else c >>> 1

def loadCrc32Table : List UInt32 :=
  (List.range 256).map fun i => crc32Shift^[8] (UInt32.ofNat i)

/-- One turn of the loop of `UpdateCrc32`. -/
def crc32Byte (c : UInt32) (u : UInt8) : UInt32 :=
  loadCrc32Table.getD ((c ^^^ u.toUInt32) &&& 0xFF).toNat 0 ^^^ (c >>> 8)

def updateCrc32 (start : UInt32) (buf : Bytes) : UInt32 :=
  buf.foldl crc32Byte (start ^^^ 0xFFFFFFFF) ^^^ 0xFFFFFFFF

def computeCrc32 (buf : Bytes) : UInt32 := updateCrc32 0 buf

/-! ## Bit by bit -/

def byteBits (u : UInt8) : List Bool := (List.range 8).map u.toBitVec.getLsbD

/-- The bits of a buffer, of every byte the least significant first: the order in which
this CRC takes them, not that in which `stun.cpp` draws a header. -/
def bits (buf : Bytes) : List Bool := buf.flatMap byteBits

/-- The CRC as it is defined: one bit, one shift. -/
def crc32Spec (start : UInt32) (buf : Bytes) : UInt32 :=
  .ofBitVec (register kCrc32Polynomial.toBitVec (start ^^^ 0xFFFFFFFF).toBitVec (bits buf)) ^^^
    0xFFFFFFFF

@[simp] theorem length_byteBits (u : UInt8) : (byteBits u).length = 8 := by
  simp [byteBits]

@[simp] theorem length_bits (buf : Bytes) : (bits buf).length = 8 * buf.length := by
  induction buf with
  | nil => rfl
  | cons u buf ih =>
      rw [bits, List.flatMap_cons, List.length_append, length_byteBits]
      show 8 + (bits buf).length = _
      rw [ih, List.length_cons]
      omega

theorem bits_append (buf buf' : Bytes) : bits (buf ++ buf') = bits buf ++ bits buf' :=
  List.flatMap_append

theorem byteBits_injective : Function.Injective byteBits := by
  intro u v h
  apply UInt8.toBitVec_inj.mp
  ext i hi
  exact List.map_inj_left.mp h i (List.mem_range.mpr hi)

theorem bits_injective : Function.Injective bits := by
  intro buf
  induction buf with
  | nil =>
      intro buf' h
      have hlen := congrArg List.length h
      rw [length_bits, length_bits, List.length_nil] at hlen
      exact (List.eq_nil_of_length_eq_zero (by omega)).symm
  | cons u buf ih =>
      rintro (_ | ⟨v, buf'⟩) h
      · have hlen := congrArg List.length h
        simp at hlen
      · obtain ⟨hbyte, hrest⟩ := List.append_inj h (by simp)
        rw [byteBits_injective hbyte, ih hrest]

theorem bits_take (buf : Bytes) (k : ℕ) : bits (buf.take k) = (bits buf).take (8 * k) := by
  by_cases hk : k ≤ buf.length
  · have hlen : (bits (buf.take k)).length = 8 * k := by
      rw [length_bits, List.length_take, Nat.min_eq_left hk]
    rw [← hlen]
    nth_rewrite 3 [← List.take_append_drop k buf]
    rw [bits_append, List.take_left]
  · rw [List.take_of_length_le (Nat.le_of_not_le hk), List.take_of_length_le]
    rw [length_bits]
    omega

theorem bits_drop (buf : Bytes) (k : ℕ) : bits (buf.drop k) = (bits buf).drop (8 * k) := by
  have h := congrArg bits (List.take_append_drop k buf)
  rw [bits_append, bits_take] at h
  exact List.append_cancel_left (h.trans (List.take_append_drop (8 * k) (bits buf)).symm)

/-! ## The table -/

theorem crc32Shift_toBitVec (c : UInt32) :
    (crc32Shift c).toBitVec = shift kCrc32Polynomial.toBitVec c.toBitVec := by
  have hbit : c &&& 1 ≠ 0 ↔ c.toBitVec.getLsbD 0 = true := by
    have hand : (c &&& 1).toBitVec = (BitVec.ofBool (c.toBitVec.getLsbD 0)).setWidth 32 := by
      rw [UInt32.toBitVec_and]
      exact BitVec.and_one_eq_setWidth_ofBool_getLsbD
    rw [← UInt32.toBitVec_inj.ne, hand]
    cases c.toBitVec.getLsbD 0 <;> decide
  unfold crc32Shift shift
  by_cases h : c &&& 1 ≠ 0
  · rw [if_pos h, if_pos (hbit.mp h)]
    rfl
  · rw [if_neg h, if_neg (mt hbit.mpr h)]
    rfl

theorem iterate_crc32Shift (n : ℕ) (c : UInt32) : (crc32Shift^[n] c).toBitVec =
    (shift kCrc32Polynomial.toBitVec)^[n] c.toBitVec := by
  induction n generalizing c with
  | zero => rfl
  | succ n ih => rw [Function.iterate_succ_apply, ih, crc32Shift_toBitVec]; rfl

/-- The index is always in the table. -/
theorem loadCrc32Table_and (c : UInt32) :
    loadCrc32Table.getD (c &&& 0xFF).toNat 0 = crc32Shift^[8] (c &&& 0xFF) := by
  have hlt : (c &&& 0xFF).toNat < 256 := by
    rw [UInt32.toNat_and]
    exact Nat.lt_of_le_of_lt Nat.and_le_right (by decide)
  rw [loadCrc32Table, List.getD_eq_getElem?_getD, List.getElem?_map, List.getElem?_range hlt]
  simp

theorem pattern_byteBits (u : UInt8) : pattern 32 (byteBits u) = u.toUInt32.toBitVec := by
  ext i hi
  rw [getElem_pattern, byteBits, List.getD_eq_getElem?_getD, List.getElem?_map]
  by_cases h8 : i < 8
  · simp [List.getElem?_range h8]
  · simp [Nat.not_lt.mp h8]

/-- One byte through the table is eight bits through the register. -/
theorem crc32Byte_toBitVec (c : UInt32) (u : UInt8) : (crc32Byte c u).toBitVec =
    register kCrc32Polynomial.toBitVec c.toBitVec (byteBits u) := by
  have hhigh : u.toUInt32.toBitVec >>> 8 = 0#32 := by
    ext i hi
    simp
  rw [register_eq_iterate _ (by simp), length_byteBits, pattern_byteBits, iterate_shift_table,
    crc32Byte, loadCrc32Table_and, UInt32.toBitVec_xor, iterate_crc32Shift,
    BitVec.ushiftRight_xor_distrib, hhigh, BitVec.xor_zero]
  rfl

theorem foldl_crc32Byte (buf : Bytes) (c : UInt32) : (buf.foldl crc32Byte c).toBitVec =
    register kCrc32Polynomial.toBitVec c.toBitVec (bits buf) := by
  induction buf generalizing c with
  | nil => rfl
  | cons u buf ih =>
      rw [List.foldl_cons, ih, crc32Byte_toBitVec, ← register_append]
      rfl

/-- **The table is an optimisation**: whatever the start and the buffer, `UpdateCrc32`
returns the CRC taken bit by bit. -/
theorem updateCrc32_eq (start : UInt32) (buf : Bytes) :
    updateCrc32 start buf = crc32Spec start buf := by
  rw [updateCrc32, crc32Spec, ← foldl_crc32Byte, UInt32.ofBitVec_toBitVec]

/-- The checksum of a buffer goes on from that of its front. -/
theorem updateCrc32_append (start : UInt32) (buf buf' : Bytes) :
    updateCrc32 start (buf ++ buf') = updateCrc32 (updateCrc32 start buf) buf' := by
  unfold updateCrc32
  rw [List.foldl_append, UInt32.xor_assoc, UInt32.xor_self, UInt32.xor_zero]

/-! ## Bursts -/

theorem computeCrc32_burst {buf buf' : Bytes} (h : Burst 32 (bits buf) (bits buf')) :
    computeCrc32 buf ≠ computeCrc32 buf' := by
  intro heq
  rw [computeCrc32, computeCrc32, updateCrc32_eq, updateCrc32_eq] at heq
  have hregister := UInt32.toBitVec_inj.mpr ((UInt32.xor_left_inj _).mp heq)
  exact h.register_ne (by decide) _ hregister

end JuanSfu
