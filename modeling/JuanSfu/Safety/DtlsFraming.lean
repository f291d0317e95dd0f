import JuanSfu.Safety.DtlsDelivery

/-!
# The framing of a datagram by pointer and size

`recordsLoop` goes over what is left of a datagram. The source has a pointer
instead, which moves on, and an unsigned size, from which as much is taken, and
the numbers come from the sender. Here the loop is written with both: a read is
one of the whole datagram at an offset, and a difference wraps around. The
invariant is that pointer and size add up to the length of the datagram.
-/

namespace JuanSfu

/-- `a - b` on `size_t`. -/
def sizeSub (a b : ℕ) : ℕ := if b ≤ a then a - b else a + 18446744073709551616 - b

/-- The byte at this distance from the start of the datagram. -/
def byteAt (datagram : Bytes) (i : ℕ) : Result UInt8 :=
  match datagram[i]? with
  | some b => .ok b
  | none => .error .readPastDatagram

namespace RtcDtls

/-- The loop of `do_handle_dtls_packet`; `data` is how far the pointer has come. -/
def framingLoop (datagram : Bytes) : ℕ → ℕ → ℕ → Result Bool
  | 0, _, _ => .error .diverged
  | fuel + 1, data, tmpSize =>
      if tmpSize > 0 then
        if tmpSize < kDtlsRecordHeaderLen then .ok false
        else do
          let high ← byteAt datagram (data + 11)
          let low ← byteAt datagram (data + 12)
          let recordLen := high.toNat <<< 8 ||| low.toNat
          if recordLen + kDtlsRecordHeaderLen > tmpSize then
            return false
          framingLoop datagram fuel (data + (kDtlsRecordHeaderLen + recordLen))
            (sizeSub tmpSize (kDtlsRecordHeaderLen + recordLen))
      else .ok true

/-- `do_handle_dtls_packet`, whatever `on_packet_receive` does to a state of its
own. It gets `temp`, the start of the datagram, and `len`; `_downward` is never
null. -/
def doHandleDtlsPacketAt {σ : Type} (onPacketReceive : Bytes → σ → Bool × σ)
    (datagram : Bytes) (s : σ) : Result (Bool × σ) := do
  if !(← framingLoop datagram (datagram.length + 1) 0 datagram.length) then
    return (false, s)
  return onPacketReceive (substr datagram 0 datagram.length) s

end RtcDtls

/-! ## The loop -/

theorem byteAt_of_lt {datagram : Bytes} {data i : ℕ} (h : data + i < datagram.length) :
    byteAt datagram (data + i) = .ok ((datagram.drop data).getD i 0) := by
  rw [byteAt, List.getElem?_eq_getElem h, List.getD_eq_getElem?_getD, List.getElem?_drop,
    List.getElem?_eq_getElem h]
  rfl

theorem toNat_getBE16 (data : Bytes) (i : ℕ) :
    (getBE16 data i).toNat = (data.getD i 0).toNat <<< 8 ||| (data.getD (i + 1) 0).toNat := by
  have hhigh := (data.getD i 0).toNat_lt
  have hshift : (data.getD i 0).toNat <<< 8 < 2 ^ 16 := by
    rw [Nat.shiftLeft_eq]
    omega
  simp only [getBE16, UInt16.toNat_or, UInt16.toNat_shiftLeft, UInt8.toNat_toUInt16,
    UInt16.reduceToNat, Nat.reduceMod]
  rw [Nat.mod_eq_of_lt hshift]

namespace RtcDtls

/-- **The loop decides whether what is left is records**, without a read past the
end: `data` and `tmpSize` add up to the length of the datagram. -/
theorem framingLoop_eq {datagram : Bytes} {fuel data tmpSize : ℕ}
    (hlen : data + tmpSize = datagram.length) (hfuel : tmpSize < fuel) :
    framingLoop datagram fuel data tmpSize = .ok (decide (IsRecords (datagram.drop data))) := by
  induction fuel generalizing data tmpSize with
  | zero => exact absurd hfuel (Nat.not_lt_zero _)
  | succ fuel ih =>
      have hrest : (datagram.drop data).length = tmpSize := by
        rw [List.length_drop]
        omega
      rw [framingLoop]
      rcases Nat.eq_zero_or_pos tmpSize with rfl | hpos
      · have hnil := List.length_eq_zero_iff.mp hrest
        rw [if_neg (Nat.lt_irrefl 0), hnil]
        rfl
      · have hne : datagram.drop data ≠ [] := List.ne_nil_of_length_pos (hrest.symm ▸ hpos)
        have hframes : IsRecords (datagram.drop data) ↔ _ := dtlsFraming.isFrames_iff hne
        rw [hrest] at hframes
        rw [if_pos hpos]
        by_cases hshort : tmpSize < kDtlsRecordHeaderLen
        · have hheader := dtlsFraming.headerLen_le_frameLen (datagram.drop data)
          rw [if_pos hshort, decide_eq_false]
          intro hrecords
          exact Nat.not_le_of_lt hshort (Nat.le_trans hheader (hframes.mp hrecords).1)
        · rw [if_neg hshort, byteAt_of_lt (by rw [kDtlsRecordHeaderLen] at hshort; omega), ok_bind,
            byteAt_of_lt (by rw [kDtlsRecordHeaderLen] at hshort; omega), ok_bind,
            ← toNat_getBE16]
          have hframe : kDtlsRecordHeaderLen + (getBE16 (datagram.drop data) 11).toNat =
              dtlsFraming.frameLen (datagram.drop data) := rfl
          dsimp only
          rw [Nat.add_comm _ kDtlsRecordHeaderLen, hframe]
          by_cases hfit : dtlsFraming.frameLen (datagram.drop data) > tmpSize
          · rw [if_pos hfit, decide_eq_false]
            · rfl
            · exact fun hrecords => Nat.not_le_of_lt hfit (hframes.mp hrecords).1
          · -- what is taken is there, so the difference does not wrap
            have hle := Nat.le_of_not_lt hfit
            have hheader := dtlsFraming.headerLen_le_frameLen (datagram.drop data)
            have hheaderLen : dtlsFraming.headerLen = 13 := rfl
            rw [if_neg hfit, sizeSub, if_pos hle, ih (by omega) (by omega), ← List.drop_drop]
            congr 1
            rw [decide_eq_decide, hframes]
            exact (and_iff_right hle).symm

theorem doHandleDtlsPacketAt_eq {σ : Type} (onPacketReceive : Bytes → σ → Bool × σ)
    (data : Bytes) (s : σ) :
    doHandleDtlsPacketAt onPacketReceive data s =
      .ok (if IsRecords data then onPacketReceive data s else (false, s)) := by
  have hloop := framingLoop_eq (Nat.zero_add data.length) (Nat.lt_succ_self _)
  rw [List.drop_zero] at hloop
  have hwhole : substr data 0 data.length = data := List.take_length
  rw [doHandleDtlsPacketAt, hloop, ok_bind, hwhole]
  by_cases h : IsRecords data
  · rw [decide_eq_true h, if_pos h]
    rfl
  · rw [decide_eq_false h, if_neg h]
    rfl

/-- What is left of the datagram and pointer and size come to the same. -/
theorem doHandleDtlsPacketAt_refines (d : RtcDtls) (data : Bytes) (acts : List AdapterAct) :
    doHandleDtlsPacketAt (fun packet s => s.1.onPacketReceive packet acts) data (d, []) =
      .ok (d.doHandleDtlsPacket data acts) := by
  rw [doHandleDtlsPacketAt_eq, doHandleDtlsPacket]
  simp only [recordsLoop_iff (Nat.le_refl data.length)]

/-- **The framing is exact**: whatever `on_packet_receive` is, it is called once
and with the datagram as it came if that is made of complete records; otherwise
the result is `false` and nothing has changed. -/
theorem doHandleDtlsPacket_exact (d : RtcDtls) (data : Bytes) (acts : List AdapterAct) :
    (∀ (σ : Type) (onPacketReceive : Bytes → σ → Bool × σ) (s : σ),
      doHandleDtlsPacketAt onPacketReceive data s =
        .ok (if IsRecords data then onPacketReceive data s else (false, s))) ∧
    d.doHandleDtlsPacket data acts =
      if IsRecords data then d.onPacketReceive data acts else (false, d, []) := by
  refine ⟨fun σ onPacketReceive s => doHandleDtlsPacketAt_eq onPacketReceive data s, ?_⟩
  have hrefines := d.doHandleDtlsPacketAt_refines data acts
  rw [doHandleDtlsPacketAt_eq] at hrefines
  exact (Except.ok.inj hrefines).symm

end RtcDtls

end JuanSfu
