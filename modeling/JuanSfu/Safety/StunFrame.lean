import JuanSfu.System
import JuanSfu.Udp.StunAttributes

/-!
# What the check of the credentials leaves in the datagram

`validate` is given the datagram as `const` and writes into it: for each
MESSAGE-INTEGRITY it sets the length field of the header, and it sets the field
back only behind a comparison that succeeds. So what is left depends on the
attribute at which the check stops.
-/

namespace JuanSfu

namespace StunPacket

variable {env : Env} {param : IceParameter} {data : Bytes}

/-- `validate` returns, and every byte of the datagram is what it was. -/
def LeavesDatagram (env : Env) (sp : StunPacket) (param : IceParameter) (data : Bytes) : Prop :=
  ∃ verdict, sp.validate env param data = .ok (verdict, data)

/-- The length field has the value already that is written for the
MESSAGE-INTEGRITY at `endpos`, and if it comes to a comparison there are the
bytes to compare, a last one being that which ends a string. -/
def RewriteUnseen (env : Env) (param : IceParameter) (data : Bytes) (endpos : ℕ)
    (hmacSha1 : Bytes) : Prop :=
  getBE16 data 2 = integrityLen endpos ∧
    ((env.hmacSha1 param.passwd (signedPrefix data endpos)).length = kStunMessageIntegritySize →
      kStunMessageIntegritySize ≤ hmacSha1.length + 1)

/-- If the first attribute that fails its check is a MESSAGE-INTEGRITY, the
datagram has the right length for it. -/
def StopsUnseen (env : Env) (param : IceParameter) (data : Bytes)
    (attris : List StunAttribute) : Prop :=
  ∀ before len endpos hmacSha1 after,
    attris = before ++ .integrity len endpos hmacSha1 :: after →
    (∀ a ∈ before, Checks env param data a) →
    ¬ Checks env param data (.integrity len endpos hmacSha1) →
    RewriteUnseen env param data endpos hmacSha1

/-! ## The length field -/

theorem setMsgLen_setMsgLen (hlen : 4 ≤ data.length) (len len' : UInt16) :
    setMsgLen (setMsgLen data len) len' = setMsgLen data len' := by
  have htake : (data.take 2).length = 2 := List.length_take_of_le (by omega)
  have hbefore : (setMsgLen data len).take 2 = data.take 2 := by
    rw [setMsgLen, List.append_assoc, List.take_left' htake]
  have hbehind : (setMsgLen data len).drop 4 = data.drop 4 := by
    apply List.drop_left'
    rw [List.length_append, htake]
    rfl
  rw [setMsgLen, hbefore, hbehind]
  rfl

theorem setMsgLen_eq_iff (hlen : 4 ≤ data.length) {len : UInt16} :
    setMsgLen data len = data ↔ getBE16 data 2 = len := by
  constructor
  · intro h
    have hfield : getBE16 (setMsgLen data len) 2 = len := by
      apply getBE16_mid (data.take 2) (data.drop 4)
      · rw [setMsgLen, List.append_assoc]
      · rw [List.length_take]
        omega
    rwa [h] at hfield
  · rintro rfl
    rw [← setMsgLen_setMsgLen hlen 0, setMsgLen_restore hlen]

/-! ## Where the check stops -/

theorem stopsAt_leaves (hlen : 4 ≤ data.length) (a : StunAttribute) :
    (∃ verdict, stopsAt env param data a = .ok (verdict, data)) ↔
      ∀ len endpos hmacSha1, a = .integrity len endpos hmacSha1 →
        RewriteUnseen env param data endpos hmacSha1 := by
  cases a with
  | integrity len endpos hmacSha1 =>
      have hunseen : (∀ len' endpos' hmacSha1', StunAttribute.integrity len endpos hmacSha1 =
          .integrity len' endpos' hmacSha1' → RewriteUnseen env param data endpos' hmacSha1') ↔
          RewriteUnseen env param data endpos hmacSha1 := by
        constructor
        · exact fun h => h len endpos hmacSha1 rfl
        · rintro h _ _ _ ⟨⟩
          exact h
      rw [hunseen, RewriteUnseen, ← setMsgLen_eq_iff hlen, stopsAt]
      by_cases hshort : (env.hmacSha1 param.passwd (signedPrefix data endpos)).length =
          kStunMessageIntegritySize ∧ hmacSha1.length + 1 < kStunMessageIntegritySize
      · rw [if_pos hshort]
        constructor
        · rintro ⟨verdict, h⟩
          cases h
        · rintro ⟨-, hlong⟩
          have := hlong hshort.1
          omega
      · rw [if_neg hshort]
        constructor
        · rintro ⟨verdict, h⟩
          refine ⟨congrArg (·.2) (Except.ok.inj h), fun hsize => ?_⟩
          by_contra hlong
          exact hshort ⟨hsize, by omega⟩
        · rintro ⟨hsame, -⟩
          exact ⟨false, by rw [hsame]⟩
  | _ => exact ⟨fun _ _ _ _ h => (by cases h), fun _ => ⟨false, rfl⟩⟩

theorem stopsUnseen_cons {a : StunAttribute} {attris : List StunAttribute} :
    StopsUnseen env param data (a :: attris) ↔
      (¬ Checks env param data a → ∀ len endpos hmacSha1, a = .integrity len endpos hmacSha1 →
        RewriteUnseen env param data endpos hmacSha1) ∧
      (Checks env param data a → StopsUnseen env param data attris) := by
  constructor
  · intro h
    refine ⟨?_, ?_⟩
    · rintro hno len endpos hmacSha1 rfl
      exact h [] len endpos hmacSha1 attris rfl (by simp) hno
    · rintro hchecks before len endpos hmacSha1 after rfl hall hno
      exact h (a :: before) len endpos hmacSha1 after rfl
        (List.forall_mem_cons.mpr ⟨hchecks, hall⟩) hno
  · rintro ⟨hstop, hgo⟩ before len endpos hmacSha1 after heq hall hno
    rcases before with - | ⟨b, before⟩
    · obtain ⟨rfl, -⟩ := List.cons.inj heq
      exact hstop hno len endpos hmacSha1 rfl
    · obtain ⟨rfl, rfl⟩ := List.cons.inj heq
      rw [List.forall_mem_cons] at hall
      exact hgo hall.1 before len endpos hmacSha1 after rfl hall.2 hno

theorem validateLoop_leaves (hlen : 4 ≤ data.length) {attris : List StunAttribute} :
    (∃ verdict, validateLoop env param attris data = .ok (verdict, data)) ↔
      StopsUnseen env param data attris := by
  induction attris with
  | nil => exact iff_of_true ⟨true, rfl⟩ (by rintro (- | _) _ _ _ _ ⟨⟩)
  | cons a attris ih =>
      rw [stopsUnseen_cons]
      by_cases hchecks : Checks env param data a
      · rw [validateLoop_passes hlen hchecks, ih]
        exact ⟨fun h => ⟨fun hno => absurd hchecks hno, fun _ => h⟩, fun h => h.2 hchecks⟩
      · rw [validateLoop_fails hchecks, stopsAt_leaves hlen]
        exact ⟨fun h => ⟨fun _ => h, fun hyes => absurd hyes hchecks⟩, fun h => h.1 hchecks⟩

/-- **When the datagram is left as it was**, for every packet, every credentials
and every HMAC, of a datagram that reaches to the end of its length field. -/
theorem leavesDatagram_iff (env : Env) (sp : StunPacket) (param : IceParameter)
    (hlen : 4 ≤ data.length) :
    sp.LeavesDatagram env param data ↔ StopsUnseen env param data sp.attris :=
  validateLoop_leaves hlen

/-- A binding request in which a USE-CANDIDATE stands behind the
MESSAGE-INTEGRITY. -/
def earlyIntegrity : Bytes :=
  [0, 1, 0, 28, 0x21, 0x12, 0xA4, 0x42] ++ List.replicate 12 0 ++ [0, 8, 0, 20] ++
    List.replicate 20 8 ++ [0, 0x25, 0, 0]

def earlyIntegrityPacket : StunPacket :=
  ⟨List.replicate 12 0, .request, binding, [.integrity 20 20 (List.replicate 20 8)]⟩

/-- With a USERNAME for somebody else in front, the check does not get there. -/
theorem leavesDatagram_iff_otherUfrag : ({ earlyIntegrityPacket with
    attris := .username 3 (str "x") (str "y") :: earlyIntegrityPacket.attris } :
      StunPacket).LeavesDatagram Sample.env { ufrag := str "a" } earlyIntegrity := by
  apply (leavesDatagram_iff _ _ _ (by decide)).mpr
  rintro (- | ⟨b, before⟩) len endpos hmacSha1 after heq hall -
  · cases heq
  · obtain ⟨rfl, -⟩ := List.cons.inj heq
    exact absurd (hall _ (List.mem_cons_self ..)) (by decide : str "x" ≠ str "a")

/-- Here the HMAC is wrong, and another length is left in the datagram. -/
theorem earlyIntegrity_changed :
    parse Sample.env earlyIntegrity = .ok (some earlyIntegrityPacket) ∧
      earlyIntegrityPacket.validate Sample.env {} earlyIntegrity =
        .ok (false, earlyIntegrity.set 3 24) ∧
      ¬ earlyIntegrityPacket.LeavesDatagram Sample.env {} earlyIntegrity := by
  have hleft : earlyIntegrityPacket.validate Sample.env {} earlyIntegrity =
      .ok (false, earlyIntegrity.set 3 24) := rfl
  refine ⟨rfl, hleft, ?_⟩
  rintro ⟨verdict, h⟩
  rw [hleft] at h
  have hsame : earlyIntegrity.set 3 24 = earlyIntegrity := congrArg (·.2) (Except.ok.inj h)
  exact absurd hsame (by decide)

end StunPacket

end JuanSfu
