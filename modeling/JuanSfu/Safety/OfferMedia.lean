import JuanSfu.Sdp.Sections
import JuanSfu.System

/-!
# What an accepted offer gives the media path

The DTLS branch of `on_udp_receive` follows `media_contents[0]->dtls` of the
member's offer without a test. `parse_sdp` accepts offers that have no section
and offers whose first section has no fingerprint; which ones they are can be
seen from the kinds of their lines. Later parses into the same object append
sections and do not change the answer for the better ones.
-/

namespace JuanSfu

namespace SessionDescription

/-- An offer after any further parses into it, accepted or not. -/
inductive Later (sd : SessionDescription) : SessionDescription → Prop where
  | same : Later sd sd
  | parse {sd' sd'' : SessionDescription} {lines : List Str} {flag : Bool} (h : Later sd sd')
      (hp : sd'.parseSdp lines = .ok (flag, sd'')) : Later sd sd''

theorem Later.dtlsReady {sd sd' : SessionDescription} (h : Later sd sd')
    (hr : DtlsReady sd.mediaContents) : DtlsReady sd'.mediaContents := by
  induction h with
  | same => exact hr
  | parse _ hp ih =>
      obtain ⟨ws, -, hc⟩ := parseSdp_contents hp
      rw [hc]
      exact ih.append _

end SessionDescription

namespace RoomMember

/-- A datagram that `on_udp_receive` takes for DTLS. -/
def entersDtls (data : Bytes) : Bool :=
  !StunPacket.isStun data && !(isRtcp data || isRtp data) && RtcDtls.isDtls data

variable (env : Env) (m : RoomMember) (udp : UdpId) (addr : IpAddress)

/-- The branch goes wrong where it makes a connection from an offer without the
fingerprint of a first section, and nowhere else. -/
theorem openDtls_faults_iff (up : MemberUdpPorts) :
    (∃ e, m.openDtls env udp addr up = .error e) ↔
      up.dtlsConnection = none ∧ ¬ DtlsReady m.offerSdp.mediaContents := by
  unfold openDtls DtlsReady
  cases up.dtlsConnection with
  | some dtls => simp
  | none =>
      cases m.offerSdp.mediaContents with
      | nil => simp [index, bind, Except.bind]
      | cons content rest =>
          cases hd : content.dtls with
          | none => simp [index, bind, Except.bind, hd]
          | some dtls =>
              cases hfp : dtls.identityFp <;>
                simp [index, bind, Except.bind, pure, Except.pure, hd, hfp]

theorem onUdpReceive_dtls {data : Bytes} (hd : entersDtls data = true) (media : Media)
    (o : Oracle) :
    (∃ e, m.onUdpReceive env media udp addr data o = .error e) ↔
      (m.ports addr).dtlsConnection = none ∧ ¬ DtlsReady m.offerSdp.mediaContents := by
  rw [← openDtls_faults_iff env m udp addr]
  simp only [entersDtls, Bool.and_eq_true, Bool.not_eq_true'] at hd
  obtain ⟨⟨hs, hr⟩, hd⟩ := hd
  unfold onUdpReceive onDtls
  simp only [hs, hr, hd, Bool.false_eq_true, if_false, if_true]
  cases m.openDtls env udp addr (m.ports addr) with
  | error e => simp [bind, Except.bind]
  | ok up =>
      cases hc : up.dtlsConnection <;> simp [bind, Except.bind, pure, Except.pure, hc]

end RoomMember

/-- **When an accepted offer serves the media path**: exactly if its first `m=`
line is followed, before the next one, by a fingerprint line. -/
theorem SessionDescription.accepted_serves_dtls_iff {lines : List Str}
    {sd : SessionDescription}
    (h : ({} : SessionDescription).parseSdp lines = .ok (true, sd)) :
    (DtlsReady sd.mediaContents ↔ OffersFingerprint lines) ∧
      ((∀ (env : Env) (media : Media) (m : RoomMember) (udp : UdpId) (addr : IpAddress)
          (data : Bytes) (o : Oracle), Later sd m.offerSdp →
          RoomMember.entersDtls data = true →
          ∀ e, m.onUdpReceive env media udp addr data o ≠ .error e) ↔
        OffersFingerprint lines) := by
  have hready := parseSdp_dtlsReady h
  refine ⟨hready, ?_, ?_⟩
  · intro hall
    rw [← hready]
    by_contra hno
    -- the first datagram of a member that has just offered `sd`
    obtain ⟨e, he⟩ := (RoomMember.onUdpReceive_dtls Sample.env { uid := [], offerSdp := sd } 0
      ⟨0, 0⟩ (rfl : RoomMember.entersDtls Sample.clientHello = true)
      { transports := fun _ => { udp := 0, addr := ⟨0, 0⟩ } } {}).mpr ⟨rfl, hno⟩
    exact hall _ _ _ _ _ _ _ .same rfl e he
  · intro hoffer env media m udp addr data o hlater hd e he
    exact ((RoomMember.onUdpReceive_dtls env m udp addr hd media o).mp ⟨e, he⟩).2
      (hlater.dtlsReady (hready.mpr hoffer))

/-! ## An offer without sections -/

namespace Sample

def bareOffer : List Str :=
  [str "v=0", str "o=- 1 2 IN IP4 0.0.0.0", str "s=-", str "t=0 0", str "a=group:BUNDLE 0",
    str "a=msid-semantic: WMS"]

def publishBare : List Event :=
  [join 1 (str "1") alice, publishOf 1 (str "1") alice bareOffer]

end Sample

theorem SessionDescription.accepted_serves_dtls_iff_bare :
    ∃ sd : SessionDescription,
      ({} : SessionDescription).parseSdp Sample.bareOffer = .ok (true, sd) ∧
      (DtlsReady sd.mediaContents ↔ OffersFingerprint Sample.bareOffer) := by
  have hrun : (({} : SessionDescription).parseSdp Sample.bareOffer).toOption.map (·.1) =
      some true := by decide +kernel
  obtain ⟨⟨flag, sd⟩, hp, rfl⟩ := ok_of_toOption_map hrun
  exact ⟨sd, hp, (accepted_serves_dtls_iff hp).1⟩

/-- The offer is accepted and answered, and the first DTLS datagram reads the
first section of an offer that has none. -/
theorem Server.bareOffer_faults :
    (({} : SessionDescription).parseSdp Sample.bareOffer).toOption.map
      (fun p => (p.1, p.2.mediaContents.isEmpty)) = some (true, true) ∧
    ∃ s, Lts.Reachable (opened Sample.env Sample.cfg) s ∧
      faultOf (s.exec Sample.env (Sample.hello 1 Sample.alice ⟨1, 2⟩ [])) =
        some .indexOutOfRange := by
  refine ⟨by decide +kernel, ?_⟩
  exact exists_opened_of_runEvents Sample.env Sample.cfg Sample.publishBare
    (fun s => faultOf (s.exec Sample.env (Sample.hello 1 Sample.alice ⟨1, 2⟩ [])))
    (some .indexOutOfRange) (by decide) (by decide +kernel)

end JuanSfu
