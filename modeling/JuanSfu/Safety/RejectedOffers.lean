import JuanSfu.Safety.Offers

/-!
# Requests whose offer is rejected

`parse_sdp` stores line by line and does not take back what it stored when a
later line is rejected. `handle_publish` then returns without a reply,
`handle_pull` does not look at the verdict. A map is compared by its lookups:
storing a value again moves the entry, which nobody can see.
-/

namespace JuanSfu

namespace SessionDescription

/-! ## Offers that read the same -/

structure SameSup (a b : MediaCodecSupport) : Prop where
  name : b.name = a.name
  port : b.port = a.port
  dtls : b.dtls = a.dtls
  codecIds (id : ℤ) : b.codecIds.lookup id = a.codecIds.lookup id

theorem SameSup.refl (a : MediaCodecSupport) : SameSup a a := ⟨rfl, rfl, rfl, fun _ => rfl⟩

structure SameSdp (a b : SessionDescription) : Prop where
  session : b.session = a.session
  mediaContents : b.mediaContents = a.mediaContents
  videoSup : SameSup a.videoSup b.videoSup
  audioSup : SameSup a.audioSup b.audioSup
  fingerprint : b.fingerprint = a.fingerprint
  peerOfferSdp : b.peerOfferSdp = a.peerOfferSdp

theorem SameSdp.refl (a : SessionDescription) : SameSdp a a :=
  ⟨rfl, rfl, .refl _, .refl _, rfl, rfl⟩

/-! ## Descriptions -/

/-- The description that writes leave behind for a payload type. -/
def lastDesc (ws : List SdpWrite) (id : ℤ) : Option Str :=
  (ws.filterMap fun
    | .desc id' desc => if id' = id then some desc else none
    | _ => none).getLast?

/-- The codec that a description with this payload type is stored in. -/
def describedCodec (sd : SessionDescription) (id : ℤ) : Option CodecInfo :=
  match sd.videoSup.codecIds.lookup id with
  | some info => some info
  | none => sd.audioSup.codecIds.lookup id

def describe (desc : Option Str) (info : CodecInfo) : CodecInfo :=
  { info with desc := desc.getD info.desc }

@[simp] theorem map_describe_none (info : Option CodecInfo) :
    info.map (describe none) = info := by
  cases info <;> rfl

theorem map_describe_describe (first last : Option Str) (info : Option CodecInfo) :
    (info.map (describe first)).map (describe last) = info.map (describe (last.or first)) := by
  cases info with
  | none => rfl
  | some info => cases last <;> rfl

theorem describe_eq_iff (desc : Option Str) (info : CodecInfo) :
    describe desc info = info ↔ ∀ d, desc = some d → d = info.desc := by
  cases desc with
  | none => simp [describe]
  | some d =>
      cases info
      simp [describe]

theorem setDesc_video (sd : SessionDescription) (id id' : ℤ) (desc : Str) :
    (sd.setDesc id desc).videoSup.codecIds.lookup id' =
      (sd.videoSup.codecIds.lookup id').map (describe (if id = id' then some desc else none)) := by
  unfold setDesc
  cases hv : sd.videoSup.codecIds.lookup id with
  | some info =>
      simp only [UnorderedMap.lookup_insert_ite]
      by_cases h : id' = id
      · subst h
        simp [hv, describe]
      · simp [h, Ne.symm h]
  | none =>
      have hkeep : (sd.videoSup.codecIds.lookup id').map
          (describe (if id = id' then some desc else none)) =
            sd.videoSup.codecIds.lookup id' := by
        by_cases h : id = id'
        · subst h
          rw [hv]
          rfl
        · simp [h]
      cases sd.audioSup.codecIds.lookup id with
      | some info => exact hkeep.symm
      | none => exact hkeep.symm

theorem setDesc_audio (sd : SessionDescription) (id id' : ℤ) (desc : Str) :
    (sd.setDesc id desc).audioSup.codecIds.lookup id' =
      (sd.audioSup.codecIds.lookup id').map (describe
        (if id = id' ∧ sd.videoSup.codecIds.lookup id' = none then some desc else none)) := by
  unfold setDesc
  cases hv : sd.videoSup.codecIds.lookup id with
  | some info =>
      have hno : ¬ (id = id' ∧ sd.videoSup.codecIds.lookup id' = none) := by
        rintro ⟨rfl, h⟩
        rw [hv] at h
        cases h
      simp [hno]
  | none =>
      cases ha : sd.audioSup.codecIds.lookup id with
      | some info =>
          simp only [UnorderedMap.lookup_insert_ite]
          by_cases h : id' = id
          · subst h
            simp [hv, ha, describe]
          · simp [h, Ne.symm h]
      | none =>
          by_cases h : id = id'
          · subst h
            simp [ha]
          · simp [h]

/-! ## Writes that open no section -/

theorem write_frame (sd : SessionDescription) {w : SdpWrite} (hm : w.kind ≠ .media)
    (hd : w.kind ≠ .rtpmap) :
    ∃ session contents, sd.write w = { sd with session, mediaContents := contents } := by
  cases w with
  | media => exact absurd rfl hm
  | desc => exact absurd rfl hd
  | _ => exact ⟨_, _, rfl⟩

theorem lastDesc_other (ws : List SdpWrite) {w : SdpWrite} (hd : w.kind ≠ .rtpmap) (id : ℤ) :
    lastDesc (ws ++ [w]) id = lastDesc ws id := by
  cases w with
  | desc => exact absurd rfl hd
  | _ => simp [lastDesc]

/-- What writes without sections leave of the codec tables. -/
structure Described (sd sd' : SessionDescription) (ws : List SdpWrite) : Prop where
  video (id : ℤ) : sd'.videoSup.codecIds.lookup id =
    (sd.videoSup.codecIds.lookup id).map (describe (lastDesc ws id))
  audio (id : ℤ) : sd'.audioSup.codecIds.lookup id =
    (sd.audioSup.codecIds.lookup id).map (describe
      (if sd.videoSup.codecIds.lookup id = none then lastDesc ws id else none))
  frame : ∃ session contents video audio, sd' =
    { sd with session, mediaContents := contents, videoSup.codecIds := video,
              audioSup.codecIds := audio }

theorem writeAll_described (sd : SessionDescription) {ws : List SdpWrite}
    (h : ∀ w ∈ ws, w.kind ≠ .media) : Described sd (sd.writeAll ws) ws := by
  induction ws using List.reverseRecOn with
  | nil =>
      refine ⟨?_, ?_, ⟨_, _, _, _, rfl⟩⟩
      · intro id
        simp [lastDesc]
      · intro id
        simp [lastDesc]
  | append_singleton ws w ih =>
      have ih := ih fun w hw => h w (List.mem_append_left _ hw)
      have hw := h w (List.mem_append_right _ (List.mem_singleton_self w))
      rw [writeAll_append]
      obtain ⟨session, contents, video, audio, hframe⟩ := ih.frame
      by_cases hd : w.kind = .rtpmap
      · cases w with
        | desc i d =>
          have hlast : ∀ id, lastDesc (ws ++ [.desc i d]) id =
              (if i = id then some d else none).or (lastDesc ws id) := by
            intro id
            by_cases hi : i = id <;> simp [lastDesc, List.getLast?_append, hi]
          refine ⟨?_, ?_, ?_⟩
          · intro id
            rw [writeAll_cons, writeAll_nil, SessionDescription.write, setDesc_video, ih.video,
              map_describe_describe, hlast]
          · intro id
            rw [writeAll_cons, writeAll_nil, SessionDescription.write, setDesc_audio, ih.audio,
              ih.video, map_describe_describe, hlast]
            cases sd.videoSup.codecIds.lookup id with
            | none => simp
            | some info => simp
          · obtain ⟨video', audio', heq⟩ := (sd.writeAll ws).setDesc_frame i d
            refine ⟨session, contents, video', audio', ?_⟩
            show (sd.writeAll ws).setDesc i d = _
            rw [heq, hframe]
        | _ => cases hd
      · obtain ⟨session', contents', heq⟩ := (sd.writeAll ws).write_frame hw hd
        rw [writeAll_cons, writeAll_nil, heq]
        refine ⟨?_, ?_, ?_⟩
        · intro id
          rw [lastDesc_other ws hd]
          exact ih.video id
        · intro id
          rw [lastDesc_other ws hd]
          exact ih.audio id
        · exact ⟨session', contents', video, audio, by rw [hframe]⟩

/-- The writes store nothing, or what is there. -/
structure StoresNothing (sd : SessionDescription) (ws : List SdpWrite) : Prop where
  media : ∀ w ∈ ws, w.kind ≠ .media
  version : ∀ version, lastVersion ws = some version → version = sd.session.version
  origin : ∀ origin, lastOrigin ws = some origin →
    origin = (sd.session.username, sd.session.sessionId)
  desc : ∀ id desc info, lastDesc ws id = some desc → sd.describedCodec id = some info →
    desc = info.desc

/-- **When writes leave an object as it was.** -/
theorem sameSdp_writeAll_iff (sd : SessionDescription) {ws : List SdpWrite}
    (hws : SectionsOpen false ws) : SameSdp sd (sd.writeAll ws) ↔ StoresNothing sd ws := by
  have hcontents : (sd.writeAll ws).mediaContents = sd.mediaContents ↔
      ∀ w ∈ ws, w.kind ≠ .media := by
    rw [writeAll_mediaContents, foldl_addSection hws, List.append_right_eq_self,
      sectionsOf_eq_nil_iff hws]
  have hsession : (sd.writeAll ws).session = sd.session ↔
      (∀ version, lastVersion ws = some version → version = sd.session.version) ∧
      ∀ origin, lastOrigin ws = some origin →
        origin = (sd.session.username, sd.session.sessionId) := by
    rw [writeAll_session, foldl_writeSession]
    generalize sd.session = session
    cases session
    cases lastVersion ws <;> cases lastOrigin ws <;> simp [Prod.ext_iff]
  constructor
  · intro h
    have hmedia := hcontents.mp h.mediaContents
    obtain ⟨hversion, horigin⟩ := hsession.mp h.session
    refine ⟨hmedia, hversion, horigin, ?_⟩
    intro id desc info hlast hcodec
    have hd := writeAll_described sd hmedia
    have hvideo := (hd.video id).symm.trans (h.videoSup.codecIds id)
    have haudio := (hd.audio id).symm.trans (h.audioSup.codecIds id)
    unfold describedCodec at hcodec
    cases hv : sd.videoSup.codecIds.lookup id with
    | some info' =>
        rw [hv] at hcodec hvideo
        cases hcodec
        exact (describe_eq_iff _ _).mp (Option.some.inj hvideo) desc hlast
    | none =>
        rw [hv] at hcodec haudio
        change sd.audioSup.codecIds.lookup id = some info at hcodec
        rw [if_pos rfl, hcodec] at haudio
        exact (describe_eq_iff _ _).mp (Option.some.inj haudio) desc hlast
  · intro h
    have hd := writeAll_described sd h.media
    obtain ⟨session, contents, video, audio, hframe⟩ := hd.frame
    have hkeep : ∀ id info, sd.describedCodec id = some info →
        describe (lastDesc ws id) info = info := by
      intro id info hcodec
      rw [describe_eq_iff]
      exact fun desc hlast => h.desc id desc info hlast hcodec
    refine ⟨hsession.mpr ⟨h.version, h.origin⟩, hcontents.mpr h.media, ?_, ?_, ?_, ?_⟩
    · refine ⟨by rw [hframe], by rw [hframe], by rw [hframe], ?_⟩
      intro id
      rw [hd.video]
      cases hv : sd.videoSup.codecIds.lookup id with
      | none => rfl
      | some info =>
          have hi := hkeep id info (by rw [describedCodec, hv])
          rw [Option.map_some, hi]
    · refine ⟨by rw [hframe], by rw [hframe], by rw [hframe], ?_⟩
      intro id
      rw [hd.audio]
      cases hv : sd.videoSup.codecIds.lookup id with
      | some info => simp
      | none =>
          rw [if_pos rfl]
          cases ha : sd.audioSup.codecIds.lookup id with
          | none => rfl
          | some info =>
              have hi := hkeep id info (by rw [describedCodec, hv, ha])
              rw [Option.map_some, hi]
    · rw [hframe]
    · rw [hframe]

end SessionDescription

namespace Server

variable {env : Env} {cfg : Config} {s s' : Server}

/-- The same member with an offer that reads the same. -/
structure SameMember (m m' : RoomMember) : Prop where
  frame : m' = { m with offerSdp := m'.offerSdp }
  offerSdp : m.offerSdp.SameSdp m'.offerSdp

/-- Nothing that can be looked up has changed. -/
structure SameState (s s' : Server) : Prop where
  members (r : ℤ) (u : Str) : Option.Rel SameMember (s.member r u) (s'.member r u)
  connections : SameConnections s s'
  objects : SameObjects s s'

/-- A publish or a pull whose offer is rejected sends no reply and leaves the
state as it was. -/
def FailsAtomically (env : Env) (s : Server) (l : Event × List Effect) : Prop :=
  ∀ c msg rnd sroomid r u m lines pull offerSdp, l.1 = .message c msg rnd →
    s.Requests msg sroomid r u m lines pull →
    m.offerSdp.parseSdp lines = .ok (false, offerSdp) →
      (∀ c' reply, .reply c' reply ∉ l.2) ∧
        ∀ s', s.exec env l.1 = .ok (s', l.2) → SameState s s'

/-- It is a publish, and what the lines before the rejected one store is there
already. -/
def RejectsIdle (s : Server) (l : Event × List Effect) : Prop :=
  ∀ c msg rnd sroomid r u m lines pull ws, l.1 = .message c msg rnd →
    s.Requests msg sroomid r u m lines pull →
    readLines false false lines = .ok (false, ws) →
      pull = none ∧ m.offerSdp.StoresNothing ws

/-- The offer of one member is all that a rejected publish touches. -/
theorem sameState_afterParse {r : ℤ} {u : Str} {m : RoomMember}
    (hmem : s.member r u = some m) (offerSdp : SessionDescription) :
    SameState s (s.afterParse r u m offerSdp none) ↔ m.offerSdp.SameSdp offerSdp := by
  have hset := setsMember_setMember s r u { m with offerSdp }
  constructor
  · intro h
    have hm := h.members r u
    rw [afterParse, mediaAfterPull, hset, if_pos ⟨rfl, rfl⟩, hmem] at hm
    cases hm with
    | some hm => exact hm.offerSdp
  · intro h
    refine ⟨?_, sameConnections_setMember s r u _, ⟨rfl, rfl, rfl⟩⟩
    intro r' u'
    rw [afterParse, mediaAfterPull, hset]
    split
    · next heq =>
        obtain ⟨rfl, rfl⟩ := heq
        rw [hmem]
        exact .some ⟨rfl, h⟩
    · cases s.member r' u' with
      | none => exact .none
      | some m' => exact .some ⟨rfl, .refl _⟩

theorem failsAtomically_iff_step {l : Event × List Effect}
    (hstep : (system env cfg).step s l s') : FailsAtomically env s l ↔ RejectsIdle s l := by
  obtain ⟨e, effects⟩ := l
  obtain ⟨-, hexec⟩ := hstep
  have hwrites : ∀ {sd offerSdp : SessionDescription} {lines ws},
      sd.parseSdp lines = .ok (false, offerSdp) →
      readLines false false lines = .ok (false, ws) → offerSdp = sd.writeAll ws := by
    intro sd offerSdp lines ws hparse hread
    obtain ⟨ws', hread', rfl⟩ := parseSdp_ok_iff.mp hparse
    rw [hread] at hread'
    cases hread'
    rfl
  constructor
  · rintro hfails c msg rnd sroomid r u m lines pull ws rfl hreq hread
    have hparse : m.offerSdp.parseSdp lines = .ok (false, m.offerSdp.writeAll ws) :=
      parseSdp_ok_iff.mpr ⟨ws, hread, rfl⟩
    obtain ⟨hno, hsame⟩ := hfails c msg rnd sroomid r u m lines pull _ rfl hreq hparse
    cases handle_outcome_of_requests hreq hexec with
    | rejected hparse' =>
        have hs := hsame _ hexec
        rw [hwrites hparse' hread, sameState_afterParse hreq.finds.member,
          SessionDescription.sameSdp_writeAll_iff _ (reads_of_readLines hread).sectionsOpen] at hs
        exact ⟨rfl, hs⟩
    | answered => exact absurd (List.mem_cons_of_mem _ (List.mem_cons_self ..)) (hno _ _)
  · rintro hidle c msg rnd sroomid r u m lines pull offerSdp rfl hreq hparse
    obtain ⟨ws, hread, -⟩ := parseSdp_ok_iff.mp hparse
    obtain ⟨rfl, hnothing⟩ := hidle c msg rnd sroomid r u m lines pull ws rfl hreq hread
    cases handle_outcome_of_requests hreq hexec with
    | rejected hparse' =>
        refine ⟨fun _ _ => List.not_mem_nil, ?_⟩
        intro s₁ hexec₁
        rw [hexec] at hexec₁
        cases hexec₁
        rw [hwrites hparse' hread, sameState_afterParse hreq.finds.member,
          SessionDescription.sameSdp_writeAll_iff _ (reads_of_readLines hread).sectionsOpen]
        exact hnothing
    | @answered flag offerSdp' _ port portMgr hparse' hgo =>
        rw [hparse] at hparse'
        cases hparse'
        exact absurd ⟨rfl, rfl⟩ hgo

/-- **When failed requests are atomic**: in a run every rejected publish and pull
leaves no trace if and only if all of them are publishes that stored nothing. -/
theorem failsAtomically_iff {tr : List (Server × (Event × List Effect))}
    (run : Lts.Run (system env cfg) tr s) :
    Lts.Guarded (FailsAtomically env) tr ↔ Lts.Guarded RejectsIdle tr :=
  run.guarded_congr fun _ _ _ _ hstep => failsAtomically_iff_step hstep

end Server

/-! ## Two bad offers -/

namespace Sample

/-- The first line is rejected, so nothing is stored. -/
def earlyLines : List Str :=
  [str "m=application 9 UDP/DTLS/SCTP 1", str "v=0", str "o=- 1 2 IN IP4 0.0.0.0", str "s=-",
    str "t=0 0", str "a=sendonly"]

/-- The last line is rejected, after the section before it was stored. -/
def badLines : List Str :=
  [str "v=0", str "o=- 1 2 IN IP4 0.0.0.0", str "s=-", str "t=0 0",
    str "m=audio 9 UDP/TLS/RTP/SAVPF 111", str "m=application 9 UDP/DTLS/SCTP 1"]

def badPull : Json :=
  requestOf (str "pullstream") (str "1") bob
    [(str "remote_uid", .string alice), (str "sdp", .string (offerOf badLines))]

end Sample

namespace Server

open Sample

/-- Alice's publish is rejected at its first line. -/
theorem failsAtomically_iff_joined :
    ∃ tr s s' msg m offerSdp,
      Lts.Run (system Sample.env cfg) ((s, .message 1 msg rnd, []) :: tr) s' ∧
        s.Requests msg (str "1") 1 alice m earlyLines none ∧
        m.offerSdp.parseSdp earlyLines = .ok (false, offerSdp) ∧
        (Lts.Guarded (FailsAtomically Sample.env) ((s, .message 1 msg rnd, []) :: tr) ↔
          Lts.Guarded RejectsIdle ((s, .message 1 msg rnd, []) :: tr)) := by
  obtain ⟨tr, s, s', effects, run, hstep, hv⟩ := exists_step_of_runEvents Sample.env cfg
    [join 1 (str "1") alice] (publishOf 1 (str "1") alice earlyLines)
    (fun s _ effects => ((s.member 1 alice).isSome, effects.isEmpty)) (true, true)
    (by decide +kernel)
  obtain ⟨halice, hnone⟩ := Prod.mk.inj hv
  obtain rfl := List.isEmpty_iff.mp hnone
  obtain ⟨m, hm⟩ := Option.isSome_iff_exists.mp halice
  have hverdict : (readLines false false earlyLines).toOption.map (·.1) = some false := by
    decide +kernel
  obtain ⟨⟨flag, ws⟩, hread, rfl⟩ := ok_of_toOption_map hverdict
  exact ⟨tr, s, s', _, m, _, run.snoc hstep,
    .publish rfl ⟨by decide, by decide, by decide, by decide, by decide, hm, by decide +kernel⟩,
    parseSdp_ok_iff.mpr ⟨ws, hread, rfl⟩, failsAtomically_iff (run.snoc hstep)⟩

/-- The offer of the pull is rejected, and the pull is answered. -/
theorem rejected_pull_answered :
    ∃ tr s, Lts.Run (system Sample.env cfg) tr s ∧
      ¬ Lts.Guarded (FailsAtomically Sample.env) tr := by
  obtain ⟨tr, s, s', effects, run, hstep, hv⟩ := exists_step_of_runEvents Sample.env cfg
    [join 1 (str "1") alice, join 2 (str "1") bob [alice]] (.message 2 badPull rnd)
    (fun s _ effects => ((s.member 1 alice).isSome, (s.member 1 bob).isSome,
      effects.any (repliesTo 2))) (true, true, true) (by decide +kernel)
  simp only [Prod.mk.injEq] at hv
  obtain ⟨halice, hbob, hreply⟩ := hv
  obtain ⟨m, hm⟩ := Option.isSome_iff_exists.mp hbob
  refine ⟨_, s', run.snoc hstep, ?_⟩
  intro hfails
  have hreq : s.Requests badPull (str "1") 1 bob m badLines (some alice) :=
    .pull rfl ⟨by decide, by decide, by decide, by decide, by decide, hm, by decide +kernel⟩
      (by decide) (by decide) halice
  -- the verdict does not depend on the offer the lines are parsed into
  have hverdict : (readLines false false badLines).toOption.map (·.1) = some false := by
    decide +kernel
  obtain ⟨⟨flag, ws⟩, hread, rfl⟩ := ok_of_toOption_map hverdict
  have hparse : m.offerSdp.parseSdp badLines = .ok (false, m.offerSdp.writeAll ws) :=
    parseSdp_ok_iff.mpr ⟨ws, hread, rfl⟩
  obtain ⟨reply, hreply⟩ := mem_of_repliesTo hreply
  exact (hfails _ (List.mem_cons_self ..) 2 badPull rnd _ _ _ m _ _ _ rfl hreq hparse).1 2 reply
    hreply

end Server

end JuanSfu
