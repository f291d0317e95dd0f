import JuanSfu.Sdp.SessionDescription
import Mathlib.Data.List.ModifyLast

/-!
# What the lines of an offer ask for

`parse_sdp` stores into the object it is called on as it goes. What it stores
does not depend on that object: the lines alone give a verdict and a list of
writes, and parsing into an object is applying the writes to it. The results
about offers speak about the writes; `parseSdp_eq` connects them to the code.
-/

namespace JuanSfu

/-- One thing a line has stored. The last three go to the section opened last. -/
inductive SdpWrite where
  | version (version : Str)
  | origin (username sessionId : Str)
  | media (type : MediaType) (sup : MediaCodecSupport)
  | desc (id : ℤ) (desc : Str)
  | dtls (d : DtlsParameter)
  | ssrc (p : SsrcParameter)
  | ssrcGroup (g : SsrcGroup)

/-- The line parsers, and none. -/
inductive LineKind where
  | version
  | origin
  | media
  | rtpmap
  | fingerprint
  | ssrc
  | ssrcGroup
  | other
deriving DecidableEq

/-- Lines that are looked at only when a section is open. -/
def LineKind.isSection : LineKind → Bool
  | .fingerprint | .ssrc | .ssrcGroup => true
  | _ => false

/-- The first of the seven substring tests that succeeds. -/
def kindOf (line : Str) : LineKind :=
  if contains line (str "v=") then .version
  else if contains line (str "o=") then .origin
  else if contains line (str "m=") then .media
  else if contains line (str "a=rtpmap") then .rtpmap
  else if contains line (str "a=fingerprint:") then .fingerprint
  else if contains line (str "a=ssrc:") then .ssrc
  else if contains line (str "a=ssrc-group:") then .ssrcGroup
  else .other

def SdpWrite.kind : SdpWrite → LineKind
  | .version _ => .version
  | .origin .. => .origin
  | .media .. => .media
  | .desc .. => .rtpmap
  | .dtls _ => .fingerprint
  | .ssrc _ => .ssrc
  | .ssrcGroup _ => .ssrcGroup

/-- What a line does to the running flag, and what it stores. -/
inductive Reading where
  | rejected
  | kept (w : Option SdpWrite)
  | accepted (w : SdpWrite)

def Reading.flag (flag : Bool) : Reading → Bool
  | .rejected => false
  | .kept _ => flag
  | .accepted _ => true

def Reading.writes : Reading → List SdpWrite
  | .rejected => []
  | .kept w => w.toList
  | .accepted w => [w]

/-! ## Reading one line -/

def readVersion (sdp : Str) : Result Reading := do
  let vecs ← split sdp (str "=") []
  if vecs.length ≠ 2 then
    return .rejected
  let version ← index vecs 1
  return .accepted (.version version)

def readOrigin (sdp : Str) : Result Reading := do
  let vecs ← split sdp (str "=") []
  if vecs.length ≠ 2 then
    return .rejected
  let vecs2 ← split (← index vecs 1) (str " ") []
  if vecs2.length ≠ 6 then
    return .rejected
  let username ← index vecs2 0
  let sessionId ← index vecs2 1
  return .accepted (.origin username sessionId)

def mediaTypeOf (kind : Str) : Option MediaType :=
  if kind = str "video" then some .video
  else if kind = str "audio" then some .audio
  else none

def readMedia (sdp : Str) : Result Reading := do
  let vecs ← split sdp (str "=") []
  if vecs.length ≠ 2 then
    return .rejected
  let vecs2 ← split (← index vecs 1) (str " ") []
  if vecs2.length < 4 then
    return .rejected
  let port := atoi (← index vecs2 1)
  let proto ← index vecs2 2
  if proto ≠ mediaProtoDtlsSavpf ∧ proto ≠ mediaProtoSavpf then
    return .rejected
  let sup : MediaCodecSupport :=
    { port, dtls := proto == mediaProtoDtlsSavpf, codecIds := codecIdsOf (vecs2.drop 3) }
  match mediaTypeOf (← index vecs2 0) with
  | some type => return .kept (some (.media type sup))
  | none => return .rejected

def readRtpmap (sdp : Str) : Result Reading := do
  let vecs ← split sdp (str "=") []
  if vecs.length ≠ 2 then
    return .rejected
  let vecs2 ← split (← index vecs 1) (str " ") []
  if vecs2.length ≠ 2 then
    return .rejected
  let head ← index vecs2 0
  let desc ← index vecs2 1
  match find head (str ":") 0 with
  | none => return .rejected
  | some pos => return .accepted (.desc (atoi (head.drop (pos + 1))) desc)

def readDtls (sdp : Str) : Result Reading := do
  match find sdp (str ":") 0 with
  | none => return .rejected
  | some pos =>
    let vecs ← split (sdp.drop (pos + 1)) (str " ") []
    if vecs.length ≠ 2 then
      return .rejected
    let alg ← index vecs 0
    let fingerPrint ← index vecs 1
    return .accepted (.dtls
      { alg, fingerPrint, identityFp := createUniqueFromRfc4572 alg fingerPrint })

def readSsrcs (sdp : Str) : Result Reading := do
  let vecs ← split (afterColon sdp) (str ":") []
  if vecs.length ≠ 2 then
    return .rejected
  let value ← index vecs 1
  let head ← index vecs 0
  let vecs2 ← split head (str " ") []
  let attri ← index vecs2 1
  let ssrc ← index vecs2 0
  return .accepted (.ssrc ⟨UInt32.ofInt (atoll ssrc), attri, value⟩)

def readSsrcGroups (sdp : Str) : Result Reading := do
  let vecs ← split (afterColon sdp) (str " ") []
  if vecs.length < 2 then
    return .rejected
  let semantic ← index vecs 0
  let ssrcs := (vecs.drop 1).map fun v => UInt32.ofInt (atoll v)
  return .accepted (.ssrcGroup ⟨semantic, ssrcs⟩)

def readLine (isOpen : Bool) (line : Str) : Result Reading :=
  match kindOf line with
  | .version => readVersion line
  | .origin => readOrigin line
  | .media => readMedia line
  | .rtpmap => readRtpmap line
  | .fingerprint => if isOpen then readDtls line else .ok (.kept none)
  | .ssrc => if isOpen then readSsrcs line else .ok (.kept none)
  | .ssrcGroup => if isOpen then readSsrcGroups line else .ok (.kept none)
  | .other => .ok (.kept none)

/-- The lines in order, up to one that leaves the flag false: the verdict and
the writes so far. -/
def readLines : Bool → Bool → List Str → Result (Bool × List SdpWrite)
  | flag, _, [] => .ok (flag, [])
  | flag, isOpen, line :: lines => do
      let r ← readLine isOpen line
      if !r.flag flag then
        return (false, r.writes)
      let (verdict, ws) ← readLines true (isOpen || kindOf line = .media) lines
      return (verdict, r.writes ++ ws)

/-! ## Applying the writes -/

theorem map_bind {α β γ : Type} (x : Result α) (f : α → Result β) (g : β → γ) :
    (x >>= f).map g = x >>= fun a => (f a).map g := by
  cases x <;> rfl

/-- The writes that go to a section. -/
def MediaContent.write (m : MediaContent) : SdpWrite → MediaContent
  | .dtls d => { m with dtls := some d }
  | .ssrc p => { m with ssrcs := m.ssrcs ++ [p] }
  | .ssrcGroup g => { m with ssrcGroups := m.ssrcGroups ++ [g] }
  | _ => m

namespace SessionDescription

/-- A payload type offered for both kinds is looked for among the video ones. -/
def setDesc (sd : SessionDescription) (id : ℤ) (desc : Str) : SessionDescription :=
  match sd.videoSup.codecIds.lookup id with
  | some info => { sd with
      videoSup.codecIds := sd.videoSup.codecIds.insert id { info with desc } }
  | none =>
    match sd.audioSup.codecIds.lookup id with
    | some info => { sd with
        audioSup.codecIds := sd.audioSup.codecIds.insert id { info with desc } }
    | none => sd

def write (sd : SessionDescription) : SdpWrite → SessionDescription
  | .version version => { sd with session.version := version }
  | .origin username sessionId =>
      { sd with session.username := username, session.sessionId := sessionId }
  | .media .video sup =>
      { sd with videoSup := sup, mediaContents := sd.mediaContents ++ [{ type := .video }] }
  | .media .audio sup =>
      { sd with audioSup := sup, mediaContents := sd.mediaContents ++ [{ type := .audio }] }
  | .desc id desc => sd.setDesc id desc
  | w => { sd with mediaContents := sd.mediaContents.modifyLast (·.write w) }

def writeAll (sd : SessionDescription) (ws : List SdpWrite) : SessionDescription :=
  ws.foldl write sd

@[simp] theorem writeAll_nil (sd : SessionDescription) : sd.writeAll [] = sd := rfl

@[simp] theorem writeAll_cons (sd : SessionDescription) (w : SdpWrite) (ws : List SdpWrite) :
    sd.writeAll (w :: ws) = (sd.write w).writeAll ws := rfl

theorem writeAll_append (sd : SessionDescription) (ws ws' : List SdpWrite) :
    sd.writeAll (ws ++ ws') = (sd.writeAll ws).writeAll ws' := List.foldl_append

/-! ## The parsers store what was read -/

/-- What a parser returns and stores, from what was read. -/
def stored (sd : SessionDescription) (r : Reading) : Bool × SessionDescription :=
  (r.flag false, sd.writeAll r.writes)

theorem parseVersion_eq (sd : SessionDescription) (line : Str) :
    sd.parseVersion line = (readVersion line).map sd.stored := by
  unfold parseVersion readVersion
  rw [map_bind]
  refine bind_congr fun vecs => ?_
  split
  · rfl
  · rw [map_bind]
    rfl

theorem parseOrigin_eq (sd : SessionDescription) (line : Str) :
    sd.parseOrigin line = (readOrigin line).map sd.stored := by
  unfold parseOrigin readOrigin
  rw [map_bind]
  refine bind_congr fun vecs => ?_
  split
  · rfl
  · rw [map_bind]
    refine bind_congr fun origin => ?_
    rw [map_bind]
    refine bind_congr fun vecs2 => ?_
    split
    · rfl
    · rw [map_bind]
      refine bind_congr fun username => ?_
      rw [map_bind]
      rfl

theorem parseRtpmap_eq (sd : SessionDescription) (line : Str) :
    sd.parseRtpmap line = (readRtpmap line).map sd.stored := by
  unfold parseRtpmap readRtpmap
  rw [map_bind]
  refine bind_congr fun vecs => ?_
  split
  · rfl
  · rw [map_bind]
    refine bind_congr fun rtpmap => ?_
    rw [map_bind]
    refine bind_congr fun vecs2 => ?_
    split
    · rfl
    · rw [map_bind]
      refine bind_congr fun head => ?_
      rw [map_bind]
      refine bind_congr fun desc => ?_
      cases find head (str ":") 0 with
      | none => rfl
      | some pos =>
          simp only [stored, Except.map, Reading.flag, Reading.writes, writeAll_cons, writeAll_nil,
            write, setDesc, pure, Except.pure]
          cases sd.videoSup.codecIds.lookup (atoi (head.drop (pos + 1))) with
          | some info => rfl
          | none =>
              cases sd.audioSup.codecIds.lookup (atoi (head.drop (pos + 1))) with
              | some info => rfl
              | none => rfl

theorem parseMedia_eq (sd : SessionDescription) (line : Str) :
    sd.parseMedia line = (readMedia line).map fun r =>
      (if r.flag true then some sd.mediaContents.length else none, sd.writeAll r.writes) := by
  unfold parseMedia readMedia
  rw [map_bind]
  refine bind_congr fun vecs => ?_
  split
  · rfl
  · rw [map_bind]
    refine bind_congr fun media => ?_
    rw [map_bind]
    refine bind_congr fun vecs2 => ?_
    split
    · rfl
    · rw [map_bind]
      refine bind_congr fun port => ?_
      rw [map_bind]
      refine bind_congr fun proto => ?_
      split
      · rfl
      · rw [map_bind]
        refine bind_congr fun kind => ?_
        unfold mediaTypeOf
        split
        · rfl
        · split
          · rfl
          · rfl

end SessionDescription

/-! ### Into a section -/

/-- What a section parser returns and stores, from what was read. -/
def MediaContent.stored (m : MediaContent) (r : Reading) : Bool × MediaContent :=
  (r.flag false, r.writes.foldl MediaContent.write m)

theorem parseDtls_eq (m : MediaContent) (line : Str) :
    (do
      let (flag, m) ← parseDtls m line
      return (flag, if flag then m.setIdentityFp else m)) = (readDtls line).map m.stored := by
  unfold parseDtls readDtls
  cases find line (str ":") 0 with
  | none => rfl
  | some pos =>
      simp only [bind_assoc]
      rw [map_bind]
      refine bind_congr fun vecs => ?_
      split
      · rfl
      · simp only [bind_assoc]
        rw [map_bind]
        refine bind_congr fun alg => ?_
        rw [map_bind]
        rfl

theorem parseSsrcs_eq (m : MediaContent) (line : Str) :
    parseSsrcs m line = (readSsrcs line).map m.stored := by
  unfold parseSsrcs readSsrcs
  rw [map_bind]
  refine bind_congr fun vecs => ?_
  split
  · rfl
  · rw [map_bind]
    refine bind_congr fun value => ?_
    rw [map_bind]
    refine bind_congr fun head => ?_
    rw [map_bind]
    refine bind_congr fun vecs2 => ?_
    rw [map_bind]
    refine bind_congr fun attri => ?_
    rw [map_bind]
    rfl

theorem parseSsrcGroups_eq (m : MediaContent) (line : Str) :
    parseSsrcGroups m line = (readSsrcGroups line).map m.stored := by
  unfold parseSsrcGroups readSsrcGroups
  rw [map_bind]
  refine bind_congr fun vecs => ?_
  split
  · rfl
  · rw [map_bind]
    rfl

/-! ## What a line can be read as -/

/-- The cases of a line that is read. -/
inductive LineOutcome (isOpen : Bool) (kind : LineKind) : Reading → Prop where
  | rejected (hk : kind ≠ .other) : LineOutcome isOpen kind .rejected
  | media {type : MediaType} {sup : MediaCodecSupport} (hk : kind = .media) :
      LineOutcome isOpen kind (.kept (some (.media type sup)))
  | stored {w : SdpWrite} (hm : kind ≠ .media) (hk : w.kind = kind)
      (ho : kind.isSection → isOpen = true) : LineOutcome isOpen kind (.accepted w)
  | skipped (hk : kind = .other ∨ kind.isSection ∧ isOpen = false) :
      LineOutcome isOpen kind (.kept none)

variable {isOpen : Bool} {line : Str} {r : Reading}

/-- A line that is passed over opens no section. -/
theorem LineKind.not_media {kind : LineKind}
    (h : kind = .other ∨ kind.isSection = true ∧ isOpen = false) : kind ≠ .media := by
  rintro rfl
  rcases h with h | ⟨h, -⟩ <;> cases h

theorem readVersion_outcome (h : readVersion line = .ok r) :
    LineOutcome isOpen .version r := by
  unfold readVersion at h
  obtain ⟨vecs, -, h⟩ := bind_ok h
  split at h
  · cases h
    exact .rejected (by decide)
  · obtain ⟨version, -, h⟩ := bind_ok h
    cases h
    exact .stored (by decide) rfl fun hk => absurd hk (by decide)

theorem readOrigin_outcome (h : readOrigin line = .ok r) : LineOutcome isOpen .origin r := by
  unfold readOrigin at h
  obtain ⟨vecs, -, h⟩ := bind_ok h
  split at h
  · cases h
    exact .rejected (by decide)
  · obtain ⟨origin, -, h⟩ := bind_ok h
    obtain ⟨vecs2, -, h⟩ := bind_ok h
    split at h
    · cases h
      exact .rejected (by decide)
    · obtain ⟨username, -, h⟩ := bind_ok h
      obtain ⟨sessionId, -, h⟩ := bind_ok h
      cases h
      exact .stored (by decide) rfl fun hk => absurd hk (by decide)

theorem readMedia_outcome (h : readMedia line = .ok r) : LineOutcome isOpen .media r := by
  unfold readMedia at h
  obtain ⟨vecs, -, h⟩ := bind_ok h
  split at h
  · cases h
    exact .rejected (by decide)
  · obtain ⟨media, -, h⟩ := bind_ok h
    obtain ⟨vecs2, -, h⟩ := bind_ok h
    split at h
    · cases h
      exact .rejected (by decide)
    · obtain ⟨port, -, h⟩ := bind_ok h
      obtain ⟨proto, -, h⟩ := bind_ok h
      split at h
      · cases h
        exact .rejected (by decide)
      · obtain ⟨kind, -, h⟩ := bind_ok h
        split at h
        · cases h
          exact .media rfl
        · cases h
          exact .rejected (by decide)

theorem readRtpmap_outcome (h : readRtpmap line = .ok r) : LineOutcome isOpen .rtpmap r := by
  unfold readRtpmap at h
  obtain ⟨vecs, -, h⟩ := bind_ok h
  split at h
  · cases h
    exact .rejected (by decide)
  · obtain ⟨rtpmap, -, h⟩ := bind_ok h
    obtain ⟨vecs2, -, h⟩ := bind_ok h
    split at h
    · cases h
      exact .rejected (by decide)
    · obtain ⟨head, -, h⟩ := bind_ok h
      obtain ⟨desc, -, h⟩ := bind_ok h
      split at h
      · cases h
        exact .rejected (by decide)
      · cases h
        exact .stored (by decide) rfl fun hk => absurd hk (by decide)

theorem readDtls_outcome (h : readDtls line = .ok r) : LineOutcome true .fingerprint r := by
  unfold readDtls at h
  split at h
  · cases h
    exact .rejected (by decide)
  · obtain ⟨vecs, -, h⟩ := bind_ok h
    split at h
    · cases h
      exact .rejected (by decide)
    · obtain ⟨alg, -, h⟩ := bind_ok h
      obtain ⟨fingerPrint, -, h⟩ := bind_ok h
      cases h
      exact .stored (by decide) rfl fun _ => rfl

theorem readSsrcs_outcome (h : readSsrcs line = .ok r) : LineOutcome true .ssrc r := by
  unfold readSsrcs at h
  obtain ⟨vecs, -, h⟩ := bind_ok h
  split at h
  · cases h
    exact .rejected (by decide)
  · obtain ⟨value, -, h⟩ := bind_ok h
    obtain ⟨head, -, h⟩ := bind_ok h
    obtain ⟨vecs2, -, h⟩ := bind_ok h
    obtain ⟨attri, -, h⟩ := bind_ok h
    obtain ⟨ssrc, -, h⟩ := bind_ok h
    cases h
    exact .stored (by decide) rfl fun _ => rfl

theorem readSsrcGroups_outcome (h : readSsrcGroups line = .ok r) :
    LineOutcome true .ssrcGroup r := by
  unfold readSsrcGroups at h
  obtain ⟨vecs, -, h⟩ := bind_ok h
  split at h
  · cases h
    exact .rejected (by decide)
  · obtain ⟨semantic, -, h⟩ := bind_ok h
    cases h
    exact .stored (by decide) rfl fun _ => rfl

/-- **What a line can be read as**, by its kind. -/
theorem readLine_outcome (h : readLine isOpen line = .ok r) :
    LineOutcome isOpen (kindOf line) r := by
  unfold readLine at h
  cases hk : kindOf line <;> rw [hk] at h
  case version => exact readVersion_outcome h
  case origin => exact readOrigin_outcome h
  case media => exact readMedia_outcome h
  case rtpmap => exact readRtpmap_outcome h
  case fingerprint =>
    cases isOpen with
    | false =>
        cases h
        exact .skipped (Or.inr ⟨rfl, rfl⟩)
    | true => exact readDtls_outcome h
  case ssrc =>
    cases isOpen with
    | false =>
        cases h
        exact .skipped (Or.inr ⟨rfl, rfl⟩)
    | true => exact readSsrcs_outcome h
  case ssrcGroup =>
    cases isOpen with
    | false =>
        cases h
        exact .skipped (Or.inr ⟨rfl, rfl⟩)
    | true => exact readSsrcGroups_outcome h
  case other =>
    cases h
    exact .skipped (Or.inl rfl)

/-- Lines that are read to their end, or up to the line that is rejected: the
verdict and the writes. -/
inductive Reads : Bool → Bool → List Str → Bool → List SdpWrite → Prop where
  | done {flag isOpen : Bool} : Reads flag isOpen [] flag []
  | stops {flag isOpen : Bool} {line : Str} {lines : List Str} {r : Reading}
      (h : readLine isOpen line = .ok r) (hf : r.flag flag = false) :
      Reads flag isOpen (line :: lines) false r.writes
  | goes {flag isOpen verdict : Bool} {line : Str} {lines : List Str} {r : Reading}
      {ws : List SdpWrite} (h : readLine isOpen line = .ok r) (hf : r.flag flag = true)
      (hr : Reads true (isOpen || kindOf line = .media) lines verdict ws) :
      Reads flag isOpen (line :: lines) verdict (r.writes ++ ws)

theorem reads_of_readLines {flag isOpen verdict : Bool} {lines : List Str}
    {ws : List SdpWrite} (h : readLines flag isOpen lines = .ok (verdict, ws)) :
    Reads flag isOpen lines verdict ws := by
  induction lines generalizing flag isOpen ws with
  | nil =>
      cases h
      exact .done
  | cons line lines ih =>
      unfold readLines at h
      obtain ⟨r, hr, h⟩ := bind_ok h
      cases hf : r.flag flag with
      | false =>
          rw [hf] at h
          cases h
          exact .stops hr hf
      | true =>
          rw [hf] at h
          obtain ⟨⟨verdict, ws⟩, hrest, h⟩ := bind_ok h
          cases h
          exact .goes hr hf (ih hrest)

/-! ## `parse_sdp` applies the writes -/

theorem SessionDescription.write_section (sd : SessionDescription) {w : SdpWrite}
    (h : w.kind.isSection = true) :
    sd.write w = { sd with mediaContents := sd.mediaContents.modifyLast (·.write w) } := by
  cases w <;> first | rfl | cases h

/-- The section pointer is null or points at the section opened last. -/
def ParseState.PtrOk (ps : ParseState) : Prop :=
  ps.ptr = none ∨ ∃ init m, ps.sd.mediaContents = init ++ [m] ∧ ps.ptr = some init.length

/-- What the loop carries on, from what was read. -/
def ParseState.next (ps : ParseState) (kind : LineKind) (r : Reading) : ParseState where
  flag := r.flag ps.flag
  ptr :=
    if kind = .media then
      if r.flag true then some ps.sd.mediaContents.length else none
    else ps.ptr
  sd := ps.sd.writeAll r.writes

theorem ParseState.onSection_eq {ps : ParseState} {init : List MediaContent}
    {m : MediaContent} (hm : ps.sd.mediaContents = init ++ [m]) {line : Str}
    {read : Str → Result Reading} {f : MediaContent → Result (Bool × MediaContent)}
    (hf : f m = (read line).map m.stored) {kind : LineKind}
    (hr : ∀ {r}, read line = .ok r → LineOutcome true kind r) (hk : kind.isSection = true) :
    ps.onSection init.length f = (read line).map (ps.next kind) := by
  have hmedia : kind ≠ .media := by
    rintro rfl
    cases hk
  have hi : index (init ++ [m]) init.length = .ok m := by simp [index]
  unfold onSection
  rw [hm, hi]
  change (f m >>= _) = _
  rw [hf]
  cases hread : read line with
  | error e => rfl
  | ok r =>
      cases hr hread with
      | rejected =>
          simp only [Except.map, bind, Except.bind, pure, Except.pure, MediaContent.stored, next,
            Reading.flag, Reading.writes, List.foldl_nil, SessionDescription.writeAll_nil]
          rw [if_neg hmedia, List.set_append_right _ _ (Nat.le_refl _), Nat.sub_self]
          rw [List.set_cons_zero, ← hm]
      | media h => exact absurd h hmedia
      | @stored w h hw =>
          simp only [Except.map, bind, Except.bind, pure, Except.pure, MediaContent.stored, next,
            Reading.flag, Reading.writes, List.foldl_cons, List.foldl_nil,
            SessionDescription.writeAll_cons, SessionDescription.writeAll_nil]
          rw [if_neg hmedia, List.set_append_right _ _ (Nat.le_refl _), Nat.sub_self]
          rw [List.set_cons_zero, ps.sd.write_section (hw ▸ hk), hm, List.modifyLast_concat]
      | skipped h =>
          rcases h with h | ⟨-, h⟩
          · rw [h] at hk
            cases hk
          · cases h

/-- A line that one of the parsers other than the one of `m=` looks at sets the
flag to what that parser returns. -/
theorem LineOutcome.flag_eq {kind : LineKind} (h : LineOutcome true kind r)
    (hm : kind ≠ .media) (ho : kind ≠ .other) (b b' : Bool) : r.flag b = r.flag b' := by
  cases h with
  | rejected => rfl
  | media h => exact absurd h hm
  | stored => rfl
  | skipped h =>
      rcases h with h | ⟨-, h⟩
      · exact absurd h ho
      · cases h

theorem ParseState.next_stored {ps : ParseState} {kind : LineKind}
    (h : LineOutcome true kind r) (hm : kind ≠ .media) (ho : kind ≠ .other) :
    ps.next kind r =
      { ps with flag := (ps.sd.stored r).1, sd := (ps.sd.stored r).2 } := by
  simp only [next, SessionDescription.stored, if_neg hm, h.flag_eq hm ho ps.flag false]

/-- A line nobody looks at changes nothing. -/
theorem ParseState.next_kept (ps : ParseState) {kind : LineKind} (hm : kind ≠ .media) :
    ps.next kind (.kept none) = ps := by
  simp only [next, if_neg hm, Reading.flag, Reading.writes, Option.toList_none,
    SessionDescription.writeAll_nil]

theorem map_congr {α β : Type} {x : Result α} {f g : α → β} (h : ∀ a, x = .ok a → f a = g a) :
    x.map f = x.map g := by
  cases x with
  | error e => rfl
  | ok a => exact congrArg Except.ok (h a rfl)

/-- The chain of tests as one choice. -/
theorem parseLine_kind (ps : ParseState) (line : Str) :
    parseLine ps line =
      match kindOf line, ps.ptr with
      | .version, _ => do
          let (flag, sd) ← ps.sd.parseVersion line
          return { ps with flag, sd }
      | .origin, _ => do
          let (flag, sd) ← ps.sd.parseOrigin line
          return { ps with flag, sd }
      | .media, _ => do
          let (ptr, sd) ← ps.sd.parseMedia line
          return { flag := if ptr.isNone then false else ps.flag, ptr, sd }
      | .rtpmap, _ => do
          let (flag, sd) ← ps.sd.parseRtpmap line
          return { ps with flag, sd }
      | .fingerprint, some i => ps.onSection i fun m => do
          let (flag, m) ← parseDtls m line
          return (flag, if flag then m.setIdentityFp else m)
      | .ssrc, some i => ps.onSection i fun m => parseSsrcs m line
      | .ssrcGroup, some i => ps.onSection i fun m => parseSsrcGroups m line
      | _, _ => .ok ps := by
  unfold parseLine kindOf
  cases ps.ptr <;> split_ifs <;> rfl

/-- **One turn of the loop** stores what its line asks for. -/
theorem parseLine_eq {ps : ParseState} (h : ps.PtrOk) (line : Str) :
    parseLine ps line = (readLine ps.ptr.isSome line).map (ps.next (kindOf line)) := by
  rw [parseLine_kind, readLine]
  cases hk : kindOf line
  case version =>
    dsimp only
    rw [SessionDescription.parseVersion_eq]
    rw [map_congr fun r hr => ParseState.next_stored (readVersion_outcome hr) nofun nofun]
    cases readVersion line <;> rfl
  case origin =>
    dsimp only
    rw [SessionDescription.parseOrigin_eq]
    rw [map_congr fun r hr => ParseState.next_stored (readOrigin_outcome hr) nofun nofun]
    cases readOrigin line <;> rfl
  case media =>
    dsimp only
    rw [SessionDescription.parseMedia_eq]
    cases hread : readMedia line with
    | error e => rfl
    | ok r =>
        cases r with
        | rejected => rfl
        | kept w => rfl
        | accepted w =>
            cases (readMedia_outcome hread : LineOutcome true .media _) with
            | stored hm => exact absurd rfl hm
  case rtpmap =>
    dsimp only
    rw [SessionDescription.parseRtpmap_eq]
    rw [map_congr fun r hr => ParseState.next_stored (readRtpmap_outcome hr) nofun nofun]
    cases readRtpmap line <;> rfl
  case other => exact congrArg Except.ok (ps.next_kept (by decide)).symm
  -- the parsers of a section are called on the section opened last
  all_goals
    rcases h with h | ⟨init, m, hm, h⟩
    all_goals rw [h]
  case fingerprint.inl => exact congrArg Except.ok (ps.next_kept (by decide)).symm
  case ssrc.inl => exact congrArg Except.ok (ps.next_kept (by decide)).symm
  case ssrcGroup.inl => exact congrArg Except.ok (ps.next_kept (by decide)).symm
  case fingerprint.inr =>
    exact ParseState.onSection_eq hm (parseDtls_eq m line) readDtls_outcome rfl
  case ssrc.inr => exact ParseState.onSection_eq hm (parseSsrcs_eq m line) readSsrcs_outcome rfl
  case ssrcGroup.inr =>
    exact ParseState.onSection_eq hm (parseSsrcGroups_eq m line) readSsrcGroups_outcome rfl

/-- Descriptions and nothing else are changed by a description. -/
theorem SessionDescription.setDesc_frame (sd : SessionDescription) (id : ℤ) (desc : Str) :
    ∃ video audio, sd.setDesc id desc =
      { sd with videoSup.codecIds := video, audioSup.codecIds := audio } := by
  unfold setDesc
  cases sd.videoSup.codecIds.lookup id with
  | some info => exact ⟨_, _, rfl⟩
  | none =>
      cases sd.audioSup.codecIds.lookup id with
      | some info => exact ⟨_, _, rfl⟩
      | none => exact ⟨_, _, rfl⟩

/-- Only `m=` lines open a section. -/
theorem SessionDescription.write_contents (sd : SessionDescription) {w : SdpWrite}
    {init : List MediaContent} {m : MediaContent} (hm : sd.mediaContents = init ++ [m])
    (hw : w.kind ≠ .media) : (sd.write w).mediaContents = init ++ [m.write w] := by
  by_cases hs : w.kind.isSection = true
  · rw [sd.write_section hs, hm, List.modifyLast_concat]
  · cases w with
    | version => exact hm
    | origin => exact hm
    | media => exact absurd rfl hw
    | desc id desc =>
        obtain ⟨video, audio, heq⟩ := sd.setDesc_frame id desc
        rw [write, heq]
        exact hm
    | dtls => exact absurd rfl hs
    | ssrc => exact absurd rfl hs
    | ssrcGroup => exact absurd rfl hs

theorem ParseState.PtrOk.next {ps : ParseState} (h : ps.PtrOk) {kind : LineKind}
    (hr : LineOutcome isOpen kind r) (hf : r.flag ps.flag = true) :
    (ps.next kind r).PtrOk := by
  cases hr with
  | rejected => cases hf
  | @media type sup hk =>
      refine Or.inr ⟨ps.sd.mediaContents, { type := type }, ?_, ?_⟩
      · cases type <;> rfl
      · subst hk
        rfl
  | @stored w hm hk =>
      rcases h with h | ⟨init, m, hc, h⟩
      · refine Or.inl ?_
        simp only [ParseState.next, if_neg hm, h]
      · refine Or.inr ⟨init, m.write w, ps.sd.write_contents hc (hk ▸ hm), ?_⟩
        simp only [ParseState.next, if_neg hm, h]
  | skipped hk =>
      rw [ps.next_kept (LineKind.not_media hk)]
      exact h

theorem ParseState.next_ptr {ps : ParseState} {kind : LineKind}
    (hr : LineOutcome isOpen kind r) (hf : r.flag ps.flag = true) :
    (ps.next kind r).ptr.isSome = (ps.ptr.isSome || kind = .media) := by
  unfold ParseState.next
  by_cases hm : kind = .media
  · cases hr with
    | rejected => cases hf
    | media hk => simp [hm, Reading.flag]
    | stored hm' => exact absurd hm hm'
    | skipped hk => exact absurd hm (LineKind.not_media hk)
  · simp [hm]

theorem parseLines_eq {ps : ParseState} (h : ps.PtrOk) (vecs : List Str) :
    parseLines vecs ps = (readLines ps.flag ps.ptr.isSome vecs).map fun r =>
      (r.1, ps.sd.writeAll r.2) := by
  induction vecs generalizing ps with
  | nil => rfl
  | cons line vecs ih =>
      unfold parseLines readLines
      rw [parseLine_eq h]
      cases hr : readLine ps.ptr.isSome line with
      | error e => rfl
      | ok r =>
          have hout := readLine_outcome hr
          cases hf : r.flag ps.flag with
          | false =>
              simp only [Except.map, bind, Except.bind, ParseState.next, hf]
              rfl
          | true =>
              have hih := ih (h.next hout hf)
              rw [ParseState.next_ptr hout hf] at hih
              simp only [Except.map, bind, Except.bind, ParseState.next, hf] at hih ⊢
              simp only [Bool.not_true, Bool.false_eq_true, if_false, hih]
              cases readLines true (ps.ptr.isSome || kindOf line = .media) vecs with
              | error e => rfl
              | ok p =>
                  exact congrArg (fun sd => Except.ok (p.1, sd))
                    (ps.sd.writeAll_append r.writes p.2).symm

/-- **Parsing is applying the writes**: the verdict and what is stored depend on
the lines only, the object is where it is stored. -/
theorem parseSdp_eq (sd : SessionDescription) (vecs : List Str) :
    sd.parseSdp vecs = (readLines false false vecs).map fun r => (r.1, sd.writeAll r.2) :=
  parseLines_eq (Or.inl rfl) vecs

theorem parseSdp_ok_iff {sd sd' : SessionDescription} {vecs : List Str} {flag : Bool} :
    sd.parseSdp vecs = .ok (flag, sd') ↔
      ∃ ws, readLines false false vecs = .ok (flag, ws) ∧ sd' = sd.writeAll ws := by
  rw [parseSdp_eq]
  cases readLines false false vecs with
  | error e => simp [Except.map]
  | ok p =>
      obtain ⟨verdict, ws⟩ := p
      simp [Except.map, eq_comm]

end JuanSfu
