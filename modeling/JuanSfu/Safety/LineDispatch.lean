import JuanSfu.Sdp.Grammar
import JuanSfu.Sdp.PlainLines

/-!
# Which parser a line gets

A line of an offer has a type of its own: the letter before its first equals
sign, and behind `a=` the name of the attribute. `parse_sdp` asks for seven
strings instead, anywhere in the line and in a fixed order. A line is handled
by the parser of its type when no string that is asked for earlier is in it,
and putting a line in changes nothing when none of the seven is.
-/

namespace JuanSfu

/-! ## The type of a line -/

def attributeType (name : Str) : LineKind :=
  if name = str "rtpmap" then .rtpmap
  else if name = str "fingerprint" then .fingerprint
  else if name = str "ssrc" then .ssrc
  else if name = str "ssrc-group" then .ssrcGroup
  else .other

/-- The type a letter stands for; behind `a=` the name goes up to the colon. -/
def typeBy (letter : UInt8) (value : Str) : LineKind :=
  if [letter] = str "v" then .version
  else if [letter] = str "o" then .origin
  else if [letter] = str "m" then .media
  else if [letter] = str "a" then attributeType (value.takeWhile (· ≠ 58))
  else .other

/-- What is behind the first equals sign. -/
def valueOf (line : Str) : Str := (line.dropWhile (· ≠ 61)).tail

def typeOf (line : Str) : LineKind :=
  match (line.takeWhile (· ≠ 61)).getLast?, line.dropWhile (· ≠ 61) with
  | some letter, _ :: value => typeBy letter value
  | _, _ => .other

/-- No string that is asked for before the one of the line's type is in the line,
and an attribute of a section has a colon. -/
def OwnTagFirst (line : Str) : Prop :=
  (∀ p ∈ tags.takeWhile (·.1 ≠ typeOf line), ¬ p.2 <:+: line) ∧
    ((typeOf line).isSection = true → 58 ∈ valueOf line)

instance (line : Str) : Decidable (OwnTagFirst line) :=
  inferInstanceAs (Decidable ((∀ p ∈ tags.takeWhile (·.1 ≠ typeOf line), ¬ p.2 <:+: line) ∧
    ((typeOf line).isSection = true → 58 ∈ valueOf line)))

/-- Putting the line anywhere behind the first line of an offer changes neither
the verdict nor what is stored. -/
def Neutral (line : Str) : Prop :=
  ∀ (sd : SessionDescription) (first : Str) (xs ys : List Str),
    sd.parseSdp (first :: xs ++ line :: ys) = sd.parseSdp (first :: xs ++ ys)

/-- **Dispatch by type.** Every line is given to the parser of its type
(`parseLine_kind` says that `kindOf` is the parser the chain of tests picks), and
lines of other types do not matter. -/
structure ByType (lines : List Str) : Prop where
  dispatched : ∀ line ∈ lines, kindOf line = typeOf line
  neutral : ∀ line ∈ lines, typeOf line = .other → Neutral line

/-! ## The first of a list of tests -/

/-- The first test that succeeds is the one with this key. -/
theorem find?_key_iff {κ α : Type} [DecidableEq κ] {d k : κ} (P : κ × α → Bool)
    {l : List (κ × α)} (hkeys : (l.map (·.1)).Nodup) (hd : d ∉ l.map (·.1)) :
    ((l.find? P).map (·.1)).getD d = k ↔
      (∀ p ∈ l.takeWhile (·.1 ≠ k), P p = false) ∧
        (k ≠ d → ∃ p ∈ l, p.1 = k ∧ P p = true) := by
  induction l with
  | nil =>
      constructor
      · exact fun h => ⟨fun p hp => absurd hp List.not_mem_nil, fun hk => absurd h.symm hk⟩
      · intro h
        by_contra hne
        obtain ⟨p, hp, -⟩ := h.2 (Ne.symm hne)
        exact List.not_mem_nil hp
  | cons q l ih =>
      rw [List.map_cons, List.nodup_cons] at hkeys
      rw [List.map_cons, List.mem_cons, not_or] at hd
      have hih := ih hkeys.2 hd.2
      by_cases hk : q.1 = k
      · -- the test with this key comes first
        rw [List.takeWhile_cons_of_neg (by simpa using hk)]
        by_cases hq : P q = true
        · rw [List.find?_cons_of_pos hq]
          refine iff_of_true hk ⟨fun p hp => absurd hp List.not_mem_nil, fun _ => ?_⟩
          exact ⟨q, List.mem_cons_self .., hk, hq⟩
        · have hnone : ¬ ∃ p ∈ l, p.1 = k ∧ P p = true := by
            rintro ⟨p, hp, hpk, -⟩
            exact hkeys.1 (hk.trans hpk.symm ▸ List.mem_map_of_mem hp)
          have hne : k ≠ d := fun h => hd.1 (h.symm.trans hk.symm)
          rw [List.find?_cons_of_neg hq, hih]
          refine iff_of_false (fun h => hnone (h.2 hne)) fun h => ?_
          rcases (List.exists_mem_cons_iff _ _ _).mp (h.2 hne) with ⟨-, hpq⟩ | hex
          · exact hq hpq
          · exact hnone hex
      · rw [List.takeWhile_cons_of_pos (by simpa using hk), List.forall_mem_cons,
          List.exists_mem_cons_iff]
        by_cases hq : P q = true
        · rw [List.find?_cons_of_pos hq]
          refine iff_of_false hk fun h => ?_
          rw [hq] at h
          exact absurd h.1.1 (by decide)
        · rw [List.find?_cons_of_neg hq, hih]
          simp only [hk, hq, false_and, false_or, true_and]

/-! ## The string of a line's own type -/

theorem typeOf_eq {front value : Str} {letter : UInt8} (h : 61 ∉ front ++ [letter]) :
    typeOf (front ++ [letter] ++ 61 :: value) = typeBy letter value := by
  rw [typeOf, takeWhile_first h, dropWhile_first h, List.getLast?_concat]

/-- Where a line gets its type from. -/
theorem exists_of_typeOf {line : Str} (h : typeOf line ≠ .other) :
    ∃ front letter value, line = front ++ [letter] ++ 61 :: value ∧ 61 ∉ front ++ [letter] ∧
      valueOf line = value ∧ typeOf line = typeBy letter value := by
  by_cases hequals : 61 ∈ line
  · obtain ⟨front, value, rfl, hfront⟩ := List.eq_append_cons_of_mem hequals
    rcases List.eq_nil_or_concat' front with rfl | ⟨init, letter, rfl⟩
    · exact absurd rfl h
    · refine ⟨init, letter, value, rfl, hfront, ?_, typeOf_eq hfront⟩
      rw [valueOf, dropWhile_first hfront, List.tail_cons]
  · have hdrop : line.dropWhile (· ≠ 61) = [] := by
      rw [List.dropWhile_eq_nil_iff]
      exact forall_ne_of_notMem hequals
    refine absurd ?_ h
    rw [typeOf, hdrop]
    cases (line.takeWhile (· ≠ 61)).getLast? <;> rfl

/-- A name is followed by the colon it goes up to. -/
theorem name_prefix_iff {name value : Str} (h : value.takeWhile (· ≠ 58) = name) :
    name ++ [58] <+: value ↔ 58 ∈ value := by
  constructor
  · exact fun hp => hp.subset (List.mem_append_right _ (List.mem_singleton_self 58))
  · intro hmem
    obtain ⟨before, rest, rfl, hbefore⟩ := List.eq_append_cons_of_mem hmem
    rw [takeWhile_first hbefore] at h
    exact ⟨rest, by rw [← h, List.append_assoc]; rfl⟩

theorem attributeType_cases {name : Str} (h : attributeType name ≠ .other) :
    attributeType name = .rtpmap ∧ name = str "rtpmap" ∨
      (attributeType name).isSection = true ∧ 61 ∉ name ∧
        (attributeType name, str "a=" ++ (name ++ [58])) ∈ tags := by
  unfold attributeType at h ⊢
  split_ifs at h ⊢ with hrtpmap hfingerprint hssrc hgroup
  · exact Or.inl ⟨rfl, hrtpmap⟩
  · subst hfingerprint
    exact Or.inr (by decide)
  · subst hssrc
    exact Or.inr (by decide)
  · subst hgroup
    exact Or.inr (by decide)
  · exact absurd rfl h

/-- Behind the sign of its type, a line has what its type is tested for; an
attribute of a section only where it has a colon. -/
theorem typeBy_tag {letter : UInt8} {value : Str} (h : typeBy letter value ≠ .other) :
    ∃ p, (typeBy letter value, letter :: 61 :: p) ∈ tags ∧
      (p <+: value ↔ ((typeBy letter value).isSection = true → 58 ∈ value)) := by
  unfold typeBy at h ⊢
  split_ifs at h ⊢ with hv ho hm ha
  · cases hv
    exact ⟨[], by decide, iff_of_true List.nil_prefix nofun⟩
  · cases ho
    exact ⟨[], by decide, iff_of_true List.nil_prefix nofun⟩
  · cases hm
    exact ⟨[], by decide, iff_of_true List.nil_prefix nofun⟩
  · cases ha
    generalize hname : value.takeWhile (· ≠ 58) = name at h ⊢
    rcases attributeType_cases h with ⟨hk, hrtpmap⟩ | ⟨hs, -, htag⟩
    · have hbehind : str "rtpmap" <+: value := by
        rw [← hrtpmap, ← hname]
        exact List.takeWhile_prefix _
      rw [hk]
      exact ⟨str "rtpmap", by decide, iff_of_true hbehind nofun⟩
    · refine ⟨name ++ [58], htag, ?_⟩
      rw [name_prefix_iff hname, hs]
      exact ⟨fun hmem _ => hmem, fun hmem => hmem rfl⟩
  · exact absurd rfl h

/-- An attribute of a section without a colon is its name. -/
theorem typeBy_noColon {letter : UInt8} {value : Str}
    (h : (typeBy letter value).isSection = true) (hcolon : 58 ∉ value) : 61 ∉ value := by
  have hname : value.takeWhile (· ≠ 58) = value := by
    rw [List.takeWhile_eq_self_iff]
    exact forall_ne_of_notMem hcolon
  unfold typeBy at h
  split_ifs at h with hv ho hm ha
  · cases h
  · cases h
  · cases h
  · rw [hname] at h
    have hother : attributeType value ≠ .other := fun hk => by rw [hk] at h; cases h
    rcases attributeType_cases hother with ⟨hk, -⟩ | ⟨-, hequals, -⟩
    · rw [hk] at h
      cases h
    · exact hequals
  · cases h

/-- A tag that occurs where there is one equals sign only begins in front of it. -/
theorem behind_of_occurs {front value p : Str} {letter x : UInt8} (hfront : 61 ∉ front ++ [letter])
    (hvalue : 61 ∉ value) (h : x :: 61 :: p <:+: front ++ [letter] ++ 61 :: value) :
    p <+: value := by
  obtain ⟨before, behind, heq⟩ := h
  have hcut : (before ++ [x]) ++ 61 :: (p ++ behind) = front ++ [letter] ++ 61 :: value := by
    rw [← heq]
    simp only [List.append_assoc, List.cons_append, List.nil_append]
  rw [eq_comm, List.append_cons_inj_of_notMem hfront hvalue] at hcut
  exact ⟨behind, hcut.2.2.symm⟩

theorem tag_unique {p q : LineKind × Str} (hp : p ∈ tags) (hq : q ∈ tags) (h : p.1 = q.1) :
    p = q := by
  have hkeys : ∀ p ∈ tags, ∀ q ∈ tags, p.1 = q.1 → p = q := by decide
  exact hkeys p hp q hq h

/-- The string of a line's own type is in the line. -/
theorem own_tag_iff {line : Str} (hk : typeOf line ≠ .other) :
    (∃ p ∈ tags, p.1 = typeOf line ∧ contains line p.2 = true) ↔
      ((typeOf line).isSection = true → 58 ∈ valueOf line) := by
  obtain ⟨front, letter, value, hline, hfront, hvalue, htype⟩ := exists_of_typeOf hk
  rw [htype] at hk ⊢
  obtain ⟨p, htag, hbehind⟩ := typeBy_tag hk
  rw [hvalue, ← hbehind]
  constructor
  · rintro ⟨q, hq, hkq, hin⟩
    cases tag_unique hq htag hkq
    rw [contains_iff, hline] at hin
    rw [hbehind]
    intro hs
    by_contra hcolon
    exact hcolon (hbehind.mp (behind_of_occurs hfront (typeBy_noColon hs hcolon) hin) hs)
  · rintro ⟨rest, rfl⟩
    refine ⟨_, htag, rfl, contains_iff.mpr ⟨front, rest, ?_⟩⟩
    rw [hline]
    simp only [List.append_assoc, List.cons_append, List.nil_append]

/-- **Which lines get the parser of their type.** -/
theorem kindOf_eq_typeOf_iff {line : Str} : kindOf line = typeOf line ↔ OwnTagFirst line := by
  rw [kindOf_eq, find?_key_iff (fun p => contains line p.2) (by decide) (by decide)]
  refine and_congr ?_ ?_
  · refine forall₂_congr fun p _ => ?_
    rw [← Bool.not_eq_true, contains_iff]
  · by_cases hk : typeOf line = .other
    · rw [hk]
      exact iff_of_true (fun h => absurd rfl h) nofun
    · rw [← own_tag_iff hk]
      exact imp_iff_right hk

example : OwnTagFirst (str "a=ssrc:1 cname:x") ∧ ¬ OwnTagFirst (str "a=ssrc:1 cname:v=") := by
  decide

/-! ## Lines that do not matter -/

theorem kindOf_other_iff {line : Str} : kindOf line = .other ↔ ∀ p ∈ tags, ¬ p.2 <:+: line := by
  have htake : tags.takeWhile (·.1 ≠ LineKind.other) = tags := by decide
  rw [kindOf_eq, find?_key_iff (fun p => contains line p.2) (by decide) (by decide), htake]
  rw [and_iff_left fun h => absurd rfl h]
  refine forall₂_congr fun p _ => ?_
  rw [← Bool.not_eq_true, contains_iff]

theorem readLines_insert {line : Str} (h : kindOf line = .other) (isOpen : Bool)
    (xs ys : List Str) :
    readLines true isOpen (xs ++ line :: ys) = readLines true isOpen (xs ++ ys) := by
  induction xs generalizing isOpen with
  | nil =>
      have hgoes : Goes isOpen [line] isOpen [] := .other (List.forall_mem_singleton.mpr h)
      have hrest := hgoes ys
      rw [List.cons_append, List.nil_append] at hrest
      rw [List.nil_append, List.nil_append, hrest]
      cases readLines true isOpen ys <;> rfl
  | cons x xs ih =>
      rw [List.cons_append, List.cons_append, readLines, readLines]
      simp only [ih]

theorem neutral_of_other {line : Str} (h : kindOf line = .other) : Neutral line := by
  intro sd first xs ys
  rw [parseSdp_eq, parseSdp_eq, List.cons_append, List.cons_append, readLines, readLines]
  simp only [readLines_insert h]

/-! ## Lines that do -/

/-- An audio section behind a version. -/
def openSection (version : Str) : List SdpWrite :=
  [.version version, .media .audio { port := 9, dtls := false, codecIds := codecIdsOf [str "1"] }]

theorem readLines_singleton (isOpen : Bool) (line : Str) : readLines true isOpen [line] =
    (readLine isOpen line).map fun r => (r.flag true, r.writes) := by
  rw [readLines]
  cases readLine isOpen line with
  | error e => rfl
  | ok r =>
      show (if !r.flag true then _ else _) = Except.ok (r.flag true, r.writes)
      cases r.flag true with
      | false => rfl
      | true => exact congrArg (fun ws => Except.ok (true, ws)) (List.append_nil _)

/-- A line that leaves a section alone is read there, and stores nothing new. -/
theorem Neutral.reading {line : Str} (h : Neutral line) (sd : SessionDescription)
    {version : Str} (hfree : FreeOf (str "=") version) (hne : version ≠ []) :
    ∃ r, readLine true line = .ok r ∧ r.flag true = true ∧
      (sd.writeAll (openSection version)).writeAll r.writes =
        sd.writeAll (openSection version) := by
  have hmedia : Goes false [str "m=audio 9 RTP/SAVPF 1"] true [.media .audio
      { port := 9, dtls := false, codecIds := codecIdsOf [str "1"] }] :=
    .media (by decide) rfl
  have hversion : readLine false (str "v=" ++ version) = .ok (.accepted (.version version)) :=
    readLine_version hfree hne
  have hwithout : readLines false false [str "v=" ++ version, str "m=audio 9 RTP/SAVPF 1"] =
      .ok (true, openSection version) := readLines_of_goes hversion hmedia
  have hkind : kindOf (str "v=" ++ version) ≠ .media := by
    cases readLine_outcome hversion with
    | stored hm => exact hm
  have hwith : readLines false false [str "v=" ++ version, str "m=audio 9 RTP/SAVPF 1", line] =
      (readLine true line).map fun r => (r.flag true, openSection version ++ r.writes) := by
    have hrest := hmedia [line]
    rw [readLines_singleton] at hrest
    rw [readLines, hversion]
    show (readLines true (false || kindOf _ = .media) ([_] ++ [line]) >>= _) = _
    rw [decide_eq_false hkind, Bool.or_false, hrest]
    cases readLine true line <;> rfl
  have heq := h sd (str "v=" ++ version) [str "m=audio 9 RTP/SAVPF 1"] []
  rw [List.append_nil, parseSdp_eq, parseSdp_eq] at heq
  rw [List.cons_append, List.cons_append, List.nil_append, hwith, hwithout] at heq
  cases hr : readLine true line with
  | error e =>
      rw [hr] at heq
      cases heq
  | ok r =>
      rw [hr] at heq
      have hpair := Except.ok.inj heq
      rw [Prod.mk.injEq, SessionDescription.writeAll_append] at hpair
      exact ⟨r, rfl, hpair⟩

/-- Whatever is stored can be seen, behind one version or the other. -/
theorem exists_write_ne (w : SdpWrite) : ∃ (sd : SessionDescription) (version : Str),
    FreeOf (str "=") version ∧ version ≠ [] ∧
      (sd.writeAll (openSection version)).write w ≠ sd.writeAll (openSection version) := by
  cases w with
  | version v =>
      by_cases hv : v = str "0"
      · refine ⟨{}, str "1", by decide, by decide, fun h => ?_⟩
        have hstored : v = str "1" := congrArg (·.session.version) h
        rw [hv] at hstored
        exact absurd hstored (by decide)
      · exact ⟨{}, str "0", by decide, by decide, fun h => hv (congrArg (·.session.version) h)⟩
  | origin username sessionId =>
      refine ⟨{ session := { username := username ++ [0] } }, str "0", by decide, by decide, ?_⟩
      intro h
      have husername : username = username ++ [0] := congrArg (·.session.username) h
      simp at husername
  | media type sup =>
      refine ⟨{}, str "0", by decide, by decide, fun h => ?_⟩
      have hlen := congrArg (·.mediaContents.length) h
      cases type <;> cases hlen
  | desc id desc =>
      -- the payload type is known, with a longer description
      generalize hids : (AList.singleton id { payloadType := id, desc := desc ++ [0] } :
        UnorderedMap ℤ CodecInfo) = ids
      have hlookup : ids.lookup id = some { payloadType := id, desc := desc ++ [0] } := by
        rw [← hids, UnorderedMap.lookup_singleton_ite, if_pos rfl]
      refine ⟨{ videoSup.codecIds := ids }, str "0", by decide, by decide, fun h => ?_⟩
      have hwrite := congrArg (·.videoSup.codecIds.lookup id) h
      have hset : ∀ sd : SessionDescription, sd.videoSup.codecIds = ids →
          (sd.setDesc id desc).videoSup.codecIds.lookup id =
            some { payloadType := id, desc := desc } := by
        intro sd hsd
        rw [SessionDescription.setDesc, hsd, hlookup]
        dsimp only
        rw [UnorderedMap.lookup_insert_ite, if_pos rfl]
      have hdesc := (hset _ rfl).symm.trans (hwrite.trans hlookup)
      simp at hdesc
  | dtls d =>
      refine ⟨{}, str "0", by decide, by decide, fun h => ?_⟩
      cases congrArg (·.mediaContents) h
  | ssrc p =>
      refine ⟨{}, str "0", by decide, by decide, fun h => ?_⟩
      cases congrArg (·.mediaContents) h
  | ssrcGroup g =>
      refine ⟨{}, str "0", by decide, by decide, fun h => ?_⟩
      cases congrArg (·.mediaContents) h

theorem other_of_neutral {line : Str} (h : Neutral line) : kindOf line = .other := by
  obtain ⟨r, hr, hflag, -⟩ := h.reading {} (show FreeOf (str "=") (str "0") by decide) (by decide)
  have hstores : ∀ w, r.writes = [w] → False := by
    intro w hw
    obtain ⟨sd, version, hfree, hne, hdiffers⟩ := exists_write_ne w
    obtain ⟨r', hr', -, hsame⟩ := h.reading sd hfree hne
    cases hr.symm.trans hr'
    rw [hw] at hsame
    exact hdiffers hsame
  cases readLine_outcome hr with
  | rejected => cases hflag
  | media => exact absurd rfl (hstores _)
  | stored => exact absurd rfl (hstores _)
  | skipped hk =>
      rcases hk with hk | ⟨-, hk⟩
      · exact hk
      · cases hk

theorem neutral_iff {line : Str} : Neutral line ↔ ∀ p ∈ tags, ¬ p.2 <:+: line :=
  ⟨fun h => kindOf_other_iff.mp (other_of_neutral h),
    fun h => neutral_of_other (kindOf_other_iff.mpr h)⟩

/-! ## Whole offers -/

/-- **Lines are dispatched by their type** in the offers each of whose lines has
the string of its type first; a line can be put in anywhere when it has none. -/
theorem byType_iff (lines : List Str) :
    (ByType lines ↔ ∀ line ∈ lines, OwnTagFirst line) ∧
      ∀ line, Neutral line ↔ ∀ p ∈ tags, ¬ p.2 <:+: line := by
  refine ⟨⟨?_, fun h => ⟨?_, ?_⟩⟩, fun line => neutral_iff⟩
  · exact fun h line hl => kindOf_eq_typeOf_iff.mp (h.dispatched line hl)
  · exact fun line hl => kindOf_eq_typeOf_iff.mpr (h line hl)
  · intro line hl hk
    apply neutral_of_other
    rw [kindOf_eq_typeOf_iff.mpr (h line hl), hk]

/-- An attribute whose value ends in `stereo=1` is given to `parse_origin`, and
the offer is rejected for it. -/
theorem not_byType_stereo :
    ¬ ByType [str "v=0", str "a=fmtp:111 stereo=1"] ∧
      ({} : SessionDescription).parseSdp [str "v=0"] =
        .ok (true, { session := { version := str "0" } }) ∧
      ({} : SessionDescription).parseSdp [str "v=0", str "a=fmtp:111 stereo=1"] =
        .ok (false, { session := { version := str "0" } }) := by
  refine ⟨fun h => ?_, rfl, rfl⟩
  have hkind := h.dispatched (str "a=fmtp:111 stereo=1") (by simp)
  have hfound : kindOf (str "a=fmtp:111 stereo=1") = .origin := by decide
  have htype : typeOf (str "a=fmtp:111 stereo=1") = .other := by decide
  rw [hfound, htype] at hkind
  cases hkind

end JuanSfu
