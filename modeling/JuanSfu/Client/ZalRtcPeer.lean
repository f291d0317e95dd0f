import JuanSfu.Signaling.SignalingHandle

/-!
# `webrtc-client/p2p/main.js`

What the browser client puts into the `sdp` member of a request, and what the
server makes of it. The client stringifies its session description twice; the
server's JSON parser undoes the outer time, and the handlers cut the rest by
position. The texts are bytes, in UTF-8.
-/

namespace JuanSfu

open Server

/-! ## The client -/

/-- What `JSON.stringify` writes for one byte of a string. -/
def jsonEscape (c : UInt8) : Str :=
  if c = 34 then str "\\\""
  else if c = 92 then str "\\\\"
  else if c = 8 then str "\\b"
  else if c = 9 then str "\\t"
  else if c = 10 then str "\\n"
  else if c = 12 then str "\\f"
  else if c = 13 then str "\\r"
  else if c < 32 then str "\\u00" ++ [48 + c / 16, (str "0123456789abcdef").getD (c % 16).toNat 0]
  else [c]

def jsonQuote (s : Str) : Str := str "\"" ++ (s.map jsonEscape).flatten ++ str "\""

/-- An `RTCSessionDescription`. -/
structure LocalDesc where
  type : Str
  sdp : Str

/-- `JSON.stringify(local_desc)`. -/
def LocalDesc.stringify (desc : LocalDesc) : Str :=
  str "\x7b\"type\":" ++ jsonQuote desc.type ++ str ",\"sdp\":" ++ jsonQuote desc.sdp ++
    str "\x7d"

structure ZalRtcPeer where
  roomId : Str
  localUid : Str
  remoteUid : Str
  localDesc : LocalDesc

/-- The message of `sendSdpOffer`, as the server's parser reads it. `remoteUid`
is the page's variable that decides between the two kinds of request. -/
def ZalRtcPeer.sendSdpOffer (peer : ZalRtcPeer) (remoteUid : Str) : Json :=
  if remoteUid.length > 0 then
    requestOf (str "pullstream") peer.roomId peer.localUid
      [(str "remote_uid", .string peer.remoteUid),
        (str "sdp", .string peer.localDesc.stringify)]
  else
    requestOf (str "publish") peer.roomId peer.localUid
      [(str "sdp", .string peer.localDesc.stringify)]

/-- A browser's offer: its lines, each ended by CRLF. -/
def offerOfLines (lines : List Str) : LocalDesc where
  type := str "offer"
  sdp := (lines.map (· ++ crlf)).flatten

/-! ## The lines of the offer -/

/-- A byte that `JSON.stringify` leaves as it is. -/
def plainByte (c : UInt8) : Prop := c ≠ 34 ∧ c ≠ 92 ∧ 32 ≤ c

instance : DecidablePred plainByte := fun _ => inferInstanceAs (Decidable (_ ∧ _ ∧ _))

/-- Along the line, not over all the bytes there are. -/
instance (line : Str) : Decidable (∀ c ∈ line, plainByte c) := List.decidableBAll plainByte line

theorem jsonEscape_plain {c : UInt8} (h : plainByte c) : jsonEscape c = [c] := by
  obtain ⟨hquote, hback, hctl⟩ := h
  have hne : c ≠ 8 ∧ c ≠ 9 ∧ c ≠ 10 ∧ c ≠ 12 ∧ c ≠ 13 ∧ ¬ c < 32 := by
    simp only [ne_eq, ← UInt8.toNat_inj, UInt8.lt_iff_toNat_lt, UInt8.le_iff_toNat_le,
      UInt8.reduceToNat] at hctl ⊢
    omega
  simp [jsonEscape, hquote, hback, hne]

theorem flatten_jsonEscape {s : Str} (h : ∀ c ∈ s, plainByte c) :
    (s.map jsonEscape).flatten = s := by
  induction s with
  | nil => rfl
  | cons c s ih =>
      rw [List.forall_mem_cons] at h
      rw [List.map_cons, List.flatten_cons, jsonEscape_plain h.1, ih h.2]
      rfl

/-- Inside the quotes every line is followed by the escaped line end. -/
theorem jsonQuote_lines {lines : List Str} (h : ∀ line ∈ lines, ∀ c ∈ line, plainByte c) :
    jsonQuote (lines.map (· ++ crlf)).flatten =
      str "\"" ++ (lines.map (· ++ escapedCrlf)).flatten ++ str "\"" := by
  have hbody : ((lines.map (· ++ crlf)).flatten.map jsonEscape).flatten =
      (lines.map (· ++ escapedCrlf)).flatten := by
    induction lines with
    | nil => rfl
    | cons line lines ih =>
        rw [List.forall_mem_cons] at h
        simp only [List.map_cons, List.flatten_cons, List.map_append, List.flatten_append]
        rw [flatten_jsonEscape h.1, ih h.2]
        rfl
  rw [jsonQuote, hbody]

/-- The handlers cut from behind the first `sdp":"` to six bytes before the end. -/
theorem sdpstrOf_append {before body ending : Str}
    (hbefore : ¬ sdpStart <:+: before ++ sdpStart.dropLast) (hend : ending.length = 6) :
    sdpstrOf (before ++ sdpStart ++ (body ++ ending)) = some body := by
  have hlen : (before ++ sdpStart ++ (body ++ ending)).length =
      before.length + 6 + (body.length + 6) := by
    simp only [List.length_append, hend]
    rfl
  have hstart : sdpStart.length = 6 := rfl
  have hn : before.length + 6 + (body.length + 6) - before.length - 2 - 6 - 4 =
      body.length := by omega
  rw [sdpstrOf, find_first hbefore, Option.map_some]
  dsimp only
  rw [hlen, hstart, if_pos (by omega), hn, substr, ← hstart, ← List.length_append,
    List.drop_left, List.take_left]

/-- The six bytes that are cut off are the last line end and the closing `"}`. -/
theorem sdpstrOf_stringify {lines : List Str} {last : Str}
    (h : ∀ line ∈ lines ++ [last], ∀ c ∈ line, plainByte c) :
    sdpstrOf (offerOfLines (lines ++ [last])).stringify =
      some ((lines.map (· ++ escapedCrlf)).flatten ++ last) := by
  have htext : (offerOfLines (lines ++ [last])).stringify =
      str "\x7b\"type\":\"offer\",\"" ++ sdpStart ++
        ((lines.map (· ++ escapedCrlf)).flatten ++ last ++ (escapedCrlf ++ str "\"\x7d")) := by
    rw [LocalDesc.stringify, offerOfLines]
    dsimp only
    rw [jsonQuote_lines h]
    simp only [List.map_append, List.flatten_append, List.map_cons, List.map_nil,
      List.flatten_cons, List.flatten_nil, List.append_nil, List.append_assoc]
    rfl
  rw [htext]
  refine sdpstrOf_append ?_ rfl
  rw [← contains_iff]
  decide

/-- The escaped line end does not begin inside a plain line. -/
theorem no_escapedCrlf {line : Str} (h : ∀ c ∈ line, plainByte c) :
    ¬ escapedCrlf <:+: line :=
  Cuts.not_infix_of_notMem (c := 92) (by decide) fun hc => (h 92 hc).2.1 rfl

/-- **The lines the browser sent are the lines the handlers get**, whichever of
the two requests carries them. -/
theorem sdpLines_sendSdpOffer {lines : List Str} (hn : 6 ≤ lines.length)
    (hlines : ∀ line ∈ lines, line ≠ [] ∧ ∀ c ∈ line, plainByte c)
    {peer : ZalRtcPeer} (hdesc : peer.localDesc = offerOfLines lines) (remoteUid : Str) :
    sdpLines (peer.sendSdpOffer remoteUid) = .ok (some lines) := by
  have hsdp : getJsonString (peer.sendSdpOffer remoteUid) (str "sdp") [] =
      .ok peer.localDesc.stringify := by
    unfold ZalRtcPeer.sendSdpOffer
    split
    · rfl
    · rfl
  have hplain : ∀ line ∈ lines, ∀ c ∈ line, plainByte c := fun line hl => (hlines line hl).2
  rcases List.eq_nil_or_concat lines with rfl | ⟨init, last, rfl⟩
  · exact absurd hn (by decide)
  rw [List.concat_eq_append] at *
  have hsdpstr := sdpstrOf_stringify hplain
  have hsplit : split ((init.map (· ++ escapedCrlf)).flatten ++ last) escapedCrlf [] =
      .ok (init ++ [last]) := by
    have hcuts := Cuts.of_lines (by decide : Unbordered escapedCrlf)
      (fun line hl => no_escapedCrlf (hplain line (List.mem_append_left _ hl)))
      (no_escapedCrlf (hplain last (List.mem_append_right _ (List.mem_singleton_self _))))
    rw [split_cuts hcuts, List.filter_eq_self.mpr]
    intro line hl
    exact decide_eq_true (hlines line hl).1
  rw [← hdesc] at hsdpstr
  have hlen : ¬ (init ++ [last]).length < 6 := Nat.not_lt.mpr hn
  unfold sdpLines
  simp only [hsdp, hsdpstr, hsplit, hlen, bind, Except.bind, pure, Except.pure, if_false]

/-- A small offer, as the page sends it to pull the streams of `b`. -/
def smallOffer : List Str :=
  [str "v=0", str "o=- 1 2 IN IP4 127.0.0.1", str "s=-", str "t=0 0",
    str "m=audio 9 UDP/TLS/RTP/SAVPF 111", str "a=fingerprint:sha-256 AB:CD"]

theorem sdpLines_smallOffer :
    sdpLines (ZalRtcPeer.sendSdpOffer ⟨str "7", str "a", str "b", offerOfLines smallOffer⟩
      (str "b")) = .ok (some smallOffer) :=
  sdpLines_sendSdpOffer (by decide) (by decide) rfl (str "b")

end JuanSfu
