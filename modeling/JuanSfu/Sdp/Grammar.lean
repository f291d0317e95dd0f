import JuanSfu.Sdp.Lines

/-!
# The grammar of the lines of an offer

What each line parser asks of its line and gets from it, by the fields of the
line and without the object it stores into. A line parser cuts with `split`, so
empty fields do not count. `readX_eq` says that a parser is its grammar; for
`a=ssrc:` lines only where the parser does not index past its words.
-/

namespace JuanSfu

/-! ## Tags -/

/-- The seven substring tests in their order, each with the parser it picks. -/
def tags : List (LineKind × Str) :=
  [(.version, str "v="), (.origin, str "o="), (.media, str "m="), (.rtpmap, str "a=rtpmap"),
    (.fingerprint, str "a=fingerprint:"), (.ssrc, str "a=ssrc:"),
    (.ssrcGroup, str "a=ssrc-group:")]

theorem kindOf_eq (line : Str) :
    kindOf line = ((tags.find? fun p => contains line p.2).map (·.1)).getD .other := by
  unfold kindOf tags
  simp only [List.find?_cons, List.find?_nil]
  cases contains line (str "v=") <;> cases contains line (str "o=") <;>
    cases contains line (str "m=") <;> cases contains line (str "a=rtpmap") <;>
    cases contains line (str "a=fingerprint:") <;> cases contains line (str "a=ssrc:") <;>
    cases contains line (str "a=ssrc-group:") <;> rfl

/-! ## Lines by their fields -/

/-- What is behind the equals sign, where there is one with text on both sides. -/
def behindEquals (line : Str) : Option Str :=
  match fieldsAt 61 line with
  | [_, body] => some body
  | _ => none

def originOf (line : Str) : Option (Str × Str) :=
  (behindEquals line).bind fun body =>
    match fieldsAt 32 body with
    | [username, sessionId, _, _, _, _] => some (username, sessionId)
    | _ => none

def mediaOf (line : Str) : Option (MediaType × MediaCodecSupport) :=
  (behindEquals line).bind fun body =>
    match fieldsAt 32 body with
    | kind :: port :: proto :: pt :: pts =>
        if proto = mediaProtoDtlsSavpf ∨ proto = mediaProtoSavpf then
          (mediaTypeOf kind).map fun type =>
            (type, { port := atoi port, dtls := proto == mediaProtoDtlsSavpf,
                     codecIds := codecIdsOf (pt :: pts) })
        else none
    | _ => none

def rtpmapOf (line : Str) : Option (ℤ × Str) :=
  (behindEquals line).bind fun body =>
    match fieldsAt 32 body with
    | [head, desc] =>
        (find head (str ":") 0).map fun pos => (atoi (head.drop (pos + 1)), desc)
    | _ => none

def fingerprintOf (line : Str) : Option DtlsParameter :=
  (find line (str ":") 0).bind fun pos =>
    match fieldsAt 32 (line.drop (pos + 1)) with
    | [alg, fingerPrint] =>
        some { alg, fingerPrint, identityFp := createUniqueFromRfc4572 alg fingerPrint }
    | _ => none

def ssrcOf (line : Str) : Option SsrcParameter :=
  match fieldsAt 58 (afterColon line) with
  | [head, value] =>
      match fieldsAt 32 head with
      | ssrc :: attri :: _ => some ⟨UInt32.ofInt (atoll ssrc), attri, value⟩
      | _ => none
  | _ => none

def ssrcGroupOf (line : Str) : Option SsrcGroup :=
  match fieldsAt 32 (afterColon line) with
  | semantic :: ssrc :: ssrcs =>
      some ⟨semantic, (ssrc :: ssrcs).map fun v => UInt32.ofInt (atoll v)⟩
  | _ => none

/-- What a line of this kind stores, if it has the grammar of its kind. -/
def writeOf (kind : LineKind) (line : Str) : Option SdpWrite :=
  match kind with
  | .version => (behindEquals line).map .version
  | .origin => (originOf line).map fun p => .origin p.1 p.2
  | .media => (mediaOf line).map fun p => .media p.1 p.2
  | .rtpmap => (rtpmapOf line).map fun p => .desc p.1 p.2
  | .fingerprint => (fingerprintOf line).map .dtls
  | .ssrc => (ssrcOf line).map .ssrc
  | .ssrcGroup => (ssrcGroupOf line).map .ssrcGroup
  | .other => none

/-! ## The parsers are the grammars -/

/-- A line that has the grammar is accepted, one that has not is rejected; an
`m=` line that has it leaves the flag alone. -/
def readingOf (kind : LineKind) : Option SdpWrite → Reading
  | some w => if kind = .media then .kept (some w) else .accepted w
  | none => .rejected

theorem readingOf_writes (kind : LineKind) (w : Option SdpWrite) :
    (readingOf kind w).writes = w.toList := by
  cases w with
  | none => rfl
  | some w => by_cases hm : kind = .media <;> simp [readingOf, hm, Reading.writes]

theorem readingOf_flag (kind : LineKind) (w : Option SdpWrite) :
    (readingOf kind w).flag true = w.isSome := by
  cases w with
  | none => rfl
  | some w => by_cases hm : kind = .media <;> simp [readingOf, hm, Reading.flag]

theorem readVersion_eq (line : Str) :
    readVersion line = .ok (readingOf .version (writeOf .version line)) := by
  unfold readVersion writeOf behindEquals
  rw [show str "=" = [61] from rfl, split_eq_fieldsAt]
  match fieldsAt 61 line with
  | [] => rfl
  | [_] => rfl
  | [_, _] => rfl
  | _ :: _ :: _ :: _ => rfl

/-- A line is cut at its equals sign first; `f` reads what is behind it. -/
theorem halves_eq {f : Str → Result Reading} {g : Str → Option SdpWrite} {kind : LineKind}
    (hf : ∀ body, f body = .ok (readingOf kind (g body))) (line : Str) : (do
      let vecs ← split line (str "=") []
      if vecs.length ≠ 2 then
        return .rejected
      f (← index vecs 1)) = Except.ok (readingOf kind ((behindEquals line).bind g)) := by
  unfold behindEquals
  rw [show str "=" = [61] from rfl, split_eq_fieldsAt]
  match fieldsAt 61 line with
  | [] => rfl
  | [_] => rfl
  | [_, body] => exact hf body
  | _ :: _ :: _ :: _ => rfl

theorem readOrigin_eq (line : Str) :
    readOrigin line = .ok (readingOf .origin (writeOf .origin line)) := by
  unfold readOrigin writeOf originOf
  rw [Option.map_bind]
  refine halves_eq (fun body => ?_) line
  rw [show str " " = [32] from rfl, split_eq_fieldsAt]
  dsimp only [Function.comp]
  match fieldsAt 32 body with
  | [] => rfl
  | [_] => rfl
  | [_, _] => rfl
  | [_, _, _] => rfl
  | [_, _, _, _] => rfl
  | [_, _, _, _, _] => rfl
  | [_, _, _, _, _, _] => rfl
  | _ :: _ :: _ :: _ :: _ :: _ :: _ :: _ => rfl

theorem readMedia_eq (line : Str) :
    readMedia line = .ok (readingOf .media (writeOf .media line)) := by
  unfold readMedia writeOf mediaOf
  rw [Option.map_bind]
  refine halves_eq (fun body => ?_) line
  rw [show str " " = [32] from rfl, split_eq_fieldsAt]
  dsimp only [Function.comp]
  match fieldsAt 32 body with
  | [] => rfl
  | [_] => rfl
  | [_, _] => rfl
  | [_, _, _] => rfl
  | kind :: port :: proto :: pt :: pts =>
      show (if proto ≠ mediaProtoDtlsSavpf ∧ proto ≠ mediaProtoSavpf then _ else _) = _
      dsimp only
      by_cases hproto : proto = mediaProtoDtlsSavpf ∨ proto = mediaProtoSavpf
      · rw [if_neg (by rwa [← not_or, not_not]), if_pos hproto]
        rw [index_cons_zero, ok_bind]
        cases mediaTypeOf kind <;> rfl
      · rw [if_pos (by rwa [← not_or]), if_neg hproto]
        rfl

theorem readRtpmap_eq (line : Str) :
    readRtpmap line = .ok (readingOf .rtpmap (writeOf .rtpmap line)) := by
  unfold readRtpmap writeOf rtpmapOf
  rw [Option.map_bind]
  refine halves_eq (fun body => ?_) line
  rw [show str " " = [32] from rfl, split_eq_fieldsAt]
  dsimp only [Function.comp]
  match fieldsAt 32 body with
  | [] => rfl
  | [_] => rfl
  | [head, desc] =>
      rw [ok_bind, if_neg (by simp), index_cons_zero, ok_bind, index_cons_succ, index_cons_zero,
        ok_bind]
      dsimp only
      cases find head (str ":") 0 <;> rfl
  | _ :: _ :: _ :: _ => rfl

theorem readDtls_eq (line : Str) :
    readDtls line = .ok (readingOf .fingerprint (writeOf .fingerprint line)) := by
  unfold readDtls writeOf fingerprintOf
  cases find line (str ":") 0 with
  | none => rfl
  | some pos =>
      dsimp only [Option.bind_some]
      rw [show str " " = [32] from rfl, split_eq_fieldsAt]
      match fieldsAt 32 (line.drop (pos + 1)) with
      | [] => rfl
      | [_] => rfl
      | [_, _] => rfl
      | _ :: _ :: _ :: _ => rfl

theorem readSsrcGroups_eq (line : Str) :
    readSsrcGroups line = .ok (readingOf .ssrcGroup (writeOf .ssrcGroup line)) := by
  unfold readSsrcGroups writeOf ssrcGroupOf
  rw [show str " " = [32] from rfl, split_eq_fieldsAt]
  match fieldsAt 32 (afterColon line) with
  | [] => rfl
  | [_] => rfl
  | _ :: _ :: _ => rfl

/-- Where there are two parts, the first has two words. -/
def SsrcWords (line : Str) : Prop :=
  ∀ head value, fieldsAt 58 (afterColon line) = [head, value] → 2 ≤ (fieldsAt 32 head).length

theorem readSsrcs_eq {line : Str} (h : SsrcWords line) :
    readSsrcs line = .ok (readingOf .ssrc (writeOf .ssrc line)) := by
  unfold readSsrcs writeOf ssrcOf
  rw [show str ":" = [58] from rfl, split_eq_fieldsAt]
  unfold SsrcWords at h
  match fieldsAt 58 (afterColon line), h with
  | [], _ => rfl
  | [_], _ => rfl
  | [head, value], h =>
      have hwords := h head value rfl
      show (split head (str " ") [] >>= _) = _
      rw [show str " " = [32] from rfl, split_eq_fieldsAt]
      dsimp only
      generalize fieldsAt 32 head = words at hwords ⊢
      match words, hwords with
      | _ :: _ :: _, _ => rfl
  | _ :: _ :: _ :: _, _ => rfl

/-! ## The loop -/

/-- The line is looked at: by its kind, or because a section is open. -/
def LineKind.looksAt (kind : LineKind) (isOpen : Bool) : Bool :=
  kind ≠ .other && (!kind.isSection || isOpen)

/-- **A line is read as its grammar says.** -/
theorem readLine_eq {isOpen : Bool} {line : Str} (h : kindOf line = .ssrc → SsrcWords line) :
    readLine isOpen line = .ok (if (kindOf line).looksAt isOpen then
      readingOf (kindOf line) (writeOf (kindOf line) line) else .kept none) := by
  unfold readLine
  cases hk : kindOf line with
  | version => exact readVersion_eq line
  | origin => exact readOrigin_eq line
  | media => exact readMedia_eq line
  | rtpmap => exact readRtpmap_eq line
  | fingerprint =>
      cases isOpen with
      | false => rfl
      | true => exact readDtls_eq line
  | ssrc =>
      cases isOpen with
      | false => rfl
      | true => exact readSsrcs_eq (h hk)
  | ssrcGroup =>
      cases isOpen with
      | false => rfl
      | true => exact readSsrcGroups_eq line
  | other => cases isOpen <;> rfl

end JuanSfu
