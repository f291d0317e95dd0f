import JuanSfu.Sdp.Lines

/-!
# Lines with one equals sign

The substring tests of `parse_sdp` look for their tag anywhere in a line. A
line `x=body` whose body has no `=` can have a tag at its start only, so it is
read by the parser that its first characters ask for, and what it was written
from is read back.
-/

namespace JuanSfu

/-- None of these characters is in the text. -/
def FreeOf (cs s : Str) : Prop := ∀ c ∈ cs, c ∉ s

instance (cs s : Str) : Decidable (FreeOf cs s) := List.decidableBAll (fun c => c ∉ s) cs

theorem FreeOf.mono {cs cs' s : Str} (h : FreeOf cs s) (hcs : cs' ⊆ cs) : FreeOf cs' s :=
  fun c hc => h c (hcs hc)

theorem freeOf_append {cs s s' : Str} : FreeOf cs (s ++ s') ↔ FreeOf cs s ∧ FreeOf cs s' := by
  simp only [FreeOf, List.mem_append, not_or, forall₂_and]

theorem freeOf_natToStr {cs : Str} (h : cs.any isDigit = false) (n : ℕ) :
    FreeOf cs (natToStr n) := by
  intro c hc hin
  rw [List.any_eq_false] at h
  exact h c hc (isDigit_natToStr hin)

/-! ## The kind of such a line -/

theorem tag_infix_iff {x c : UInt8} {p body : Str} (h : 61 ∉ body) :
    x :: 61 :: p <:+: c :: 61 :: body ↔ x = c ∧ p <+: body := by
  have hbody : ¬ x :: 61 :: p <:+: body := by
    intro hi
    exact h (hi.subset (List.mem_cons_of_mem _ (List.mem_cons_self ..)))
  have htail : ¬ x :: 61 :: p <+: 61 :: body := by
    intro hp
    rw [List.cons_prefix_cons] at hp
    exact h (hp.2.subset (List.mem_cons_self ..))
  rw [List.infix_cons_iff, List.infix_cons_iff, List.cons_prefix_cons, List.cons_prefix_cons]
  simp only [hbody, htail, or_false, true_and]

theorem contains_tag {x c : UInt8} {p body : Str} (h : 61 ∉ body) :
    contains (c :: 61 :: body) (x :: 61 :: p) = (x == c && p.isPrefixOf body) := by
  rw [Bool.eq_iff_iff, contains_iff, tag_infix_iff h, Bool.and_eq_true, beq_iff_eq,
    List.isPrefixOf_iff_prefix]

/-- The kind of an `a=` line, by what is behind the sign. -/
def attrKind (body : Str) : LineKind :=
  if (str "rtpmap").isPrefixOf body then .rtpmap
  else if (str "fingerprint:").isPrefixOf body then .fingerprint
  else if (str "ssrc:").isPrefixOf body then .ssrc
  else if (str "ssrc-group:").isPrefixOf body then .ssrcGroup
  else .other

theorem kindOf_attr {body : Str} (h : 61 ∉ body) : kindOf (str "a=" ++ body) = attrKind body := by
  have htag : ∀ (x : UInt8) (p : Str), contains (str "a=" ++ body) (x :: 61 :: p) =
      (x == 97 && p.isPrefixOf body) := fun x p => contains_tag h
  have hv : contains (str "a=" ++ body) (str "v=") = false := htag 118 []
  have ho : contains (str "a=" ++ body) (str "o=") = false := htag 111 []
  have hm : contains (str "a=" ++ body) (str "m=") = false := htag 109 []
  have hrtpmap : contains (str "a=" ++ body) (str "a=rtpmap") =
    (str "rtpmap").isPrefixOf body := htag 97 (str "rtpmap")
  have hfingerprint : contains (str "a=" ++ body) (str "a=fingerprint:") =
    (str "fingerprint:").isPrefixOf body := htag 97 (str "fingerprint:")
  have hssrc : contains (str "a=" ++ body) (str "a=ssrc:") =
    (str "ssrc:").isPrefixOf body := htag 97 (str "ssrc:")
  have hgroup : contains (str "a=" ++ body) (str "a=ssrc-group:") =
    (str "ssrc-group:").isPrefixOf body := htag 97 (str "ssrc-group:")
  simp only [kindOf, attrKind, hv, ho, hm, hrtpmap, hfingerprint, hssrc, hgroup,
    Bool.false_eq_true, if_false]

/-! ## What is read back -/

variable {isOpen : Bool}

/-- A line that no parser looks at. -/
theorem readLine_other {line : Str} (h : kindOf line = .other) :
    readLine isOpen line = .ok (.kept none) := by
  rw [readLine, h]

theorem readLine_version {version : Str} (hfree : FreeOf (str "=") version)
    (hne : version ≠ []) :
    readLine isOpen (str "v=" ++ version) = .ok (.accepted (.version version)) := by
  have hkind : kindOf (str "v=" ++ version) = .version := by
    rw [kindOf, if_pos]
    exact contains_iff.mpr (List.infix_append [] (str "v=") version)
  have hsplit : split (str "v=" ++ version) (str "=") [] = .ok [str "v", version] :=
    split_two (a := str "v") (by decide) (hfree 61 (by decide)) (by decide) hne
  rw [readLine, hkind]
  dsimp only
  rw [readVersion, hsplit]
  rfl

/-- What no field has, the fields with `c` between them do not have. -/
theorem notMem_fields {c x : UInt8} {head : Str} {tail : List Str} (hx : x ≠ c)
    (hhead : x ∉ head) (htail : ∀ f ∈ tail, x ∉ f) :
    x ∉ head ++ (tail.map (c :: ·)).flatten := by
  rw [List.mem_append, List.mem_flatten, not_or]
  refine ⟨hhead, ?_⟩
  rintro ⟨l, hl, hin⟩
  obtain ⟨f, hf, rfl⟩ := List.mem_map.mp hl
  rcases List.mem_cons.mp hin with hin | hin
  · exact hx hin
  · exact htail f hf hin

/-- The six fields of an `o=` line. -/
theorem readLine_origin {username sessionId : Str} {rest : List Str} (hlen : rest.length = 4)
    (h : ∀ f ∈ username :: sessionId :: rest, FreeOf (str " =") f ∧ f ≠ []) :
    readLine isOpen (str "o=" ++ (username ++ ((sessionId :: rest).map (32 :: ·)).flatten)) =
      .ok (.accepted (.origin username sessionId)) := by
  generalize hbody : username ++ ((sessionId :: rest).map (32 :: ·)).flatten = body
  have hequals : 61 ∉ body := by
    rw [← hbody]
    apply notMem_fields (by decide) ((h _ (List.mem_cons_self ..)).1 61 (by decide))
    exact fun f hf => (h f (List.mem_cons_of_mem _ hf)).1 61 (by decide)
  have hne : body ≠ [] := by
    rw [← hbody]
    exact List.append_ne_nil_of_left_ne_nil (h _ (List.mem_cons_self ..)).2 _
  have hkind : kindOf (str "o=" ++ body) = .origin := by
    have hv : contains (str "o=" ++ body) (str "v=") = false := contains_tag hequals
    have ho : contains (str "o=" ++ body) (str "o=") = true := contains_tag hequals
    rw [kindOf, hv, ho]
    rfl
  have hsplit : split (str "o=" ++ body) (str "=") [] = .ok [str "o", body] :=
    split_two (a := str "o") (by decide) hequals (by decide) hne
  have hfields : split body (str " ") [] = .ok (username :: sessionId :: rest) := by
    rw [← hbody]
    refine split_fields ((h _ (List.mem_cons_self ..)).1 32 (by decide)) ?_ fun f hf => (h f hf).2
    exact fun f hf => (h f (List.mem_cons_of_mem _ hf)).1 32 (by decide)
  rw [readLine, hkind]
  dsimp only
  rw [readOrigin, hsplit]
  show (split body (str " ") [] >>= _) = _
  rw [hfields]
  simp [bind, Except.bind, hlen, index, pure, Except.pure]

theorem find_colon (name : Str) (h : 58 ∉ name) (rest : Str) :
    find (name ++ 58 :: rest) (str ":") 0 = some name.length := by
  have hfirst : ¬ str ":" <:+: name ++ (str ":").dropLast := by
    rw [show (str ":").dropLast = [] from rfl, List.append_nil]
    exact (List.singleton_infix_iff 58 name).not.mpr h
  have hfind := find_first hfirst rest
  rwa [List.append_assoc] at hfind

theorem afterColon_append (name : Str) (h : 58 ∉ name) (rest : Str) :
    afterColon (name ++ 58 :: rest) = rest := by
  rw [afterColon, find_colon name h]
  dsimp only
  rw [← List.drop_drop, List.drop_left, List.drop_one, List.tail_cons]

theorem readLine_fingerprint {alg text : Str} (halg : FreeOf (str " =") alg) (hane : alg ≠ [])
    (htext : FreeOf (str " =") text) (htne : text ≠ []) :
    readLine true (str "a=fingerprint:" ++ alg ++ str " " ++ text) = .ok (.accepted (.dtls
      { alg, fingerPrint := text, identityFp := createUniqueFromRfc4572 alg text })) := by
  have hline : str "a=fingerprint:" ++ alg ++ str " " ++ text =
      str "a=" ++ (str "fingerprint:" ++ (alg ++ 32 :: text)) := by
    rw [List.append_assoc, List.append_assoc]
    rfl
  have hbody : 61 ∉ str "fingerprint:" ++ (alg ++ 32 :: text) := by
    simp only [List.mem_append, List.mem_cons, not_or]
    exact ⟨by decide, halg 61 (by decide), by decide, htext 61 (by decide)⟩
  have hkind : attrKind (str "fingerprint:" ++ (alg ++ 32 :: text)) = .fingerprint := rfl
  have hfind : find (str "a=" ++ (str "fingerprint:" ++ (alg ++ 32 :: text))) (str ":") 0 =
      some 13 := find_colon (str "a=fingerprint") (by decide) (alg ++ 32 :: text)
  have hsplit : split (alg ++ 32 :: text) (str " ") [] = .ok [alg, text] :=
    split_two (halg 32 (by decide)) (htext 32 (by decide)) hane htne
  rw [hline, readLine, kindOf_attr hbody, hkind]
  dsimp only
  rw [if_pos rfl, readDtls, hfind]
  show (split (alg ++ 32 :: text) (str " ") [] >>= _) = _
  rw [hsplit]
  rfl

/-- A printed ssrc is read back. -/
theorem ofInt_atoll_natToStr (ssrc : UInt32) :
    UInt32.ofInt (atoll (natToStr ssrc.toNat)) = ssrc := by
  have hlt := ssrc.toNat_lt
  rw [atoll_natToStr (by omega), UInt32.ofInt, Int.emod_eq_of_lt (by omega) (by omega),
    Int.toNat_natCast, UInt32.ofNat_toNat]

theorem readLine_ssrc {p : SsrcParameter} (ha : FreeOf (str " :=") p.attri) (hane : p.attri ≠ [])
    (hv : FreeOf (str ":=") p.value) (hvne : p.value ≠ []) :
    readLine true (str "a=ssrc:" ++ natToStr p.ssrc.toNat ++ str " " ++ p.attri ++
      (str ":" ++ p.value)) = .ok (.accepted (.ssrc p)) := by
  have hdigits : FreeOf (str " :=") (natToStr p.ssrc.toNat) := freeOf_natToStr (by decide) _
  generalize hnum : natToStr p.ssrc.toNat = num at hdigits
  have hnne : num ≠ [] := hnum ▸ natToStr_ne_nil _
  have hline : str "a=ssrc:" ++ num ++ str " " ++ p.attri ++ (str ":" ++ p.value) =
      str "a=" ++ (str "ssrc:" ++ (num ++ 32 :: p.attri ++ 58 :: p.value)) := by
    simp only [List.append_assoc]
    rfl
  have hbody : 61 ∉ str "ssrc:" ++ (num ++ 32 :: p.attri ++ 58 :: p.value) := by
    simp only [List.mem_append, List.mem_cons, not_or]
    exact ⟨by decide, ⟨hdigits 61 (by decide), by decide, ha 61 (by decide)⟩, by decide,
      hv 61 (by decide)⟩
  have hkind : attrKind (str "ssrc:" ++ (num ++ 32 :: p.attri ++ 58 :: p.value)) = .ssrc := rfl
  have hcolon : afterColon (str "a=" ++ (str "ssrc:" ++ (num ++ 32 :: p.attri ++ 58 :: p.value))) =
      num ++ 32 :: p.attri ++ 58 :: p.value :=
    afterColon_append (str "a=ssrc") (by decide) _
  have hhead : 58 ∉ num ++ 32 :: p.attri := by
    simp only [List.mem_append, List.mem_cons, not_or]
    exact ⟨hdigits 58 (by decide), by decide, ha 58 (by decide)⟩
  have hsplit : split (num ++ 32 :: p.attri ++ 58 :: p.value) (str ":") [] =
      .ok [num ++ 32 :: p.attri, p.value] :=
    split_two hhead (hv 58 (by decide)) (by simp) hvne
  have hsplit2 : split (num ++ 32 :: p.attri) (str " ") [] = .ok [num, p.attri] :=
    split_two (hdigits 32 (by decide)) (ha 32 (by decide)) hnne hane
  rw [hline, readLine, kindOf_attr hbody, hkind]
  dsimp only
  rw [if_pos rfl, readSsrcs, hcolon, hsplit]
  show (split (num ++ 32 :: p.attri) (str " ") [] >>= _) = _
  rw [hsplit2, ← hnum]
  show Except.ok (Reading.accepted (.ssrc ⟨UInt32.ofInt (atoll (natToStr p.ssrc.toNat)), p.attri,
    p.value⟩)) = _
  rw [ofInt_atoll_natToStr]

theorem readLine_ssrcGroup {g : SsrcGroup} (hs : FreeOf (str " =") g.semantic)
    (hsne : g.semantic ≠ []) (hne : g.ssrcs ≠ []) :
    readLine true (str "a=ssrc-group:" ++ g.semantic ++
      (g.ssrcs.map fun s => str " " ++ natToStr s.toNat).flatten) =
        .ok (.accepted (.ssrcGroup g)) := by
  have hspaced : (g.ssrcs.map fun s => str " " ++ natToStr s.toNat) =
      (g.ssrcs.map fun s => natToStr s.toNat).map (32 :: ·) := by
    rw [List.map_map]
    rfl
  have hdigits : ∀ f ∈ g.ssrcs.map fun s => natToStr s.toNat, FreeOf (str " =") f ∧ f ≠ [] := by
    rw [List.forall_mem_map]
    exact fun s _ => ⟨freeOf_natToStr (by decide) _, natToStr_ne_nil _⟩
  have hback : (g.ssrcs.map fun s => natToStr s.toNat).map (fun v => UInt32.ofInt (atoll v)) =
      g.ssrcs := by
    rw [List.map_map]
    exact List.map_id'' (fun s => ofInt_atoll_natToStr s) g.ssrcs
  generalize hnums : (g.ssrcs.map fun s => natToStr s.toNat) = nums at hspaced hdigits hback
  have hlen : ¬ nums.length + 1 < 2 := by
    have := List.length_pos_of_ne_nil hne
    rw [← hnums, List.length_map]
    omega
  have hsplit : split (g.semantic ++ (nums.map (32 :: ·)).flatten) (str " ") [] =
      .ok (g.semantic :: nums) := by
    apply split_fields (hs 32 (by decide)) fun f hf => (hdigits f hf).1 32 (by decide)
    exact List.forall_mem_cons.mpr ⟨hsne, fun f hf => (hdigits f hf).2⟩
  have hequals : 61 ∉ g.semantic ++ (nums.map (32 :: ·)).flatten :=
    notMem_fields (by decide) (hs 61 (by decide)) fun f hf => (hdigits f hf).1 61 (by decide)
  rw [hspaced, List.append_assoc]
  generalize hfields : g.semantic ++ (nums.map (32 :: ·)).flatten = fields at hsplit hequals
  have hbody : 61 ∉ str "ssrc-group:" ++ fields := by
    rw [List.mem_append, not_or]
    exact ⟨by decide, hequals⟩
  have hkind : attrKind (str "ssrc-group:" ++ fields) = .ssrcGroup := rfl
  have hcolon : afterColon (str "a=" ++ (str "ssrc-group:" ++ fields)) = fields :=
    afterColon_append (str "a=ssrc-group") (by decide) _
  rw [show str "a=ssrc-group:" ++ fields = str "a=" ++ (str "ssrc-group:" ++ fields) from rfl,
    readLine, kindOf_attr hbody, hkind]
  dsimp only
  rw [if_pos rfl, readSsrcGroups, hcolon, hsplit]
  simp [bind, Except.bind, pure, Except.pure, hlen, index, hback]

/-! ## Lines that go on -/

/-- Lines that are all read to the end, whatever comes after them: what they
store, and whether a section is open behind them. -/
def Goes (isOpen : Bool) (lines : List Str) (after : Bool) (ws : List SdpWrite) : Prop :=
  ∀ rest, readLines true isOpen (lines ++ rest) =
    (readLines true after rest).map fun p => (p.1, ws ++ p.2)

variable {after last : Bool} {line : Str} {lines lines' : List Str} {ws ws' : List SdpWrite}

theorem Goes.nil : Goes isOpen [] isOpen [] := by
  intro rest
  show readLines true isOpen rest = (readLines true isOpen rest).map id
  cases readLines true isOpen rest <;> rfl

theorem Goes.cons {r : Reading} (hrest : Goes (isOpen || kindOf line = .media) lines after ws)
    (h : readLine isOpen line = .ok r) (hf : r.flag true = true) :
    Goes isOpen (line :: lines) after (r.writes ++ ws) := by
  intro rest
  rw [List.cons_append, readLines, h]
  show (if !r.flag true then _ else _) = _
  rw [hf, hrest rest]
  cases readLines true after rest with
  | error e => rfl
  | ok p => exact congrArg (fun ws => Except.ok (p.1, ws)) (List.append_assoc ..).symm

theorem Goes.append (h : Goes isOpen lines after ws) (h' : Goes after lines' last ws') :
    Goes isOpen (lines ++ lines') last (ws ++ ws') := by
  intro rest
  rw [List.append_assoc, h, h']
  cases readLines true last rest with
  | error e => rfl
  | ok p => exact congrArg (fun ws => Except.ok (p.1, ws)) (List.append_assoc ..).symm

theorem Goes.media {w : SdpWrite} (hk : kindOf line = .media)
    (h : readLine isOpen line = .ok (.kept (some w))) : Goes isOpen [line] true [w] := by
  have hnil : Goes (isOpen || kindOf line = .media) [] true [] := by
    rw [hk, decide_eq_true rfl, Bool.or_true]
    exact .nil
  exact hnil.cons h rfl

theorem Goes.accepted {w : SdpWrite} (h : readLine isOpen line = .ok (.accepted w)) :
    Goes isOpen [line] isOpen [w] := by
  have hk : kindOf line ≠ .media := by
    cases readLine_outcome h with
    | stored hm => exact hm
  have hnil : Goes (isOpen || kindOf line = .media) [] isOpen [] := by
    rw [decide_eq_false hk, Bool.or_false]
    exact .nil
  exact hnil.cons h rfl

/-- Lines that no parser looks at. -/
theorem Goes.other (h : ∀ line ∈ lines, kindOf line = .other) : Goes isOpen lines isOpen [] := by
  induction lines with
  | nil => exact .nil
  | cons line lines ih =>
      rw [List.forall_mem_cons] at h
      have hrest : Goes (isOpen || kindOf line = .media) lines isOpen [] := by
        rw [h.1, decide_eq_false (by decide), Bool.or_false]
        exact ih h.2
      exact hrest.cons (readLine_other h.1) rfl

/-- A line each for what is stored, in a section. -/
theorem Goes.stored {α : Type} {as : List α} {write : α → Str} {w : α → SdpWrite}
    (h : ∀ a ∈ as, readLine true (write a) = .ok (.accepted (w a))) :
    Goes true (as.map write) true (as.map w) := by
  induction as with
  | nil => exact .nil
  | cons a as ih =>
      rw [List.forall_mem_cons] at h
      have hrest : Goes (true || kindOf (write a) = .media) (as.map write) true (as.map w) :=
        ih h.2
      exact hrest.cons h.1 rfl

/-- The first line has to set the flag. -/
theorem readLines_of_goes {w : SdpWrite} (h : readLine false line = .ok (.accepted w))
    (hg : Goes false lines after ws) :
    readLines false false (line :: lines) = .ok (true, w :: ws) := by
  have hk : kindOf line ≠ .media := by
    cases readLine_outcome h with
    | stored hm => exact hm
  have hrest := hg []
  rw [List.append_nil] at hrest
  rw [readLines, h]
  show (readLines true (false || kindOf line = .media) lines >>= _) = _
  rw [decide_eq_false hk, Bool.or_false, hrest]
  simp [readLines, Except.map, bind, Except.bind, pure, Except.pure, Reading.writes]

end JuanSfu
