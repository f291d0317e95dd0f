import JuanSfu.Udp.Stun

/-!
# The attributes of a STUN datagram

`parse_attri` moves over the datagram by the lengths the attributes declare.
The walk alone, the places it visits, is separated here from what is read at
each place; `parseAttri_eq` says that the loop is the one after the other. For
messages that were written attribute by attribute, `HasAttri` says what stands
where.
-/

namespace JuanSfu

/-! ## Reading what was written -/

theorem getBE16_append (before rest : Bytes) (i : ℕ) :
    getBE16 (before ++ rest) (before.length + i) = getBE16 rest i := by
  unfold getBE16
  rw [Nat.add_assoc]
  simp only [List.getD_eq_getElem?_getD, List.getElem?_append_right (Nat.le_add_right _ _),
    Nat.add_sub_cancel_left]

theorem getBE32_append (before rest : Bytes) (i : ℕ) :
    getBE32 (before ++ rest) (before.length + i) = getBE32 rest i := by
  unfold getBE32
  rw [Nat.add_assoc, getBE16_append, getBE16_append]

theorem getBE16_putBE16 (v : UInt16) (rest : Bytes) : getBE16 (putBE16 v ++ rest) 0 = v := by
  simp only [getBE16, putBE16, List.cons_append, List.nil_append, List.getD_cons_zero,
    List.getD_cons_succ]
  have hv := v.toNat_lt
  apply UInt16.toNat_inj.mp
  simp only [UInt16.toNat_or, UInt16.toNat_shiftLeft, UInt8.toNat_toUInt16,
    UInt16.toNat_toUInt8, UInt16.toNat_shiftRight, UInt16.reduceToNat, Nat.reduceMod]
  rw [Nat.shiftRight_eq_div_pow, Nat.mod_eq_of_lt (by rw [Nat.shiftLeft_eq]; omega),
    ← Nat.shiftLeft_add_eq_or_of_lt (by omega), Nat.shiftLeft_eq]
  omega

theorem getBE32_putBE32 (v : UInt32) (rest : Bytes) : getBE32 (putBE32 v ++ rest) 0 = v := by
  have hhigh := getBE16_putBE16 (v >>> 16).toUInt16 (putBE16 v.toUInt16 ++ rest)
  have hlow := getBE16_putBE16 v.toUInt16 rest
  unfold getBE32 putBE32
  rw [List.append_assoc, hhigh]
  rw [show 0 + 2 = (putBE16 (v >>> 16).toUInt16).length + 0 from rfl, getBE16_append, hlow]
  have hv := v.toNat_lt
  apply UInt32.toNat_inj.mp
  simp only [UInt32.toNat_or, UInt32.toNat_shiftLeft, UInt16.toNat_toUInt32,
    UInt32.toNat_toUInt16, UInt32.toNat_shiftRight, UInt32.reduceToNat, Nat.reduceMod]
  rw [Nat.shiftRight_eq_div_pow, Nat.mod_eq_of_lt (by rw [Nat.shiftLeft_eq]; omega),
    ← Nat.shiftLeft_add_eq_or_of_lt (by omega), Nat.shiftLeft_eq]
  omega

theorem getBE16_mid (before rest : Bytes) {data : Bytes} {v : UInt16} {i : ℕ}
    (h : data = before ++ (putBE16 v ++ rest)) (hi : before.length = i) : getBE16 data i = v := by
  rw [h, ← hi, ← Nat.add_zero before.length, getBE16_append, getBE16_putBE16]

theorem getBE32_mid (before rest : Bytes) {data : Bytes} {v : UInt32} {i : ℕ}
    (h : data = before ++ (putBE32 v ++ rest)) (hi : before.length = i) : getBE32 data i = v := by
  rw [h, ← hi, ← Nat.add_zero before.length, getBE32_append, getBE32_putBE32]

namespace StunPacket

/-! ## Attributes in a row -/

/-- Type, length and value, as every `write` lays them out. -/
def attriBytes (type len : UInt16) (value : Bytes) : Bytes :=
  putBE16 type ++ putBE16 len ++ value

theorem length_attriBytes (type len : UInt16) (value : Bytes) :
    (attriBytes type len value).length = value.length + 4 := by
  simp [attriBytes, putBE16]

section At

variable {data before value rest : Bytes} {type len : UInt16} {pos : ℕ}

/-- `data` has an attribute with the given type, length and value at `pos`. -/
def HasAttri (data : Bytes) (pos : ℕ) (type len : UInt16) (value : Bytes) : Prop :=
  ∃ before rest, data = before ++ (attriBytes type len value ++ rest) ∧
    before.length = stunHeaderSize + pos

theorem HasAttri.type_eq (h : HasAttri data pos type len value) :
    getBE16 data (stunHeaderSize + pos) = type := by
  obtain ⟨before, rest, rfl, hpos⟩ := h
  refine getBE16_mid before (putBE16 len ++ value ++ rest) ?_ hpos
  simp only [attriBytes, List.append_assoc]

theorem HasAttri.len_eq (h : HasAttri data pos type len value) :
    getBE16 data (stunHeaderSize + pos + 2) = len := by
  obtain ⟨before, rest, rfl, hpos⟩ := h
  refine getBE16_mid (before ++ putBE16 type) (value ++ rest) ?_ ?_
  · simp only [attriBytes, List.append_assoc]
  · rw [List.length_append, hpos]
    rfl

theorem HasAttri.value_eq (h : HasAttri data pos type len value) :
    substr data (stunHeaderSize + pos + 4) value.length = value := by
  obtain ⟨before, rest, rfl, hpos⟩ := h
  have hhead : (before ++ (putBE16 type ++ putBE16 len)).length = stunHeaderSize + pos + 4 := by
    rw [List.length_append, hpos]
    rfl
  have hdata : before ++ (attriBytes type len value ++ rest) =
      before ++ (putBE16 type ++ putBE16 len) ++ (value ++ rest) := by
    simp only [attriBytes, List.append_assoc]
  rw [hdata, ← hhead, substr, List.drop_left, List.take_left]

theorem HasAttri.value_fits (h : HasAttri data pos type len value) :
    stunHeaderSize + pos + 4 + value.length ≤ data.length := by
  obtain ⟨before, rest, rfl, hpos⟩ := h
  rw [List.length_append, List.length_append, length_attriBytes, hpos]
  omega

theorem HasAttri.lt_length (h : HasAttri data pos type len value) (hv : value ≠ []) :
    pos + 4 + stunHeaderSize < data.length := by
  have hpos := List.length_pos_of_ne_nil hv
  have hfits := h.value_fits
  omega

end At

/-! ## The walk -/

def attriType (data : Bytes) (pos : ℕ) : UInt16 := getBE16 data (stunHeaderSize + pos)

/-- The length an attribute declares. -/
def attriLen (data : Bytes) (pos : ℕ) : UInt16 := getBE16 data (stunHeaderSize + pos + 2)

/-- As many bytes of the datagram as the attribute declares. -/
def attriValue (data : Bytes) (pos : ℕ) : Bytes :=
  substr data (stunHeaderSize + pos + 4) (attriLen data pos).toNat

/-- Where the next attribute starts; a MESSAGE-INTEGRITY is not rounded up. -/
def nextAttri (data : Bytes) (pos : ℕ) : ℕ :=
  if attriType data pos = stunMessageIntegrity then pos + ((attriLen data pos).toNat + 4)
  else pos + ((getRealLen (attriLen data pos)).toNat + 4)

/-- The places the loop comes to. -/
def attriPositions (data : Bytes) : ℕ → ℕ → List ℕ
  | 0, _ => []
  | counter + 1, pos =>
      if pos + 4 + stunHeaderSize < data.length then
        pos :: attriPositions data counter (nextAttri data pos)
      else []

/-- What is read behind the header of an attribute is in the datagram. -/
def ReadsInside (data : Bytes) (pos : ℕ) : Prop :=
  (attriType data pos ∈ [stunUsername, stunMessageIntegrity, stunIceControlling] →
    stunHeaderSize + pos + 4 + (attriLen data pos).toNat ≤ data.length) ∧
  (attriType data pos = stunPriority → stunHeaderSize + pos + 4 + 4 ≤ data.length)

instance (data : Bytes) (pos : ℕ) : Decidable (ReadsInside data pos) :=
  inferInstanceAs (Decidable (_ ∧ _))

/-- The two names in a USERNAME, if there are two. -/
def usernameParts (text : Bytes) : Str × Str :=
  match split text (str ":") [] with
  | .ok [remoteUfrag, localUfrag] => (remoteUfrag, localUfrag)
  | _ => ([], [])

/-- What is kept of the attribute at a place. -/
def attriAt (data : Bytes) (pos : ℕ) : Option StunAttribute :=
  let type := attriType data pos
  let flen := attriLen data pos
  if type = stunUsername then
    let (remoteUfrag, localUfrag) := usernameParts (attriValue data pos)
    some (.username flen remoteUfrag localUfrag)
  else if type = stunMessageIntegrity then
    some (.integrity flen (pos + stunHeaderSize) (attriValue data pos))
  else if type = stunIceControlling then some (.iceControlling flen (attriValue data pos))
  else if type = stunUseCandidate then some (.useCandidate flen)
  else if type = stunPriority then
    some (.priority flen (getBE32 (substr data (stunHeaderSize + pos + 4) 4) 0))
  else none

/-- Splitting a USERNAME goes wrong on no value. -/
theorem username_parts (text : Bytes) (flen : UInt16) (next : ℕ) :
    (do
      let vecs ← split text (str ":") []
      if vecs.length = 2 then
        let localUfrag ← index vecs 1
        let remoteUfrag ← index vecs 0
        return (some (StunAttribute.username flen remoteUfrag localUfrag), next)
      else return (some (.username flen [] []), next) : Result (Option StunAttribute × ℕ)) =
      .ok (some (.username flen (usernameParts text).1 (usernameParts text).2), next) := by
  obtain ⟨vecs, hvecs⟩ := exists_split (show str ":" ≠ [] by decide) text
  unfold usernameParts
  rw [hvecs]
  match vecs with
  | [] => rfl
  | [_] => rfl
  | [_, _] => rfl
  | _ :: _ :: _ :: _ => rfl

/-- **One turn**: it reads past the datagram, or keeps the attribute and goes on
to the next. -/
theorem parseOneAttri_eq (data : Bytes) (pos : ℕ) : parseOneAttri data pos =
    if ReadsInside data pos then .ok (attriAt data pos, nextAttri data pos)
    else .error .readPastDatagram := by
  have hvalue : ∀ {α : Type} (f : Bytes → Result α) n,
      (readValue data (stunHeaderSize + pos + 4) n >>= f) =
        if stunHeaderSize + pos + 4 + n ≤ data.length then
          f (substr data (stunHeaderSize + pos + 4) n)
        else .error .readPastDatagram := by
    intro α f n
    unfold readValue
    split <;> rfl
  have htype : getBE16 data (stunHeaderSize + pos) = attriType data pos := rfl
  have hlen : getBE16 data (stunHeaderSize + pos + 2) = attriLen data pos := rfl
  have hval : substr data (stunHeaderSize + pos + 4) (attriLen data pos).toNat =
      attriValue data pos := rfl
  have hpure : ∀ x : Option StunAttribute × ℕ, (pure x : Result _) = .ok x := fun _ => rfl
  unfold parseOneAttri
  simp only [hvalue, username_parts]
  simp only [hpure, htype, hlen, hval]
  unfold ReadsInside attriAt nextAttri
  by_cases h1 : attriType data pos = stunUsername
  · simp [h1, stunUsername, stunMessageIntegrity, stunPriority]
  by_cases h2 : attriType data pos = stunMessageIntegrity
  · simp [h2, stunUsername, stunMessageIntegrity, stunPriority]
  by_cases h3 : attriType data pos = stunIceControlling
  · simp [h3, stunUsername, stunMessageIntegrity, stunIceControlling, stunPriority]
  by_cases h4 : attriType data pos = stunUseCandidate
  · simp [h4, stunUsername, stunMessageIntegrity, stunIceControlling, stunUseCandidate,
      stunPriority]
  by_cases h5 : attriType data pos = stunPriority
  · simp [h5, stunUsername, stunMessageIntegrity, stunIceControlling, stunUseCandidate,
      stunPriority]
  · simp [h1, h2, h3, h4, h5]

/-- One attribute of the loop. -/
theorem parseAttriLoop_succ {data : Bytes} {counter pos : ℕ}
    (hroom : pos + 4 + stunHeaderSize < data.length) (hread : ReadsInside data pos) :
    parseAttriLoop data (counter + 1) pos =
      (parseAttriLoop data counter (nextAttri data pos)).map ((attriAt data pos).toList ++ ·) := by
  rw [parseAttriLoop, if_pos hroom, parseOneAttri_eq, if_pos hread, ok_bind]
  dsimp only
  cases parseAttriLoop data counter (nextAttri data pos) with
  | error e => rfl
  | ok rest => cases attriAt data pos <;> rfl

section At

variable {data value : Bytes} {type len : UInt16} {pos : ℕ}

/-- An attribute of another type is passed over. -/
theorem HasAttri.skip (h : HasAttri data pos type len value) (hv : value ≠ [])
    (hlen : (getRealLen len).toNat = value.length) (counter : ℕ)
    (htype : type ∉ [stunUsername, stunMessageIntegrity, stunIceControlling, stunUseCandidate,
      stunPriority]) :
    parseAttriLoop data (counter + 1) pos =
      parseAttriLoop data counter (pos + (value.length + 4)) := by
  simp only [List.mem_cons, List.not_mem_nil, or_false, not_or] at htype
  obtain ⟨h1, h2, h3, h4, h5⟩ := htype
  have hattri : attriType data pos = type := h.type_eq
  have hread : ReadsInside data pos := by
    simp [ReadsInside, hattri, h1, h2, h3, h5]
  have hkept : attriAt data pos = none := by
    simp only [attriAt, hattri, h1, h2, h3, h4, h5, if_false]
  have hnext : nextAttri data pos = pos + (value.length + 4) := by
    rw [nextAttri, hattri, if_neg h2, attriLen, h.len_eq, hlen]
  rw [parseAttriLoop_succ (h.lt_length hv) hread, hkept, hnext]
  cases parseAttriLoop data counter (pos + (value.length + 4)) <;> rfl

/-- A MESSAGE-INTEGRITY is kept with the offset it stands at. -/
theorem HasAttri.integrity (h : HasAttri data pos stunMessageIntegrity len value)
    (hv : value ≠ []) (hlen : len.toNat = value.length) (counter : ℕ)
    {attris : List StunAttribute}
    (hrest : parseAttriLoop data counter (pos + (value.length + 4)) = .ok attris) :
    parseAttriLoop data (counter + 1) pos =
      .ok (.integrity len (pos + stunHeaderSize) value :: attris) := by
  have hattri : attriType data pos = stunMessageIntegrity := h.type_eq
  have hdeclared : attriLen data pos = len := h.len_eq
  have hread : ReadsInside data pos := by
    refine ⟨fun _ => ?_, fun hpriority => ?_⟩
    · rw [hdeclared, hlen]
      exact h.value_fits
    · rw [hattri] at hpriority
      exact absurd hpriority (by decide)
  have hkept : attriAt data pos = some (.integrity len (pos + stunHeaderSize) value) := by
    rw [attriAt, hattri, attriValue, hdeclared, hlen, h.value_eq]
    rfl
  have hnext : nextAttri data pos = pos + (value.length + 4) := by
    rw [nextAttri, hattri, if_pos rfl, hdeclared, hlen]
  rw [parseAttriLoop_succ (h.lt_length hv) hread, hkept, hnext, hrest]
  rfl

end At

/-- **The loop**: it returns if every place it comes to can be read. -/
theorem parseAttriLoop_eq (data : Bytes) (counter pos : ℕ) :
    parseAttriLoop data counter pos =
      if ∀ p ∈ attriPositions data counter pos, ReadsInside data p then
        .ok ((attriPositions data counter pos).filterMap (attriAt data))
      else .error .readPastDatagram := by
  induction counter generalizing pos with
  | zero => rfl
  | succ counter ih =>
      rw [attriPositions]
      by_cases hroom : pos + 4 + stunHeaderSize < data.length
      · rw [if_pos hroom]
        by_cases hpos : ReadsInside data pos
        · rw [parseAttriLoop_succ hroom hpos, ih]
          by_cases hrest : ∀ p ∈ attriPositions data counter (nextAttri data pos),
              ReadsInside data p
          · rw [if_pos hrest, if_pos (List.forall_mem_cons.mpr ⟨hpos, hrest⟩), List.filterMap_cons]
            cases attriAt data pos <;> rfl
          · rw [if_neg hrest, if_neg fun h => hrest (List.forall_mem_cons.mp h).2]
            rfl
        · rw [if_neg fun h => hpos (List.forall_mem_cons.mp h).1]
          rw [parseAttriLoop, if_pos hroom, parseOneAttri_eq, if_neg hpos]
          rfl
      · rw [parseAttriLoop, if_neg hroom, if_neg hroom]
        rfl

end StunPacket

/-! ## Attribute lists -/

/-- An attribute as a client writes it; what the padding bytes are is up to it. -/
structure StunTlv where
  type : UInt16
  value : Bytes
  padding : Bytes
  padded : padding.length = (4 - value.length % 4) % 4

namespace StunTlv

/-- The declared length does not count the padding. -/
def len (a : StunTlv) : UInt16 := UInt16.ofNat a.value.length

def bytes (a : StunTlv) : Bytes := StunPacket.attriBytes a.type a.len a.value ++ a.padding

def encode (attris : List StunTlv) : Bytes := (attris.map bytes).flatten

theorem length_bytes (a : StunTlv) : a.bytes.length = a.value.length + a.padding.length + 4 := by
  rw [bytes, List.length_append, StunPacket.length_attriBytes]
  omega

theorem encode_cons (a : StunTlv) (attris : List StunTlv) :
    encode (a :: attris) = a.bytes ++ encode attris := rfl

theorem mem_encode {a : StunTlv} {attris : List StunTlv} (h : a ∈ attris) :
    a.bytes.length ≤ (encode attris).length := by
  induction attris with
  | nil => cases h
  | cons b attris ih =>
      rw [encode_cons, List.length_append]
      rcases List.mem_cons.mp h with rfl | h
      · omega
      · have := ih h
        omega

theorem toNat_len {a : StunTlv} (h : a.bytes.length < 65536) : a.len.toNat = a.value.length := by
  rw [length_bytes] at h
  exact UInt16.toNat_ofNat_of_lt' (by simp [UInt16.size]; omega)

/-- Rounding the length up gives the length with the padding. -/
theorem getRealLen_len {a : StunTlv} (h : a.bytes.length < 65536) :
    (StunPacket.getRealLen a.len).toNat = a.value.length + a.padding.length := by
  have hlen := toNat_len h
  have hpad := a.padded
  rw [length_bytes] at h
  have hmod : a.len % 4 ≠ 0 ↔ a.value.length % 4 ≠ 0 := by
    rw [ne_eq, ← UInt16.toNat_inj]
    simp [hlen]
  unfold StunPacket.getRealLen
  split
  · next hne =>
      rw [hmod] at hne
      simp [hlen]
      omega
  · next heq =>
      rw [hmod] at heq
      omega

end StunTlv

end JuanSfu
