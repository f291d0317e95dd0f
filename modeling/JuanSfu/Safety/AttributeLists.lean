import JuanSfu.Udp.StunAttributes

/-!
# Attribute lists, written and parsed

A STUN attribute on the wire is a type, a length, a value and the padding that
brings the value to a whole number of words. `parse_attri` finds the next
attribute by rounding the declared length up, so it stays in step with the list
it reads; at each place it then keeps what the attribute there asks for.
-/

namespace JuanSfu

namespace StunTlv

/-- The attributes with their offsets behind the header, from `pos` on. -/
def located : ℕ → List StunTlv → List (ℕ × StunTlv)
  | _, [] => []
  | pos, a :: attris => (pos, a) :: located (pos + a.bytes.length) attris

/-- The types that `parse_attri` keeps. -/
def isKept (a : StunTlv) : Bool :=
  a.type ∈ [stunUsername, stunMessageIntegrity, stunIceControlling, stunUseCandidate,
    stunPriority]

/-- What the parser relies on beyond the length: a MESSAGE-INTEGRITY and a
PRIORITY have the size of what is read as their value. -/
def Sized (a : StunTlv) : Prop :=
  (a.type = stunMessageIntegrity → a.value.length = kStunMessageIntegritySize) ∧
    (a.type = stunPriority → a.value.length = 4)

instance (a : StunTlv) : Decidable a.Sized := inferInstanceAs (Decidable (_ ∧ _))

/-- The entry keeps the attribute that starts at the offset. -/
structure Records (p : ℕ × StunTlv) (entry : StunAttribute) : Prop where
  type : entry.type = p.2.type
  len : entry.len.toNat = p.2.value.length
  priority : p.2.type = stunPriority →
    entry = .priority p.2.len (getBE32 p.2.value 0)
  iceControlling : p.2.type = stunIceControlling →
    entry = .iceControlling p.2.len p.2.value
  integrity : p.2.type = stunMessageIntegrity →
    entry = .integrity p.2.len (stunHeaderSize + p.1) p.2.value
  username : ∀ r l : Str, p.2.type = stunUsername → p.2.value = r ++ str ":" ++ l →
    r ≠ [] → l ≠ [] → 58 ∉ r → 58 ∉ l → entry = .username p.2.len r l

/-! ## The walk over a list -/

section Written

open StunPacket

variable {data before : Bytes} {pos counter : ℕ} {attris : List StunTlv}

/-- Every attribute stands where it is located. -/
theorem hasAttri_located (hdata : data = before ++ encode attris)
    (hbefore : before.length = stunHeaderSize + pos) :
    ∀ p ∈ located pos attris, HasAttri data p.1 p.2.type p.2.len p.2.value := by
  induction attris generalizing before pos with
  | nil => simp [located]
  | cons a attris ih =>
      rw [located, List.forall_mem_cons]
      constructor
      · refine ⟨before, a.padding ++ encode attris, ?_, hbefore⟩
        rw [hdata, encode_cons, bytes, List.append_assoc]
      · have hrest : data = before ++ a.bytes ++ encode attris := by
          rw [hdata, encode_cons, List.append_assoc]
        refine ih hrest ?_
        rw [List.length_append, hbefore, Nat.add_assoc]

/-- **The walk stays in step with the list.** Only the last value must not be
empty: the loop ends four bytes before the datagram does. -/
theorem attriPositions_located (hdata : data = before ++ encode attris)
    (hbefore : before.length = stunHeaderSize + pos) (hcount : attris.length ≤ counter)
    (hfit : ∀ a ∈ attris, a.bytes.length < 65536) (hsized : ∀ a ∈ attris, a.Sized)
    (hlast : ∀ a ∈ attris.getLast?, a.value ≠ []) :
    attriPositions data counter pos = (located pos attris).map (·.1) := by
  induction attris generalizing before pos counter with
  | nil =>
      cases counter with
      | zero => rfl
      | succ counter =>
          have hend : data.length = stunHeaderSize + pos := by
            rw [hdata, List.length_append, hbefore]
            rfl
          rw [attriPositions, if_neg (by omega)]
          rfl
  | cons a attris ih =>
      obtain ⟨counter, rfl⟩ :=
        Nat.exists_eq_add_one.mpr (Nat.lt_of_lt_of_le (Nat.succ_pos _) hcount)
      rw [List.forall_mem_cons] at hfit hsized
      have hattri : HasAttri data pos a.type a.len a.value :=
        hasAttri_located hdata hbefore (pos, a) (List.mem_cons_self ..)
      have hroom : pos + 4 + stunHeaderSize < data.length := by
        have hbytes := a.length_bytes
        have htotal : data.length =
            stunHeaderSize + pos + a.bytes.length + (encode attris).length := by
          rw [hdata, encode_cons, List.length_append, List.length_append, hbefore]
          omega
        cases attris with
        | nil =>
            have hne := List.length_pos_of_ne_nil (hlast a rfl)
            omega
        | cons b attris =>
            have hb := mem_encode (List.mem_cons_self (a := b) (l := attris))
            have hbytes' := b.length_bytes
            omega
      have hnext : nextAttri data pos = pos + a.bytes.length := by
        rw [nextAttri, attriType, attriLen, hattri.type_eq, hattri.len_eq, toNat_len hfit.1,
          getRealLen_len hfit.1, length_bytes]
        split
        · next htype =>
            have hpad := a.padded
            rw [hsized.1.1 htype] at hpad
            rw [hpad]
            rfl
        · rfl
      rw [attriPositions, if_pos hroom, hnext, located, List.map_cons]
      congr 1
      have hrest : data = before ++ a.bytes ++ encode attris := by
        rw [hdata, encode_cons, List.append_assoc]
      refine ih hrest ?_ ?_ hfit.2 hsized.2 ?_
      · rw [List.length_append, hbefore, Nat.add_assoc]
      · simpa using hcount
      · intro b hb
        refine hlast b ?_
        cases attris with
        | nil => cases hb
        | cons c attris => exact hb

/-! ## What is kept -/

/-- At the place of an attribute the parser reads its value, no more. -/
theorem readsInside {a : StunTlv} (h : HasAttri data pos a.type a.len a.value)
    (hlen : a.len.toNat = a.value.length) (hsized : a.Sized) : ReadsInside data pos := by
  have hfits := h.value_fits
  rw [ReadsInside, attriType, attriLen, h.type_eq, h.len_eq, hlen]
  refine ⟨fun _ => hfits, fun htype => ?_⟩
  rwa [hsized.2 htype] at hfits

/-- The two names of a USERNAME. -/
theorem usernameParts_eq {r l : Str} (hr : r ≠ []) (hl : l ≠ []) (hr' : 58 ∉ r) (hl' : 58 ∉ l) :
    usernameParts (r ++ str ":" ++ l) = (r, l) := by
  have hsplit : split (r ++ str ":" ++ l) (str ":") [] = .ok [r, l] := by
    rw [List.append_assoc]
    exact split_two hr' hl' hr hl
  rw [usernameParts, hsplit]

/-- What is kept of an attribute, by its type. -/
theorem attriAt_records {a : StunTlv} (h : HasAttri data pos a.type a.len a.value)
    (hlen : a.len.toNat = a.value.length) (hsized : a.Sized) :
    (a.isKept = true → ∃ entry, attriAt data pos = some entry ∧ Records (pos, a) entry) ∧
      (a.isKept = false → attriAt data pos = none) := by
  have htype : attriType data pos = a.type := h.type_eq
  have hdeclared : attriLen data pos = a.len := h.len_eq
  have hvalue : attriValue data pos = a.value := by
    rw [attriValue, hdeclared, hlen]
    exact h.value_eq
  unfold attriAt
  rw [htype, hdeclared, hvalue]
  dsimp only
  by_cases h1 : a.type = stunUsername
  · rw [if_pos h1]
    refine ⟨fun _ => ⟨_, rfl, ?_⟩, fun hno => by simp [isKept, h1] at hno⟩
    refine ⟨h1.symm, hlen, ?_, ?_, ?_, ?_⟩
    · simp [h1, stunUsername, stunPriority]
    · simp [h1, stunUsername, stunIceControlling]
    · simp [h1, stunUsername, stunMessageIntegrity]
    · rintro r l - heq hr hl hr' hl'
      have heq : a.value = r ++ str ":" ++ l := heq
      rw [heq, usernameParts_eq hr hl hr' hl']
  by_cases h2 : a.type = stunMessageIntegrity
  · rw [if_neg h1, if_pos h2]
    refine ⟨fun _ => ⟨_, rfl, ?_⟩, fun hno => by simp [isKept, h2] at hno⟩
    refine ⟨h2.symm, hlen, ?_, ?_, ?_, fun _ _ h => absurd h h1⟩
    · simp [h2, stunMessageIntegrity, stunPriority]
    · simp [h2, stunMessageIntegrity, stunIceControlling]
    · simp [Nat.add_comm]
  by_cases h3 : a.type = stunIceControlling
  · rw [if_neg h1, if_neg h2, if_pos h3]
    refine ⟨fun _ => ⟨_, rfl, ?_⟩, fun hno => by simp [isKept, h3] at hno⟩
    refine ⟨h3.symm, hlen, ?_, fun _ => rfl, fun h => absurd h h2, fun _ _ h => absurd h h1⟩
    simp [h3, stunIceControlling, stunPriority]
  by_cases h4 : a.type = stunUseCandidate
  · rw [if_neg h1, if_neg h2, if_neg h3, if_pos h4]
    refine ⟨fun _ => ⟨_, rfl, ?_⟩, fun hno => by simp [isKept, h4] at hno⟩
    refine ⟨h4.symm, hlen, ?_, fun h => absurd h h3, fun h => absurd h h2,
      fun _ _ h => absurd h h1⟩
    simp [h4, stunUseCandidate, stunPriority]
  by_cases h5 : a.type = stunPriority
  · rw [if_neg h1, if_neg h2, if_neg h3, if_neg h4, if_pos h5]
    refine ⟨fun _ => ⟨_, rfl, ?_⟩, fun hno => by simp [isKept, h5] at hno⟩
    refine ⟨h5.symm, hlen, fun _ => ?_, fun h => absurd h h3, fun h => absurd h h2,
      fun _ _ h => absurd h h1⟩
    have hword := h.value_eq
    rw [hsized.2 h5] at hword
    rw [hword]
  · rw [if_neg h1, if_neg h2, if_neg h3, if_neg h4, if_neg h5]
    refine ⟨fun hyes => ?_, fun _ => rfl⟩
    simp [isKept, h1, h2, h3, h4, h5] at hyes

end Written

theorem forall₂_filterMap {α β : Type} {K : α → Bool} {f : α → Option β} {R : α → β → Prop}
    {l : List α} (h : ∀ x ∈ l, (K x = true → ∃ y, f x = some y ∧ R x y) ∧
      (K x = false → f x = none)) : List.Forall₂ R (l.filter K) (l.filterMap f) := by
  induction l with
  | nil => exact .nil
  | cons x l ih =>
      rw [List.forall_mem_cons] at h
      cases hx : K x with
      | true =>
          obtain ⟨y, hy, hr⟩ := h.1.1 hx
          rw [List.filter_cons_of_pos hx, List.filterMap_cons_some hy]
          exact .cons hr (ih h.2)
      | false =>
          rw [List.filter_cons_of_neg (by simp [hx]), List.filterMap_cons_none (h.1.2 hx)]
          exact ih h.2

theorem mem_of_located {pos : ℕ} {attris : List StunTlv} {p : ℕ × StunTlv}
    (h : p ∈ located pos attris) : p.2 ∈ attris := by
  induction attris generalizing pos with
  | nil => cases h
  | cons a attris ih =>
      rcases List.mem_cons.mp h with rfl | h
      · exact List.mem_cons_self ..
      · exact List.mem_cons_of_mem _ (ih h)

end StunTlv

open StunTlv in
/-- **Decoding undoes encoding.** Behind any header, a list of at most twenty
attributes is recorded entry by entry; what is not kept is passed over. -/
theorem StunPacket.parseAttri_encode {hdr : Bytes} (hhdr : hdr.length = stunHeaderSize)
    {attris : List StunTlv} (hne : attris ≠ []) (hcount : attris.length ≤ 20)
    (hfit : (encode attris).length < 65536) (hsized : ∀ a ∈ attris, a.Sized)
    (hlast : (attris.getLast hne).value ≠ []) :
    ∃ entries, parseAttri (hdr ++ encode attris) = .ok entries ∧
      List.Forall₂ Records ((located 0 attris).filter (·.2.isKept)) entries := by
  have hbytes : ∀ a ∈ attris, a.bytes.length < 65536 :=
    fun a ha => Nat.lt_of_le_of_lt (mem_encode ha) hfit
  have hwalk : attriPositions (hdr ++ encode attris) 20 0 = (located 0 attris).map (·.1) := by
    refine attriPositions_located rfl hhdr hcount hbytes hsized ?_
    rw [List.getLast?_eq_some_getLast hne]
    rintro a ⟨⟩
    exact hlast
  have hattri : ∀ p ∈ located 0 attris,
      HasAttri (hdr ++ encode attris) p.1 p.2.type p.2.len p.2.value :=
    hasAttri_located rfl hhdr
  have hlen : ∀ p ∈ located 0 attris, p.2.len.toNat = p.2.value.length :=
    fun p hp => toNat_len (hbytes p.2 (mem_of_located hp))
  refine ⟨_, ?_, forall₂_filterMap (f := fun p => attriAt (hdr ++ encode attris) p.1) ?_⟩
  · rw [parseAttri, parseAttriLoop_eq, hwalk, if_pos, List.filterMap_map]
    · rfl
    · rw [List.forall_mem_map]
      exact fun p hp => readsInside (hattri p hp) (hlen p hp) (hsized p.2 (mem_of_located hp))
  · exact fun p hp => attriAt_records (hattri p hp) (hlen p hp) (hsized p.2 (mem_of_located hp))

/-- A USERNAME that needs padding, an attribute nobody keeps and a PRIORITY. -/
def StunTlv.sampleList : List StunTlv :=
  [⟨stunUsername, str "ab:cde", [0, 7], rfl⟩, ⟨0xC057, [1, 2, 3], [0], rfl⟩,
    ⟨stunPriority, [0x6E, 0, 1, 0xFF], [], rfl⟩]

open StunTlv in
theorem StunPacket.parseAttri_encode_sampleList :
    ∃ entries, parseAttri (List.replicate 20 0 ++ encode sampleList) = .ok entries ∧
      List.Forall₂ Records ((located 0 sampleList).filter (·.2.isKept)) entries :=
  parseAttri_encode rfl (by decide) (by decide) (by decide) (by decide) (by decide)

end JuanSfu
