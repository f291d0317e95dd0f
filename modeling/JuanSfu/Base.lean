import JuanSfu.Lib.UnorderedMap

/-!
# Bytes, strings and the ways a C++ step can go wrong

`std::string` is a sequence of bytes, as the UDP payload is, so both are lists
of `UInt8`. A step of the program that the language leaves undefined, or that
ends in an exception nobody catches, is a `Fault`: the model stops there, and a
later theorem may say that it is never reached.
-/

namespace JuanSfu

abbrev Bytes := List UInt8

/-- `std::string`. -/
abbrev Str := List UInt8

/-- A string literal of the source. -/
def str (s : String) : Str := s.toList.map fun c => UInt8.ofNat c.toNat

inductive Fault where
  /-- `StunPacket*` used although `StunPacket::parse` returned `nullptr`. -/
  | nullStunPacket
  /-- A `std::shared_ptr` used although it is null. -/
  | nullSdp
  | nullDtlsParameter
  | nullSrtpSession
  /-- An index past the end of a `std::vector` or of a plain array. -/
  | indexOutOfRange
  /-- A read past the end of the received datagram. -/
  | readPastDatagram
  /-- `std::stoll` threw `std::invalid_argument` or `std::out_of_range`. -/
  | stollThrew
  /-- `Json::Value::operator[]` threw `Json::LogicError`. -/
  | jsonThrew
  /-- A loop of the source that does not end. -/
  | diverged
deriving DecidableEq

/-- A step that returns, or the fault that stopped it. -/
abbrev Result (α : Type) := Except Fault α

theorem ok_bind {α β : Type} (a : α) (f : α → Result β) : (Except.ok a >>= f) = f a := rfl

/-- What follows runs only after the first part has returned. -/
theorem bind_ok {α β : Type} {x : Result α} {f : α → Result β} {b : β}
    (h : x >>= f = .ok b) : ∃ a, x = .ok a ∧ f a = .ok b := by
  cases x with
  | error e => exact absurd h (by simp [bind, Except.bind])
  | ok a => exact ⟨a, rfl, h⟩

theorem bind_error {α β : Type} {x : Result α} {f : α → Result β} {e : Fault}
    (h : x >>= f = .error e) :
    x = .error e ∨ ∃ a, x = .ok a ∧ f a = .error e := by
  cases x with
  | error e' => exact Or.inl (by simpa [bind, Except.bind] using h)
  | ok a => exact Or.inr ⟨a, rfl, h⟩

/-- How a step of two parts ended: in the first, or in the second. -/
theorem bind_cases {α β : Type} {x : Result α} {f : α → Result β} {y : Result β}
    (h : x >>= f = y) : (∃ e, x = .error e ∧ y = .error e) ∨ ∃ a, x = .ok a ∧ f a = y := by
  cases x with
  | error e => exact Or.inl ⟨e, rfl, h.symm⟩
  | ok a => exact Or.inr ⟨a, rfl, h⟩

/-- A fault that no part of a step has, the step does not have. -/
theorem bind_ne_error {α β : Type} {x : Result α} {f : α → Result β} {e : Fault}
    (hx : x ≠ .error e) (hf : ∀ a, x = .ok a → f a ≠ .error e) : x >>= f ≠ .error e := by
  intro h
  rcases bind_error h with h | ⟨a, ha, h⟩
  · exact hx h
  · exact hf a ha h

/-- A step all of whose parts return, returns. -/
theorem exists_bind_ok {α β : Type} {x : Result α} {f : α → Result β} (hx : ∃ a, x = .ok a)
    (hf : ∀ a, x = .ok a → ∃ b, f a = .ok b) : ∃ b, x >>= f = .ok b := by
  obtain ⟨a, ha⟩ := hx
  obtain ⟨b, hb⟩ := hf a ha
  exact ⟨b, by rw [ha]; exact hb⟩

theorem ok_ne_error {α : Type} (a : α) (e : Fault) : (Except.ok a : Result α) ≠ .error e :=
  fun h => by cases h

theorem mapM_ne_error {α β : Type} {f : α → Result β} {e : Fault} {l : List α}
    (h : ∀ a ∈ l, f a ≠ .error e) : l.mapM f ≠ .error e := by
  induction l with
  | nil => exact ok_ne_error _ _
  | cons a l ih =>
      rw [List.forall_mem_cons] at h
      rw [List.mapM_cons]
      refine bind_ne_error h.1 fun b _ => ?_
      exact bind_ne_error (ih h.2) fun bs _ => ok_ne_error _ _

/-- What a loop that returns has collected. -/
theorem mem_of_mapM_ok {α β : Type} {f : α → Result β} {l : List α} {bs : List β}
    (h : l.mapM f = .ok bs) {b : β} (hb : b ∈ bs) : ∃ a ∈ l, f a = .ok b := by
  induction l generalizing bs with
  | nil =>
      cases h
      cases hb
  | cons a l ih =>
      rw [List.mapM_cons] at h
      obtain ⟨b', hb', h⟩ := bind_ok h
      obtain ⟨bs', hbs', h⟩ := bind_ok h
      cases h
      rcases List.mem_cons.mp hb with rfl | hb
      · exact ⟨a, List.mem_cons_self .., hb'⟩
      · obtain ⟨a', ha', hfa⟩ := ih hbs' hb
        exact ⟨a', List.mem_cons_of_mem _ ha', hfa⟩

/-- A loop none of whose turns goes wrong returns. -/
theorem exists_mapM_ok {α β : Type} {f : α → Result β} {l : List α}
    (h : ∀ a ∈ l, ∃ b, f a = .ok b) : ∃ bs, l.mapM f = .ok bs := by
  induction l with
  | nil => exact ⟨[], rfl⟩
  | cons a l ih =>
      rw [List.forall_mem_cons] at h
      obtain ⟨⟨b, hb⟩, hl⟩ := h
      obtain ⟨bs, hbs⟩ := ih hl
      exact ⟨b :: bs, by rw [List.mapM_cons, hb, hbs]; rfl⟩

/-- The fault a step ended with. -/
def faultOf {α : Type} : Result α → Option Fault
  | .ok _ => none
  | .error e => some e

theorem faultOf_eq_some {α : Type} {x : Result α} {e : Fault} :
    faultOf x = some e ↔ x = .error e := by
  cases x <;> simp [faultOf]

/-- What was computed of the result of a step, the step returned. -/
theorem ok_of_toOption_bind {α β : Type} {x : Result α} {f : α → Option β} {v : β}
    (h : x.toOption.bind f = some v) : ∃ a, x = .ok a ∧ f a = some v := by
  cases x with
  | error e => cases h
  | ok a => exact ⟨a, rfl, h⟩

theorem ok_of_toOption_map {α β : Type} {x : Result α} {f : α → β} {v : β}
    (h : x.toOption.map f = some v) : ∃ a, x = .ok a ∧ f a = v := by
  rw [Option.map_eq_bind] at h
  obtain ⟨a, ha, hv⟩ := ok_of_toOption_bind h
  exact ⟨a, ha, Option.some.inj hv⟩

/-- The faults of a null pointer. -/
def Fault.isNull : Fault → Bool
  | .nullStunPacket | .nullSdp | .nullDtlsParameter | .nullSrtpSession => true
  | _ => false

/-- `vecs[i]`. -/
def index {α : Type} (vecs : List α) (i : ℕ) : Result α :=
  match vecs[i]? with
  | some v => .ok v
  | none => .error .indexOutOfRange

theorem index_cons_zero {α : Type} (v : α) (vecs : List α) : index (v :: vecs) 0 = .ok v := rfl

theorem index_cons_succ {α : Type} (v : α) (vecs : List α) (i : ℕ) :
    index (v :: vecs) (i + 1) = index vecs i := rfl

theorem index_of_lt {α : Type} {vecs : List α} {i : ℕ} (h : i < vecs.length) :
    index vecs i = .ok vecs[i] := by
  simp only [index, List.getElem?_eq_getElem h]

theorem index_of_ge {α : Type} {vecs : List α} {i : ℕ} (h : vecs.length ≤ i) :
    index vecs i = .error .indexOutOfRange := by
  simp only [index, List.getElem?_eq_none h]

theorem index_ne_null {α : Type} (vecs : List α) (i : ℕ) {e : Fault} (he : e.isNull) :
    index vecs i ≠ .error e := by
  unfold index
  split
  · exact fun h => by cases h
  · rintro h
    cases h
    cases he

/-! ## Byte order -/

/-- `rtc::GetBE16` at offset `i`; the callers check the bounds. -/
def getBE16 (data : Bytes) (i : ℕ) : UInt16 :=
  (data.getD i 0).toUInt16 <<< 8 ||| (data.getD (i + 1) 0).toUInt16

/-- `rtc::GetBE32` at offset `i`; the callers check the bounds. -/
def getBE32 (data : Bytes) (i : ℕ) : UInt32 :=
  (getBE16 data i).toUInt32 <<< 16 ||| (getBE16 data (i + 2)).toUInt32

/-- `ByteBufferWriter::WriteUInt16`. -/
def putBE16 (v : UInt16) : Bytes := [(v >>> 8).toUInt8, v.toUInt8]

/-- `ByteBufferWriter::WriteUInt32`. -/
def putBE32 (v : UInt32) : Bytes :=
  putBE16 (v >>> 16).toUInt16 ++ putBE16 v.toUInt16

/-! ## Addresses and handles -/

/-- The remote end of a datagram, an IPv4 `uvcore::IpAddress`. The program
keys its maps by `toString`, the `ip:port` pair. -/
structure IpAddress where
  ip : UInt32
  port : UInt16
deriving DecidableEq

/-- The address a receiver is bound to, a `uvcore::IpAddress` built from a port
number and a host string; `getPort` gives back the number. -/
structure BindAddress where
  ip : Str
  port : UInt32
deriving DecidableEq

/-- A `uvcore::Udp*`. -/
abbrev UdpId := ℕ

/-- A `std::shared_ptr<SrtpTransport>`. -/
abbrev TransportId := ℕ

/-- `uvcore::TcpConnection::id()`. -/
abbrev ConnId := ℤ

end JuanSfu
