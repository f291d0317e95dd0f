import Mathlib.Algebra.Group.Nat.Defs
import Mathlib.Data.List.Basic
import Mathlib.Logic.Function.Iterate
import Mathlib.Order.Nat

/-!
# Cyclic redundancy checks, reflected

The register is shifted towards its low end, and the polynomial goes into it when
a bit falls out. A shift is linear in the exclusive or, and nothing is lost by it if
the polynomial has its top bit: so the register can be moved on by several bits
at once with a table (`iterate_shift_table`), and messages that differ in one window
no wider than the register leave different registers (`Burst.register_ne`).
-/

namespace Crc

variable {w : ℕ} {poly : BitVec w}

def shift (poly c : BitVec w) : BitVec w :=
  if c.getLsbD 0 then poly ^^^ (c >>> 1) else c >>> 1

/-- The bits of a message, the first one lowest. -/
def pattern (w : ℕ) (m : List Bool) : BitVec w := (BitVec.ofBoolListLE m).setWidth w

/-- The register after one more bit. -/
def feed (poly c : BitVec w) (b : Bool) : BitVec w := shift poly (c ^^^ pattern w [b])

def register (poly c : BitVec w) (m : List Bool) : BitVec w := m.foldl (feed poly) c

@[simp] theorem getElem_pattern (m : List Bool) (i : ℕ) (h : i < w) :
    (pattern w m)[i] = m.getD i false := by
  simp [pattern]

/-! ## Shifts -/

theorem shift_xor (a b : BitVec w) : shift poly (a ^^^ b) = shift poly a ^^^ shift poly b := by
  apply BitVec.eq_of_getLsbD_eq
  intro i _
  unfold shift
  cases ha : a.getLsbD 0 <;> cases hb : b.getLsbD 0 <;>
    cases hp : poly.getLsbD i <;> simp [ha, hb, hp]

theorem iterate_shift_xor (n : ℕ) (a b : BitVec w) :
    (shift poly)^[n] (a ^^^ b) = (shift poly)^[n] a ^^^ (shift poly)^[n] b := by
  induction n generalizing a b with
  | zero => rfl
  | succ n ih => rw [Function.iterate_succ_apply, shift_xor, ih]; rfl

/-- As long as clear bits fall out, the rest only moves. -/
theorem iterate_shift_of_clear {c : BitVec w} :
    ∀ {n : ℕ}, (∀ i < n, c.getLsbD i = false) → (shift poly)^[n] c = c >>> n
  | 0, _ => by simp
  | n + 1, h => by
      have hlow : (c >>> n).getLsbD 0 = false := by
        simpa using h n (Nat.lt_succ_self n)
      rw [Function.iterate_succ_apply', iterate_shift_of_clear fun i hi => h i (by omega),
        shift, hlow, BitVec.shiftRight_add]
      rfl

/-- **Several bits at once**: the low ones go through a table, the others move. -/
theorem iterate_shift_table (n : ℕ) (c : BitVec w) : (shift poly)^[n] c =
    (shift poly)^[n] (c &&& BitVec.ofNat w (2 ^ n - 1)) ^^^ (c >>> n) := by
  have hsplit : c = (c &&& BitVec.ofNat w (2 ^ n - 1)) ^^^ (c &&& ~~~BitVec.ofNat w (2 ^ n - 1)) := by
    ext i hi
    cases hc : (BitVec.ofNat w (2 ^ n - 1))[i] <;> simp [hc]
  have hclear : ∀ i < n, (c &&& ~~~BitVec.ofNat w (2 ^ n - 1)).getLsbD i = false := by
    intro i hi
    simp only [BitVec.getLsbD_and, BitVec.getLsbD_not, BitVec.getLsbD_ofNat,
      Nat.testBit_two_pow_sub_one]
    by_cases hw : i < w <;> simp [hi, hw]
  have hmove : (c &&& ~~~BitVec.ofNat w (2 ^ n - 1)) >>> n = c >>> n := by
    apply BitVec.eq_of_getLsbD_eq
    intro i _
    simp only [BitVec.getLsbD_ushiftRight, BitVec.getLsbD_and, BitVec.getLsbD_not,
      BitVec.getLsbD_ofNat, Nat.testBit_two_pow_sub_one]
    by_cases hw : n + i < w
    · simp [hw]
    · rw [BitVec.getLsbD_of_ge c _ (Nat.not_lt.mp hw)]
      rfl
  calc (shift poly)^[n] c
      = (shift poly)^[n] (c &&& BitVec.ofNat w (2 ^ n - 1)) ^^^
          (shift poly)^[n] (c &&& ~~~BitVec.ofNat w (2 ^ n - 1)) := by
        rw [← iterate_shift_xor, ← hsplit]
    _ = _ := by rw [iterate_shift_of_clear hclear, hmove]

/-- With the top bit in the polynomial, the register before a shift can be told from
the one after. -/
theorem shift_injective (hpoly : poly.msb = true) : Function.Injective (shift poly) := by
  intro a b hab
  have hzero : ∀ c : BitVec w, shift poly c = 0#w → c = 0#w := by
    intro c hc
    have hw : 0 < w := by
      rw [BitVec.msb_eq_decide] at hpoly
      by_contra hw
      have hlt := poly.isLt
      obtain rfl : w = 0 := Nat.eq_zero_of_not_pos hw
      simp_all
    cases hlow : c.getLsbD 0 with
    | true =>
        -- the top bit of the polynomial would have to come from above the register
        have htop := congrArg (fun v => v.getLsbD (w - 1)) hc
        have hmsb : poly.getLsbD (w - 1) = true := by
          rw [BitVec.msb_eq_getLsbD_last] at hpoly
          exact hpoly
        have hout : c.getLsbD (1 + (w - 1)) = false := BitVec.getLsbD_of_ge _ _ (by omega)
        simp [shift, hlow, hmsb, hout] at htop
    | false =>
        apply BitVec.eq_of_getLsbD_eq
        intro i hi
        cases i with
        | zero => simpa using hlow
        | succ i =>
            have hbit := congrArg (fun v => v.getLsbD i) hc
            simpa [shift, hlow, Nat.add_comm] using hbit
  have hxor : shift poly (a ^^^ b) = 0#w := by
    rw [shift_xor, hab, BitVec.xor_self]
  exact BitVec.xor_eq_zero_iff.mp (hzero _ hxor)

/-! ## Messages -/

theorem register_append (c : BitVec w) (m m' : List Bool) :
    register poly c (m ++ m') = register poly (register poly c m) m' := List.foldl_append

theorem register_injective (hpoly : poly.msb = true) (m : List Bool) :
    Function.Injective fun c => register poly c m := by
  induction m with
  | nil => exact fun _ _ h => h
  | cons b m ih =>
      intro a c h
      have hfeed : feed poly a b = feed poly c b := ih h
      exact (BitVec.xor_left_inj _).mp (shift_injective hpoly hfeed)

/-- What fits into the register may go in before the first shift. -/
theorem register_eq_iterate (c : BitVec w) {m : List Bool} (h : m.length ≤ w) :
    register poly c m = (shift poly)^[m.length] (c ^^^ pattern w m) := by
  induction m generalizing c with
  | nil =>
      have hnil : pattern w [] = 0#w := by
        ext i hi
        simp
      show c = c ^^^ pattern w []
      rw [hnil, BitVec.xor_zero]
  | cons b m ih =>
      have hlen : m.length < w := h
      have hcons : pattern w (b :: m) = pattern w [b] ^^^ (pattern w m <<< 1) := by
        ext i hi
        cases i with
        | zero => simp
        | succ i => simp
      have hmoved : shift poly (pattern w m <<< 1) = pattern w m := by
        ext i hi
        have hlow : (pattern w m <<< 1).getLsbD 0 = false := by simp
        rw [shift, hlow]
        by_cases htop : i + 1 < w
        · simp [Nat.add_comm 1 i, htop]
        · have hend : m.getD i false = false := by
            rw [List.getD_eq_getElem?_getD, List.getElem?_eq_none (by omega)]
            rfl
          rw [getElem_pattern, hend]
          simp [Nat.add_comm 1 i, htop]
      calc register poly c (b :: m)
          = (shift poly)^[m.length] (shift poly (c ^^^ pattern w [b]) ^^^ pattern w m) :=
            ih _ hlen.le
        _ = (shift poly)^[m.length] (shift poly (c ^^^ pattern w (b :: m))) := by
            rw [hcons, ← BitVec.xor_assoc, shift_xor (c ^^^ pattern w [b]), hmoved]

theorem pattern_injective {m m' : List Bool} (hlen : m.length = m'.length) (h : m.length ≤ w)
    (heq : pattern w m = pattern w m') : m = m' := by
  apply List.ext_getElem hlen
  intro i hi hi'
  have hw : i < w := Nat.lt_of_lt_of_le hi h
  have hbit : (pattern w m)[i] = (pattern w m')[i] := by rw [heq]
  simpa [hi, hi'] using hbit

/-! ## Bursts -/

/-- The messages differ, in a window of at most `n` bits. -/
structure Burst (n : ℕ) (m m' : List Bool) : Prop where
  window : ∃ front x x' rest, m = front ++ (x ++ rest) ∧ m' = front ++ (x' ++ rest) ∧
    x.length = x'.length ∧ x.length ≤ n
  ne : m ≠ m'

/-- **Bursts are noticed**, if they are no longer than the register. -/
theorem Burst.register_ne (hpoly : poly.msb = true) {m m' : List Bool} (h : Burst w m m')
    (c : BitVec w) : register poly c m ≠ register poly c m' := by
  obtain ⟨⟨front, x, x', rest, rfl, rfl, hlen, hw⟩, hne⟩ := h
  intro heq
  simp only [register_append] at heq
  have hwindow := register_injective hpoly rest heq
  have hw' : x'.length ≤ w := hlen ▸ hw
  rw [register_eq_iterate (m := x) _ hw, register_eq_iterate _ hw', ← hlen] at hwindow
  have hpattern := (shift_injective hpoly).iterate _ hwindow
  exact hne (by rw [pattern_injective hlen hw ((BitVec.xor_right_inj _).mp hpattern)])

variable {n : ℕ} {m m' : List Bool}

theorem Burst.length_eq (h : Burst n m m') : m.length = m'.length := by
  obtain ⟨⟨front, x, x', rest, rfl, rfl, hlen, -⟩, -⟩ := h
  simp [hlen]

theorem Burst.take (h : Burst n m m') {k : ℕ} (hne : m.take k ≠ m'.take k) :
    Burst n (m.take k) (m'.take k) := by
  obtain ⟨⟨front, x, x', rest, rfl, rfl, hlen, hn⟩, -⟩ := h
  refine ⟨⟨front.take k, x.take (k - front.length), x'.take (k - front.length),
    rest.take (k - front.length - x.length), ?_, ?_, ?_, ?_⟩, hne⟩
  · rw [List.take_append, List.take_append]
  · rw [List.take_append, List.take_append, hlen]
  · rw [List.length_take, List.length_take, hlen]
  · exact (List.length_take_le' _ _).trans hn

/-- A burst that begins early is over in time. -/
theorem Burst.drop (h : Burst n m m') {k : ℕ} (hne : m.take k ≠ m'.take k) :
    m.drop (k + n) = m'.drop (k + n) := by
  obtain ⟨⟨front, x, x', rest, rfl, rfl, hlen, hn⟩, -⟩ := h
  have hfront : front.length < k := by
    by_contra hle
    refine hne ?_
    rw [List.take_append_of_le_length (Nat.not_lt.mp hle),
      List.take_append_of_le_length (Nat.not_lt.mp hle)]
  have hx : x.length ≤ k + n - front.length := by omega
  have hx' : x'.length ≤ k + n - front.length := hlen ▸ hx
  rw [List.drop_append, List.drop_append, List.drop_append, List.drop_append,
    List.drop_eq_nil_of_le hx, List.drop_eq_nil_of_le hx', hlen]

end Crc
