import JuanSfu.Base
import JuanSfu.Lib.Pool
import Mathlib.Data.List.Nodup
import Mathlib.Algebra.Order.Ring.Int
import Mathlib.Tactic.Positivity

/-!
# `signaling/port_mgr.cpp`: the UDP port allocator

Free ports lie in two arrays: those of `portArray` from `curr` on have not been
handed out since the last refill, those of `portArrayRec` below `recycle` came
back since then. When the first array is used up, the second is copied
backwards below `curr`. Read as one multiset, `freePorts`, the two follow the
steps of `Pool.spec`; the allocator's laws are the pool's.
-/

namespace JuanSfu

/-- The counters are C++ `int`s, the ports `unsigned`s. -/
structure UdpPortManager where
  portArray : List UInt32 := []
  portArrayRec : List UInt32 := []
  max : ℤ := 0
  curr : ℤ := 0
  recycle : ℤ := 0
deriving DecidableEq

namespace UdpPortManager

/-- `(end - start) / step`; the difference of two `int`s is taken exactly. -/
def portCount (start stop step : Int32) : ℤ :=
  (stop.toInt - start.toInt).tdiv step.toInt

/-- `start + i * step`, stored as an `unsigned`. -/
def portAt (start step : Int32) (i : ℕ) : UInt32 :=
  UInt32.ofInt (start.toInt + i * step.toInt)

def initialPorts (start stop step : Int32) : List UInt32 :=
  (List.range (portCount start stop step).toNat).map (portAt start step)

def init (m : UdpPortManager) (start stop step : Int32) : UdpPortManager :=
  let len := portCount start stop step
  if len > 0 then
    { m with
      portArray := initialPorts start stop step
      portArrayRec := List.replicate len.toNat 0
      max := len
      curr := 0 }
  else { m with max := len, curr := 0 }

/-- `array[i]` for an `int` index. -/
def readAt (array : List UInt32) (i : ℤ) : Result UInt32 :=
  if 0 ≤ i then index array i.toNat else .error .indexOutOfRange

/-- `array[i] = v` for an `int` index. -/
def writeAt (array : List UInt32) (i : ℤ) (v : UInt32) : Result (List UInt32) :=
  if 0 ≤ i ∧ i < array.length then .ok (array.set i.toNat v)
  else .error .indexOutOfRange

/-- `_port_array[--_curr] = _port_array_rec[i]`. -/
def refillStep (m : UdpPortManager) (i : ℕ) : Result UdpPortManager := do
  let port ← readAt m.portArrayRec i
  let curr := m.curr - 1
  let portArray ← writeAt m.portArray curr port
  return { m with curr, portArray }

def refill (m : UdpPortManager) : Result UdpPortManager := do
  let m ← (List.range m.recycle.toNat).foldlM refillStep m
  return { m with recycle := 0 }

/-- `_port_array[_curr++]`. -/
def takePort (m : UdpPortManager) : Result (UInt32 × UdpPortManager) := do
  let port ← readAt m.portArray m.curr
  return (port, { m with curr := m.curr + 1 })

/-- Exhaustion is signalled in band, by port 0. -/
def allocatePort (m : UdpPortManager) : Result (UInt32 × UdpPortManager) :=
  if m.curr ≥ m.max then
    if m.recycle > 0 then do
      let m ← m.refill
      m.takePort
    else .ok (0, m)
  else m.takePort

def recyclePort (m : UdpPortManager) (port : UInt32) : Result UdpPortManager :=
  if m.recycle ≥ m.max then .ok m
  else do
    let portArrayRec ← writeAt m.portArrayRec m.recycle port
    return { m with portArrayRec, recycle := m.recycle + 1 }

/-! ## The free ports -/

/-- `_port_array[_curr.._max)`. -/
def arrayPorts (m : UdpPortManager) : List UInt32 :=
  (m.portArray.take m.max.toNat).drop m.curr.toNat

/-- `_port_array_rec[0.._recycle)`. -/
def recycledPorts (m : UdpPortManager) : List UInt32 :=
  m.portArrayRec.take m.recycle.toNat

def freePorts (m : UdpPortManager) : Multiset UInt32 :=
  ↑m.arrayPorts + ↑m.recycledPorts

/-- Both arrays have `max` entries and both counters stay within them. -/
structure Valid (m : UdpPortManager) : Prop where
  array_length : m.portArray.length = m.max.toNat
  rec_length : m.portArrayRec.length = m.max.toNat
  curr_nonneg : 0 ≤ m.curr
  curr_le : m.curr ≤ m.max ⊔ 0
  recycle_nonneg : 0 ≤ m.recycle
  recycle_le : m.recycle ≤ m.max ⊔ 0

theorem Valid.arrayPorts_eq {m : UdpPortManager} (hv : m.Valid) :
    m.arrayPorts = m.portArray.drop m.curr.toNat := by
  rw [arrayPorts, ← hv.array_length, List.take_length]

theorem coe_take_succ {ports : List UInt32} {k : ℕ} (h : k < ports.length) :
    (↑(ports.take (k + 1)) : Multiset UInt32) = ports[k] ::ₘ ↑(ports.take k) := by
  rw [List.take_add_one, List.getElem?_eq_getElem h, Option.toList_some,
    Multiset.cons_coe]
  exact Multiset.coe_eq_coe.mpr (List.perm_append_singleton _ _)

/-- After `k` turns of the refill loop the last `k` ports of the first array
are the first `k` of the second. -/
theorem refillStep_fold {m : UdpPortManager} (hv : m.Valid) :
    ∀ k : ℕ, k ≤ m.recycle → k ≤ m.curr → ∃ m',
      (List.range k).foldlM refillStep m = .ok m' ∧ m'.max = m.max ∧
      m'.recycle = m.recycle ∧ m'.portArrayRec = m.portArrayRec ∧
      m'.portArray.length = m.portArray.length ∧ m'.curr = m.curr - k ∧
      (↑(m'.portArray.drop m'.curr.toNat) : Multiset UInt32) =
        ↑(m.portArrayRec.take k) + ↑(m.portArray.drop m.curr.toNat)
  | 0, _, _ => ⟨m, by simp [pure, Except.pure]⟩
  | k + 1, hrec, hcurr => by
      obtain ⟨m', hfold, hmax, hr, hra, hlen, hc, hfree⟩ :=
        refillStep_fold hv k (by omega) (by omega)
      have hk : k < m.portArrayRec.length := by
        have := hv.rec_length
        have := hv.recycle_le
        omega
      have hpos : (m'.curr - 1).toNat < m'.portArray.length := by
        have := hv.array_length
        have := hv.curr_le
        omega
      have hread : readAt m'.portArrayRec k = .ok m.portArrayRec[k] := by
        rw [readAt, if_pos (Int.natCast_nonneg k), hra, Int.toNat_natCast,
          index_of_lt hk]
      have hwrite : writeAt m'.portArray (m'.curr - 1) m.portArrayRec[k] =
          .ok (m'.portArray.set (m'.curr - 1).toNat m.portArrayRec[k]) := by
        rw [writeAt, if_pos (by omega)]
      refine ⟨{ m' with curr := m'.curr - 1, portArray :=
        m'.portArray.set (m'.curr - 1).toNat m.portArrayRec[k] }, ?_, hmax, hr, hra,
        by simpa using hlen, by simp only [hc]; omega, ?_⟩
      · rw [List.range_succ, List.foldlM_append, hfold]
        simp [bind, Except.bind, refillStep, hread, hwrite, pure, Except.pure]
      · have hnext : (m'.curr - 1).toNat + 1 = m'.curr.toNat := by omega
        simp only
        rw [List.drop_eq_getElem_cons (by simpa using hpos), List.getElem_set_self,
          List.drop_set_of_lt (by omega), hnext, coe_take_succ hk, ← Multiset.cons_coe,
          hfree, Multiset.cons_add]

/-- A refill moves every recycled port into the first array. -/
theorem refill_spec {m : UdpPortManager} (hv : m.Valid) (hfull : m.max ≤ m.curr)
    (hrec : 0 < m.recycle) :
    ∃ m', m.refill = .ok m' ∧ m'.Valid ∧ m'.max = m.max ∧ m'.curr < m'.max ∧
      m'.freePorts = m.freePorts := by
  have hcl := hv.curr_le
  have hrl := hv.recycle_le
  obtain ⟨m', hfold, hmax, -, hra, hlen, hc, hfree⟩ :=
    refillStep_fold hv m.recycle.toNat (by omega) (by omega)
  have hv' : Valid { m' with recycle := 0 } := by
    refine ⟨?_, ?_, ?_, ?_, le_refl 0, le_max_right _ _⟩ <;> simp only [hmax]
    · rw [hlen, hv.array_length]
    · rw [hra, hv.rec_length]
    · omega
    · omega
  refine ⟨{ m' with recycle := 0 }, ?_, hv', hmax, by simp only; omega, ?_⟩
  · simp [refill, hfold, bind, Except.bind, pure, Except.pure]
  · rw [freePorts, hv'.arrayPorts_eq, freePorts, hv.arrayPorts_eq, recycledPorts,
      recycledPorts]
    simp only [Int.toNat_zero, List.take_zero]
    rw [hfree, Multiset.coe_nil, add_zero, add_comm]

theorem takePort_spec {m : UdpPortManager} (hv : m.Valid) (h : m.curr < m.max) :
    ∃ port m', m.takePort = .ok (port, m') ∧ m'.Valid ∧ m'.max = m.max ∧
      m.freePorts = port ::ₘ m'.freePorts := by
  have h0 := hv.curr_nonneg
  have hlt : m.curr.toNat < m.portArray.length := by
    rw [hv.array_length]
    omega
  have hv' : Valid { m with curr := m.curr + 1 } :=
    { hv with curr_nonneg := by simp only; omega, curr_le := by simp only; omega }
  refine ⟨m.portArray[m.curr.toNat], { m with curr := m.curr + 1 }, ?_, hv', rfl, ?_⟩
  · simp [takePort, readAt, h0, index_of_lt hlt, bind, Except.bind, pure, Except.pure]
  · rw [freePorts, freePorts, hv.arrayPorts_eq, hv'.arrayPorts_eq,
      List.drop_eq_getElem_cons hlt, ← Multiset.cons_coe, Multiset.cons_add]
    have hnext : (m.curr + 1).toNat = m.curr.toNat + 1 := by omega
    simp only [hnext]
    rfl

/-- **What `allocate_port` does**: it takes a free port if there is one, and
returns 0 with nothing changed if there is none. -/
theorem allocatePort_spec {m : UdpPortManager} (hv : m.Valid) :
    (m.freePorts = 0 ∧ m.allocatePort = .ok (0, m)) ∨
    ∃ port m', m.allocatePort = .ok (port, m') ∧ m'.Valid ∧ m'.max = m.max ∧
      m.freePorts = port ::ₘ m'.freePorts := by
  by_cases hfull : m.max ≤ m.curr
  · by_cases hrec : 0 < m.recycle
    · right
      obtain ⟨m₁, hrefill, hv₁, hmax₁, hlt, hfree₁⟩ := refill_spec hv hfull hrec
      obtain ⟨port, m', htake, hv', hmax', hfree'⟩ := takePort_spec hv₁ hlt
      refine ⟨port, m', ?_, hv', hmax'.trans hmax₁, by rw [← hfree₁, hfree']⟩
      rw [allocatePort, if_pos hfull, if_pos hrec, hrefill]
      exact htake
    · left
      refine ⟨?_, by rw [allocatePort, if_pos hfull, if_neg hrec]⟩
      have harr : m.portArray.drop m.curr.toNat = [] := by
        apply List.drop_eq_nil_of_le
        rw [hv.array_length]
        omega
      rw [freePorts, hv.arrayPorts_eq, recycledPorts, harr,
        show m.recycle.toNat = 0 by omega]
      rfl
  · right
    obtain ⟨port, m', htake, hrest⟩ := takePort_spec hv (not_le.mp hfull)
    exact ⟨port, m', by rw [allocatePort, if_neg hfull, htake], hrest⟩

/-- `recycle_port` adds the port to the free ones while the array has room. -/
theorem recyclePort_spec {m : UdpPortManager} (hv : m.Valid) (port : UInt32)
    (hroom : m.recycle < m.max) :
    ∃ m', m.recyclePort port = .ok m' ∧ m'.Valid ∧ m'.max = m.max ∧
      m'.freePorts = port ::ₘ m.freePorts := by
  have h0 := hv.recycle_nonneg
  have hlt : m.recycle.toNat < m.portArrayRec.length := by
    rw [hv.rec_length]
    omega
  have hv' : Valid { m with
      portArrayRec := m.portArrayRec.set m.recycle.toNat port
      recycle := m.recycle + 1 } :=
    { hv with
      rec_length := by simpa using hv.rec_length
      recycle_nonneg := by simp only; omega
      recycle_le := by simp only; omega }
  refine ⟨_, ?_, hv', rfl, ?_⟩
  · simp [recyclePort, not_le.mpr hroom, writeAt, h0, bind, Except.bind, pure,
      Except.pure, show m.recycle < m.portArrayRec.length by omega]
  · rw [freePorts, freePorts, hv.arrayPorts_eq, hv'.arrayPorts_eq, recycledPorts,
      recycledPorts]
    simp only [show (m.recycle + 1).toNat = m.recycle.toNat + 1 by omega]
    rw [coe_take_succ (by simpa using hlt), List.getElem_set_self,
      List.take_set_of_le (le_refl _), Multiset.add_cons]

/-- An allocation returns, also of port 0, and keeps the counters in bounds. -/
theorem Valid.allocatePort {m : UdpPortManager} (hv : m.Valid) :
    ∃ port m', m.allocatePort = .ok (port, m') ∧ m'.Valid := by
  rcases allocatePort_spec hv with ⟨-, halloc⟩ | ⟨port, m', halloc, hv', -⟩
  · exact ⟨0, m, halloc, hv⟩
  · exact ⟨port, m', halloc, hv'⟩

/-- `recycle_port` keeps them there, whatever it is given. -/
theorem Valid.recyclePort {m m' : UdpPortManager} (hv : m.Valid) {port : UInt32}
    (h : m.recyclePort port = .ok m') : m'.Valid := by
  by_cases hroom : m.max ≤ m.recycle
  · rw [UdpPortManager.recyclePort, if_pos hroom] at h
    cases h
    exact hv
  · obtain ⟨m₁, hrec, hv', -⟩ := recyclePort_spec hv port (not_le.mp hroom)
    rw [hrec] at h
    cases h
    exact hv'

/-! ## The allocator and its pool -/

/-- `m` holds what the pool `ports` has free while the ports `out` are out. -/
structure Ledger (ports : Multiset UInt32) (m : UdpPortManager)
    (out : Multiset UInt32) : Prop where
  valid : m.Valid
  size : m.max = ports.card
  pool : Lts.Reachable (Pool.spec ports) ⟨m.freePorts, out⟩

variable {ports out : Multiset UInt32} {m : UdpPortManager}

theorem Ledger.conserved (hl : Ledger ports m out) : m.freePorts + out = ports :=
  Pool.conserved hl.pool

/-- An allocation is refused, or moves a port from the free to the out side. -/
theorem Ledger.allocatePort (hl : Ledger ports m out) :
    (m.freePorts = 0 ∧ m.allocatePort = .ok (0, m)) ∨
    ∃ port m', m.allocatePort = .ok (port, m') ∧ port ∈ m.freePorts ∧
      Ledger ports m' (port ::ₘ out) := by
  rcases allocatePort_spec hl.valid with h | ⟨port, m', halloc, hv', hmax, hfree⟩
  · exact Or.inl h
  · have hmem : port ∈ m.freePorts := by
      rw [hfree]
      exact Multiset.mem_cons_self _ _
    have hstep := hl.pool.snoc (Pool.Step.take (p := ⟨m.freePorts, out⟩) hmem)
    rw [show m.freePorts.erase port = m'.freePorts by simp [hfree]] at hstep
    exact Or.inr ⟨port, m', halloc, hmem, hv', hmax.trans hl.size, hstep⟩

/-- A port that is out fits into the recycle array and becomes free. -/
theorem Ledger.recyclePort (hl : Ledger ports m out) {port : UInt32}
    (hout : port ∈ out) : ∃ m', m.recyclePort port = .ok m' ∧
      m'.freePorts = port ::ₘ m.freePorts ∧ Ledger ports m' (out.erase port) := by
  have hroom : m.recycle < m.max := by
    have hcard := congrArg Multiset.card hl.conserved
    have hpos : 0 < out.card := Multiset.card_pos_iff_exists_mem.mpr ⟨port, hout⟩
    have hrec : m.recycledPorts.length = m.recycle.toNat := by
      rw [recycledPorts, List.length_take, hl.valid.rec_length]
      have := hl.valid.recycle_le
      omega
    simp only [freePorts, Multiset.card_add, Multiset.coe_card, hrec] at hcard
    have := hl.size
    omega
  obtain ⟨m', hrec, hv', hmax, hfree⟩ := recyclePort_spec hl.valid port hroom
  have hstep := hl.pool.snoc (Pool.Step.give (p := ⟨m.freePorts, out⟩) hout)
  rw [← hfree] at hstep
  exact ⟨m', hrec, hfree, hv', hmax.trans hl.size, hstep⟩

/-- `k` allocations in a row. -/
def allocateMany : ℕ → UdpPortManager → Result (List UInt32 × UdpPortManager)
  | 0, m => .ok ([], m)
  | k + 1, m => do
      let (port, m) ← m.allocatePort
      let (ports, m) ← allocateMany k m
      return (port :: ports, m)

/-- As many allocations as there are free ports return each of them once. -/
theorem allocateMany_spec : ∀ {k : ℕ} {m : UdpPortManager}, m.Valid →
    m.freePorts.card = k →
    ∃ got m', m.allocateMany k = .ok (got, m') ∧ m.freePorts = ↑got
  | 0, m, _, hk => ⟨[], m, rfl, by simpa using hk⟩
  | k + 1, m, hv, hk => by
      rcases allocatePort_spec hv with ⟨h0, -⟩ | ⟨port, m₁, halloc, hv₁, -, hfree⟩
      · simp [h0] at hk
      · have hk₁ : m₁.freePorts.card = k := by
          rw [hfree, Multiset.card_cons] at hk
          omega
        obtain ⟨got, m', hmany, hgot⟩ := allocateMany_spec hv₁ hk₁
        refine ⟨port :: got, m', ?_, by rw [hfree, hgot, Multiset.cons_coe]⟩
        simp [allocateMany, halloc, hmany, bind, Except.bind, pure, Except.pure]

/-! ### After `init` -/

section Configured

variable {start stop step : Int32}

theorem portAt_toNat (hstart : 0 < start.toInt) (hstep : 0 < step.toInt) {i : ℕ}
    (hi : i < (portCount start stop step).toNat) :
    ((portAt start step i).toNat : ℤ) = start.toInt + i * step.toInt := by
  have hstop := Int32.toInt_lt stop
  have hcount : portCount start stop step * step.toInt ≤ stop.toInt - start.toInt := by
    have hpos : 0 ≤ stop.toInt - start.toInt := by
      by_contra hneg
      have : portCount start stop step ≤ 0 := by
        have hq : 0 ≤ (-(stop.toInt - start.toInt)).tdiv step.toInt :=
          Int.tdiv_nonneg (by omega) hstep.le
        rw [Int.neg_tdiv] at hq
        rw [portCount]
        omega
      omega
    rw [portCount, Int.tdiv_eq_ediv_of_nonneg hpos]
    exact Int.ediv_mul_le _ (by omega)
  have hlt : (i : ℤ) * step.toInt ≤ portCount start stop step * step.toInt :=
    mul_le_mul_of_nonneg_right (by omega) hstep.le
  have h0 : 0 ≤ (i : ℤ) * step.toInt := by positivity
  simp only [portAt, UInt32.ofInt, UInt32.toNat_ofNat']
  omega

theorem initialPorts_nodup (hstart : 0 < start.toInt) (hstep : 0 < step.toInt) :
    (initialPorts start stop step).Nodup := by
  refine List.Nodup.map_on ?_ List.nodup_range
  intro i hi j hj hij
  have hval : ((portAt start step i).toNat : ℤ) = (portAt start step j).toNat := by
    rw [hij]
  rw [portAt_toNat hstart hstep (List.mem_range.mp hi),
    portAt_toNat hstart hstep (List.mem_range.mp hj)] at hval
  have : (i : ℤ) = j := mul_right_cancel₀ hstep.ne' (by omega)
  exact_mod_cast this

/-- Every configured port is a value `start + i * step`, and none is 0. -/
theorem mem_initialPorts (hstart : 0 < start.toInt) (hstep : 0 < step.toInt)
    {port : UInt32} (h : port ∈ initialPorts start stop step) :
    port ≠ 0 ∧ ∃ i : ℕ, i < portCount start stop step ∧
      (port.toNat : ℤ) = start.toInt + i * step.toInt := by
  obtain ⟨i, hi, rfl⟩ := List.mem_map.mp h
  have hval := portAt_toNat hstart hstep (List.mem_range.mp hi)
  have hi' := List.mem_range.mp hi
  refine ⟨?_, i, by omega, hval⟩
  intro h0
  have h1 : 0 ≤ (i : ℤ) * step.toInt := by positivity
  rw [h0] at hval
  simp at hval
  omega

/-- After `init` all ports are free, also when the range has none. -/
theorem ledger_init (hcount : 0 ≤ portCount start stop step) :
    Ledger ↑(initialPorts start stop step)
      (UdpPortManager.init {} start stop step) 0 := by
  have hlen : (initialPorts start stop step).length =
      (portCount start stop step).toNat := by simp [initialPorts]
  have hinit : UdpPortManager.init {} start stop step =
      { portArray := initialPorts start stop step
        portArrayRec := List.replicate (portCount start stop step).toNat 0
        max := portCount start stop step } := by
    rcases hcount.lt_or_eq with hpos | hzero
    · rw [init, if_pos hpos]
    · simp [init, initialPorts, ← hzero]
  have hv : Valid (UdpPortManager.init {} start stop step) := by
    rw [hinit]
    exact ⟨hlen, by simp, le_refl 0, le_max_right _ _, le_refl 0, le_max_right _ _⟩
  refine ⟨hv, ?_, .start ?_⟩
  · rw [hinit, Multiset.coe_card, hlen]
    dsimp only
    omega
  · change Pool.State.mk _ _ = _
    rw [freePorts, hv.arrayPorts_eq, recycledPorts, hinit]
    simp

/-- The calls on one manager, with the result of an allocation; `recycle` is
called for ports that are out only. -/
inductive PortCall where
  | allocate (result : UInt32)
  | recycle (port : UInt32)

/-- One call on the manager and what it does to the ports that are out. -/
inductive CallStep : UdpPortManager × Multiset UInt32 → PortCall →
    UdpPortManager × Multiset UInt32 → Prop where
  | allocate {m m' : UdpPortManager} {out : Multiset UInt32} {port : UInt32}
      (h : m.allocatePort = .ok (port, m')) :
      CallStep (m, out) (.allocate port) (m', if port = 0 then out else port ::ₘ out)
  | recycle {m m' : UdpPortManager} {out : Multiset UInt32} {port : UInt32}
      (hout : port ∈ out) (h : m.recyclePort port = .ok m') :
      CallStep (m, out) (.recycle port) (m', out.erase port)

/-- The manager after `init`, and the ports handed out and not given back. -/
def portSystem (start stop step : Int32) :
    Lts.System (UdpPortManager × Multiset UInt32) PortCall where
  init p := p = (UdpPortManager.init {} start stop step, 0)
  step := CallStep

/-- **The manager refines the pool of the configured ports.** -/
theorem portSystem_ledger (hstart : 0 < start.toInt) (hstep : 0 < step.toInt)
    (hcount : 1 ≤ portCount start stop step)
    {p : UdpPortManager × Multiset UInt32}
    (r : Lts.Reachable (portSystem start stop step) p) :
    Ledger ↑(initialPorts start stop step) p.1 p.2 := by
  refine r.invariant (P := fun p => Ledger _ p.1 p.2) ?_ ?_
  · rintro p rfl
    exact ledger_init (by omega)
  · rintro p c p' - hl h
    cases h with
    | allocate h =>
        rcases hl.allocatePort with ⟨-, heq⟩ | ⟨port, m', heq, hmem, hl'⟩
        · rw [heq] at h
          cases h
          exact hl
        · rw [heq] at h
          cases h
          have hne := (mem_initialPorts hstart hstep
            (Pool.mem_whole_of_free hl.pool hmem)).1
          rwa [if_neg hne]
    | recycle hout h =>
        obtain ⟨m', heq, -, hl'⟩ := hl.recyclePort hout
        rw [heq] at h
        cases h
        exact hl'

/-- **The manager is a correct allocator**: a call never faults; the result of
an allocation is not out and, unless it is 0, a configured port; it is 0 exactly
when every configured port is out; and the ports out and the ports in the two
arrays are the configured ones, each once. -/
theorem portSystem_correct (hstart : 0 < start.toInt) (hstep : 0 < step.toInt)
    (hcount : 1 ≤ portCount start stop step)
    {m : UdpPortManager} {out : Multiset UInt32}
    (r : Lts.Reachable (portSystem start stop step) (m, out)) :
    (∃ port m', m.allocatePort = .ok (port, m') ∧ port ∉ out ∧
      (port ≠ 0 → ∃ i : ℕ, i < portCount start stop step ∧
        (port.toNat : ℤ) = start.toInt + i * step.toInt) ∧
      (port = 0 ↔ ∀ i : ℕ, i < portCount start stop step →
        portAt start step i ∈ out)) ∧
    (∀ port ∈ out, ∃ m', m.recyclePort port = .ok m') ∧
    out + ↑m.arrayPorts + ↑m.recycledPorts = ↑(initialPorts start stop step) ∧
    (initialPorts start stop step).Nodup := by
  have hl : Ledger _ m out := portSystem_ledger hstart hstep hcount r
  have hnd : (initialPorts start stop step).Nodup := initialPorts_nodup hstart hstep
  have hall : (∀ i : ℕ, i < portCount start stop step → portAt start step i ∈ out) ↔
      ∀ port ∈ initialPorts start stop step, port ∈ out := by
    simp only [initialPorts, List.forall_mem_map, List.mem_range, Int.lt_toNat]
  refine ⟨?_, ?_, ?_, hnd⟩
  · rw [hall]
    rcases hl.allocatePort with ⟨hfree, halloc⟩ | ⟨port, m', halloc, hmem, -⟩
    · refine ⟨0, m, halloc, ?_, fun h => absurd rfl h, iff_of_true rfl ?_⟩
      · intro h0
        exact (mem_initialPorts hstart hstep (Pool.mem_whole_of_out hl.pool h0)).1 rfl
      · intro port hport
        have hout := (Pool.exhausted_iff hl.pool).mp hfree
        rw [show out = _ from hout]
        exact hport
    · have hport := mem_initialPorts hstart hstep (Pool.mem_whole_of_free hl.pool hmem)
      have hfresh : port ∉ out := Pool.take_fresh hl.pool hnd hmem
      refine ⟨port, m', halloc, hfresh, fun _ => hport.2, iff_of_false hport.1 ?_⟩
      intro h
      exact hfresh (h port (Pool.mem_whole_of_free hl.pool hmem))
  · intro port hport
    obtain ⟨m', hrec, -⟩ := hl.recyclePort hport
    exact ⟨m', hrec⟩
  · rw [← hl.conserved, freePorts, add_comm _ out, add_assoc]

/-- Two ports from 7000 on, the first of them out. -/
theorem portSystem_correct_first_out :
    ∃ port m', UdpPortManager.allocatePort
      ⟨[7000, 7001], [0, 0], 2, 1, 0⟩ = .ok (port, m') ∧ port ∉ ({7000} : Multiset UInt32) := by
  have hfirst : Lts.Reachable (portSystem 7000 7002 1)
      (⟨[7000, 7001], [0, 0], 2, 1, 0⟩, {7000}) :=
    .snoc (.start rfl) (show CallStep _ (.allocate 7000) _ from .allocate (by decide))
  obtain ⟨port, m', halloc, hnot, -⟩ :=
    (portSystem_correct (by decide) (by decide) (by decide) hfirst).1
  exact ⟨port, m', halloc, hnot⟩

end Configured

end UdpPortManager

end JuanSfu
