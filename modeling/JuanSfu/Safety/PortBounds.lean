import JuanSfu.Signaling.PortMgr

/-!
# The port arrays under any use

`portSystem_correct` is about callers that give back what they were given. Here
nothing is asked of them: any port is recycled, any number of times, and `init`
may be given a range that is empty or too wide for an `int`. Each access of the
two arrays goes through `readAt` or `writeAt`, which fault outside of the array.
So that no call faults, and the arrays have `max` entries, is that each index
lies in `[0, max)`.
-/

namespace JuanSfu

namespace UdpPortManager

/-- `init` behind the division. -/
def initLen (m : UdpPortManager) (len : ℤ) (start step : Int32) : UdpPortManager :=
  if len > 0 then
    { m with
      portArray := (List.range len.toNat).map (portAt start step)
      portArrayRec := List.replicate len.toNat 0
      max := len
      curr := 0 }
  else { m with max := len, curr := 0 }

/-- A new manager after `init`. Where `end - start` does not fit into an `int`
the language leaves the difference open, and `len` may be anything. -/
def Initialised (start stop step : Int32) (m : UdpPortManager) : Prop :=
  ∃ len : ℤ, (Int32.minValue.toInt ≤ stop.toInt - start.toInt →
      stop.toInt - start.toInt ≤ Int32.maxValue.toInt → len = portCount start stop step) ∧
    m = initLen {} len start step

/-- What the model computes without overflow is such a manager. -/
theorem initialised_init (start stop step : Int32) :
    Initialised start stop step (init {} start stop step) :=
  ⟨portCount start stop step, fun _ _ => rfl, rfl⟩

/-- A call, whatever its caller has done before. -/
inductive AnyCall where
  | allocate
  | recycle (port : UInt32)

def call (m : UdpPortManager) : AnyCall → Result UdpPortManager
  | .allocate => m.allocatePort.map (·.2)
  | .recycle port => m.recyclePort port

/-- The calls one after the other. -/
def callAll (m : UdpPortManager) (calls : List AnyCall) : Result UdpPortManager :=
  calls.foldlM call m

variable {start stop step : Int32} {m : UdpPortManager}

theorem Initialised.valid (h : Initialised start stop step m) : m.Valid := by
  obtain ⟨len, -, rfl⟩ := h
  unfold initLen
  split
  · exact ⟨by simp, by simp, le_refl 0, le_max_right _ _, le_refl 0, le_max_right _ _⟩
  · next hlen =>
      have hzero : len.toNat = 0 := by omega
      refine ⟨?_, ?_, le_refl 0, le_max_right _ _, le_refl 0, le_max_right _ _⟩
      · exact hzero.symm
      · exact hzero.symm

/-- The bounds hold at every turn of the refill, which begins with the first
array used up and takes no more than the second one holds. -/
theorem Valid.refillTurns (hv : m.Valid) (hfull : m.max ≤ m.curr) {k : ℕ}
    (hk : k ≤ m.recycle) :
    ∃ m', (List.range k).foldlM refillStep m = .ok m' ∧ m'.Valid ∧ m'.max = m.max := by
  have hcurr := hv.curr_le
  have hnonneg := hv.curr_nonneg
  have hrec := hv.recycle_le
  obtain ⟨m', hfold, hmax, hr, hra, hlen, hc, -⟩ := refillStep_fold hv k hk (by omega)
  refine ⟨m', hfold, ⟨?_, ?_, ?_, ?_, ?_, ?_⟩, hmax⟩
  · rw [hlen, hmax, hv.array_length]
  · rw [hra, hmax, hv.rec_length]
  · omega
  · omega
  · rw [hr]
    exact hv.recycle_nonneg
  · rw [hr, hmax]
    exact hrec

/-- **One call**: it returns, and the counters stay within the arrays. -/
theorem Valid.call (hv : m.Valid) (c : AnyCall) :
    ∃ m', m.call c = .ok m' ∧ m'.Valid ∧ m'.max = m.max := by
  cases c with
  | allocate =>
      rcases allocatePort_spec hv with ⟨-, halloc⟩ | ⟨port, m', halloc, hv', hmax, -⟩
      · exact ⟨m, by rw [UdpPortManager.call, halloc]; rfl, hv, rfl⟩
      · exact ⟨m', by rw [UdpPortManager.call, halloc]; rfl, hv', hmax⟩
  | recycle port =>
      rcases le_or_gt m.max m.recycle with hfull | hroom
      · -- a full array takes no more
        exact ⟨m, if_pos hfull, hv, rfl⟩
      · obtain ⟨m', hrec, hv', hmax, -⟩ := recyclePort_spec hv port hroom
        exact ⟨m', hrec, hv', hmax⟩

theorem Valid.callAll (hv : m.Valid) (calls : List AnyCall) :
    ∃ m', m.callAll calls = .ok m' ∧ m'.Valid ∧ m'.max = m.max := by
  induction calls generalizing m with
  | nil => exact ⟨m, rfl, hv, rfl⟩
  | cons c calls ih =>
      obtain ⟨m₁, hcall, hv₁, hmax₁⟩ := hv.call c
      obtain ⟨m', hrest, hv', hmax'⟩ := ih hv₁
      refine ⟨m', ?_, hv', hmax'.trans hmax₁⟩
      rw [UdpPortManager.callAll, List.foldlM_cons, hcall]
      exact hrest

/-- **The manager never leaves its arrays**, whatever range it is given and
whatever is allocated and recycled: every call returns, so that none of them
has used an index that is not in `[0, max)`, and the counters stay in bounds, also
at every turn of a refill. -/
theorem callAll_inside (h : Initialised start stop step m) (calls : List AnyCall) :
    ∃ m', m.callAll calls = .ok m' ∧ m'.max = m.max ∧ m'.Valid ∧
      (m'.max ≤ m'.curr → ∀ k : ℕ, k ≤ m'.recycle →
        ∃ m'', (List.range k).foldlM refillStep m' = .ok m'' ∧ m''.Valid) := by
  obtain ⟨m', hcalls, hv, hmax⟩ := h.valid.callAll calls
  refine ⟨m', hcalls, hmax, hv, fun hfull k hk => ?_⟩
  obtain ⟨m'', hturns, hv', -⟩ := hv.refillTurns hfull hk
  exact ⟨m'', hturns, hv'⟩

/-- Ports that were never handed out are recycled into a range of two, more than
it has room for, and a port is taken. -/
theorem callAll_inside_misused : ∃ m', (UdpPortManager.init {} 7000 7002 1).callAll
    [.recycle 0, .recycle 9, .recycle 9, .allocate] = .ok m' ∧ m'.Valid := by
  obtain ⟨m', hcalls, -, hv, -⟩ := callAll_inside (initialised_init 7000 7002 1)
    [.recycle 0, .recycle 9, .recycle 9, .allocate]
  exact ⟨m', hcalls, hv⟩

end UdpPortManager

end JuanSfu
