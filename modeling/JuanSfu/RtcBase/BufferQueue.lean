import JuanSfu.Base
import JuanSfu.Lib.Machine
import Mathlib.Data.List.Perm.Basic
import Mathlib.Data.List.Range
import Mathlib.Logic.Function.Basic

/-!
# `rtc_base/buffer.h` and `rtc_base/buffer_queue.cc`

The queue below the TLS adapter. It keeps the buffers it has made for ever and uses them
again: one that has been read goes to a free list, and a packet is written into the
buffer that came there last. A `Buffer*` is an address in the heap of the queue.
-/

namespace JuanSfu

/-! ## Buffers -/

/-- `rtc::Buffer`: what is allocated, and how much of it counts. -/
structure Buffer where
  size : ℕ
  data : Bytes
  consistent : size ≤ data.length

namespace Buffer

instance : Inhabited Buffer := ⟨⟨0, [], Nat.le_refl 0⟩⟩

def capacity (b : Buffer) : ℕ := b.data.length

/-- The bytes that count. -/
def bytes (b : Buffer) : Bytes := b.data.take b.size

/-- `new T[n]`; what is found there is up to the allocator. -/
def alloc (junk : ℕ → UInt8) (n : ℕ) : Bytes := (List.range n).map junk

@[simp] theorem length_alloc (junk : ℕ → UInt8) (n : ℕ) : (alloc junk n).length = n := by
  simp [alloc]

/-- `BufferT(size, capacity)`. -/
def make (junk : ℕ → UInt8) (size capacity : ℕ) : Buffer where
  size := size
  data := alloc junk (max size capacity)
  consistent := by
    rw [length_alloc]
    exact le_max_left size capacity

/-- `EnsureCapacityWithHeadroom`: the bytes that count are copied into a larger array. -/
def ensureCapacityWithHeadroom (b : Buffer) (junk : ℕ → UInt8) (capacity : ℕ)
    (extraHeadroom : Bool) : Buffer :=
  if capacity ≤ b.capacity then b
  else
    let newCapacity := if extraHeadroom then max capacity (b.capacity + b.capacity / 2) else capacity
    { size := b.size
      data := b.bytes ++ (alloc junk newCapacity).drop b.size
      consistent := by
        rw [List.length_append, bytes, List.length_take, min_eq_left b.consistent]
        exact Nat.le_add_right _ _ }

theorem le_capacity_ensure (b : Buffer) (junk : ℕ → UInt8) (capacity : ℕ) :
    capacity ≤ (b.ensureCapacityWithHeadroom junk capacity true).data.length := by
  unfold ensureCapacityWithHeadroom
  split
  next h => exact h
  next h =>
    have hb := b.consistent
    simp only [if_true, bytes, List.length_append, List.length_take, List.length_drop,
      length_alloc]
    omega

/-- `AppendData`: `memcpy` behind the bytes that count. -/
def appendData (b : Buffer) (junk : ℕ → UInt8) (data : Bytes) : Buffer where
  size := b.size + data.length
  data :=
    let larger := (b.ensureCapacityWithHeadroom junk (b.size + data.length) true).data
    larger.take b.size ++ data ++ larger.drop (b.size + data.length)
  consistent := by
    have hle := b.le_capacity_ensure junk (b.size + data.length)
    simp only [List.length_append, List.length_take, List.length_drop]
    omega

/-- `SetData`. -/
def setData (b : Buffer) (junk : ℕ → UInt8) (data : Bytes) : Buffer :=
  { b with size := 0, consistent := Nat.zero_le _ }.appendData junk data

/-- Nothing of what a buffer held before is left in it. -/
theorem bytes_setData (b : Buffer) (junk : ℕ → UInt8) (data : Bytes) :
    (b.setData junk data).bytes = data := by
  unfold setData appendData bytes
  simp

end Buffer

/-! ## The queue -/

/-- A `Buffer*`. -/
abbrev BufferPtr := ℕ

/-- The buffers below `made` have been made; `queue_` and `free_list_` are lists of
pointers, of the vector the back is the end. -/
structure BufferQueue where
  capacity : ℕ
  defaultSize : ℕ
  heap : BufferPtr → Buffer := fun _ => default
  made : ℕ := 0
  queue : List BufferPtr := []
  freeList : List BufferPtr := []

namespace BufferQueue

/-- The loop of `Clear`. -/
def clearLoop : List BufferPtr → List BufferPtr → List BufferPtr
  | [], freeList => freeList
  | packet :: queue, freeList => clearLoop queue (freeList ++ [packet])

def clear (q : BufferQueue) : BufferQueue :=
  { q with queue := [], freeList := clearLoop q.queue q.freeList }

/-- `ReadFront`: the bytes that are copied, if there is a packet. -/
def readFront (q : BufferQueue) (bytes : ℕ) : BufferQueue × Option Bytes :=
  match q.queue with
  | [] => (q, none)
  | packet :: queue =>
      let bytes := min bytes (q.heap packet).size
      ({ q with queue, freeList := q.freeList ++ [packet] }, some ((q.heap packet).data.take bytes))

/-- The buffer of `WriteBack`: the one that was freed last, or a new one. -/
def takeBuffer (q : BufferQueue) (junk : ℕ → UInt8) (bytes : ℕ) : BufferPtr × BufferQueue :=
  match q.freeList.getLast? with
  | some packet => (packet, { q with freeList := q.freeList.dropLast })
  | none =>
      (q.made,
        { q with
          heap := Function.update q.heap q.made (.make junk bytes q.defaultSize)
          made := q.made + 1 })

/-- `WriteBack`. -/
def writeBack (q : BufferQueue) (junk : ℕ → UInt8) (data : Bytes) : BufferQueue × Bool :=
  if q.queue.length = q.capacity then (q, false)
  else
    let (packet, q) := q.takeBuffer junk data.length
    ({ q with
        heap := Function.update q.heap packet ((q.heap packet).setData junk data)
        queue := q.queue ++ [packet] }, true)

/-- The packets in the queue, the next one first. -/
def contents (q : BufferQueue) : List Bytes := q.queue.map fun packet => (q.heap packet).bytes

/-- Every buffer that was made is in the queue or free, once, and there are no more of
them than the queue may have packets. -/
structure Valid (q : BufferQueue) : Prop where
  owned : (q.queue ++ q.freeList).Perm (List.range q.made)
  made_le : q.made ≤ q.capacity

variable {q : BufferQueue}

theorem Valid.length_eq (h : q.Valid) : q.queue.length + q.freeList.length = q.made := by
  rw [← List.length_append, h.owned.length_eq, List.length_range]

theorem length_contents (q : BufferQueue) : q.contents.length = q.queue.length :=
  List.length_map _

/-! ### Clearing and reading -/

theorem clearLoop_eq (queue freeList : List BufferPtr) :
    clearLoop queue freeList = freeList ++ queue := by
  induction queue generalizing freeList with
  | nil => exact (List.append_nil freeList).symm
  | cons packet queue ih => rw [clearLoop, ih, List.append_assoc, List.singleton_append]

theorem Valid.clear (h : q.Valid) : q.clear.Valid where
  owned := by
    show ([] ++ clearLoop q.queue q.freeList).Perm (List.range q.made)
    rw [clearLoop_eq, List.nil_append]
    exact List.perm_append_comm.trans h.owned
  made_le := h.made_le

theorem Valid.readFront (h : q.Valid) (bytes : ℕ) : (q.readFront bytes).1.Valid := by
  unfold BufferQueue.readFront
  split
  next => exact h
  next packet queue hqueue =>
    refine ⟨?_, h.made_le⟩
    -- the packet goes from the front of the one list to the end of the other
    have hmoved : (queue ++ (q.freeList ++ [packet])).Perm (packet :: queue ++ q.freeList) := by
      rw [← List.append_assoc]
      exact List.perm_append_singleton packet (queue ++ q.freeList)
    exact hmoved.trans (hqueue ▸ h.owned)

theorem contents_readFront (q : BufferQueue) (bytes : ℕ) :
    (q.readFront bytes).1.contents = q.contents.tail ∧
      (q.readFront bytes).2 = q.contents.head?.map (List.take bytes) := by
  unfold BufferQueue.readFront contents
  split
  next hqueue =>
    rw [hqueue]
    exact ⟨rfl, rfl⟩
  next packet queue hqueue =>
    rw [hqueue]
    refine ⟨rfl, ?_⟩
    show some ((q.heap packet).data.take (min bytes (q.heap packet).size)) =
      some ((q.heap packet).bytes.take bytes)
    rw [Buffer.bytes, List.take_take]

/-! ### Writing -/

/-- A buffer that is neither in the queue nor free any longer. -/
structure Took (q : BufferQueue) (packet : BufferPtr) (q' : BufferQueue) : Prop where
  queue : q'.queue = q.queue
  capacity : q'.capacity = q.capacity
  owned : (packet :: (q'.queue ++ q'.freeList)).Perm (List.range q'.made)
  made_le : q'.made ≤ q.capacity
  kept (p : BufferPtr) (h : p ∈ q.queue) : q'.heap p = q.heap p

theorem Valid.takeBuffer (h : q.Valid) (hroom : q.queue.length ≠ q.capacity)
    (junk : ℕ → UInt8) (bytes : ℕ) :
    Took q (q.takeBuffer junk bytes).1 (q.takeBuffer junk bytes).2 := by
  have hlen := h.length_eq
  have hmade := h.made_le
  unfold BufferQueue.takeBuffer
  split
  next packet hlast =>
    refine ⟨rfl, rfl, ?_, hmade, fun _ _ => rfl⟩
    have hfree : q.freeList.dropLast ++ [packet] = q.freeList :=
      List.dropLast_append_getLast? packet hlast
    have hmoved : (packet :: (q.queue ++ q.freeList.dropLast)).Perm (q.queue ++ q.freeList) := by
      rw [← hfree, ← List.append_assoc, hfree]
      exact (List.perm_append_singleton packet _).symm
    exact hmoved.trans h.owned
  next hnone =>
    -- all buffers are in the queue, and the queue is not full
    have hfree : q.freeList = [] := List.getLast?_eq_none_iff.mp hnone
    rw [hfree, List.length_nil] at hlen
    refine ⟨rfl, rfl, ?_, by show q.made + 1 ≤ q.capacity; omega, ?_⟩
    · show (q.made :: (q.queue ++ q.freeList)).Perm (List.range (q.made + 1))
      rw [List.range_succ]
      exact (h.owned.cons q.made).trans (List.perm_append_singleton _ _).symm
    · intro p hp
      have hlt : p < q.made := List.mem_range.mp (h.owned.subset (List.mem_append_left _ hp))
      exact Function.update_of_ne hlt.ne _ _

theorem Took.notMem {q' : BufferQueue} {packet : BufferPtr} (h : Took q packet q') :
    packet ∉ q.queue := by
  have hnodup := h.owned.nodup_iff.mpr List.nodup_range
  intro hin
  exact (List.nodup_cons.mp hnodup).1 (List.mem_append_left _ (h.queue ▸ hin))

theorem Valid.writeBack (h : q.Valid) (junk : ℕ → UInt8) (data : Bytes) :
    (q.writeBack junk data).1.Valid := by
  unfold BufferQueue.writeBack
  split
  next => exact h
  next hroom =>
    have htook := h.takeBuffer hroom junk data.length
    refine ⟨?_, htook.capacity ▸ htook.made_le⟩
    exact (List.perm_append_comm.append_right _).trans htook.owned

theorem contents_writeBack (h : q.Valid) (junk : ℕ → UInt8) (data : Bytes) :
    (q.writeBack junk data).1.contents =
      if q.contents.length = q.capacity then q.contents else q.contents ++ [data] := by
  rw [length_contents]
  unfold BufferQueue.writeBack
  split
  next => rfl
  next hroom =>
    have htook := h.takeBuffer hroom junk data.length
    unfold contents
    dsimp only
    rw [List.map_append, List.map_singleton, Function.update_self, Buffer.bytes_setData,
      htook.queue]
    congr 1
    -- the packets that wait are in other buffers
    apply List.map_congr_left
    intro p hp
    have hne : p ≠ (q.takeBuffer junk data.length).1 := fun he => htook.notMem (he ▸ hp)
    rw [Function.update_of_ne hne, htook.kept p hp]

theorem flag_writeBack (q : BufferQueue) (junk : ℕ → UInt8) (data : Bytes) :
    (q.writeBack junk data).2 = !decide (q.contents.length = q.capacity) := by
  rw [length_contents]
  unfold BufferQueue.writeBack
  split
  next hfull => rw [decide_eq_true hfull, Bool.not_true]
  next hroom => rw [decide_eq_false hroom, Bool.not_false]

/-! ### The queue as a list -/

inductive QueueCall where
  | readFront (bytes : ℕ)
  | writeBack (junk : ℕ → UInt8) (data : Bytes)
  | clear

inductive QueueResult where
  | read (packet : Option Bytes)
  | written (flag : Bool)
  | cleared

def machine : Machine BufferQueue QueueCall QueueResult where
  call
  | q, .readFront bytes => ((q.readFront bytes).1, .read (q.readFront bytes).2)
  | q, .writeBack junk data => ((q.writeBack junk data).1, .written (q.writeBack junk data).2)
  | q, .clear => (q.clear, .cleared)

/-- What the queue is for: packets in the order in which they came, as many as it may
have, each as long as the reader's memory at most. -/
def fifo (capacity : ℕ) : Machine (List Bytes) QueueCall QueueResult where
  call
  | que, .readFront bytes => (que.tail, .read (que.head?.map (List.take bytes)))
  | que, .writeBack _ data =>
      if que.length = capacity then (que, .written false) else (que ++ [data], .written true)
  | _, .clear => ([], .cleared)

/-- The invariant of a queue with this capacity. -/
def Keeps (capacity : ℕ) (q : BufferQueue) : Prop := q.Valid ∧ q.capacity = capacity

theorem capacity_writeBack (q : BufferQueue) (junk : ℕ → UInt8) (data : Bytes) :
    (q.writeBack junk data).1.capacity = q.capacity := by
  have htake : (q.takeBuffer junk data.length).2.capacity = q.capacity := by
    unfold takeBuffer
    split <;> rfl
  unfold BufferQueue.writeBack
  split
  next => rfl
  next => exact htake

theorem capacity_readFront (q : BufferQueue) (bytes : ℕ) :
    (q.readFront bytes).1.capacity = q.capacity := by
  unfold BufferQueue.readFront
  split <;> rfl

theorem keeps_new (capacity defaultSize : ℕ) : Keeps capacity { capacity, defaultSize } :=
  ⟨⟨List.Perm.refl [], Nat.zero_le capacity⟩, rfl⟩

theorem Keeps.readFront {capacity : ℕ} (h : q.Keeps capacity) (bytes : ℕ) :
    (q.readFront bytes).1.Keeps capacity :=
  ⟨h.1.readFront bytes, (capacity_readFront q bytes).trans h.2⟩

theorem Keeps.writeBack {capacity : ℕ} (h : q.Keeps capacity) (junk : ℕ → UInt8)
    (data : Bytes) : (q.writeBack junk data).1.Keeps capacity :=
  ⟨h.1.writeBack junk data, (capacity_writeBack q junk data).trans h.2⟩

theorem Keeps.clear {capacity : ℕ} (h : q.Keeps capacity) : q.clear.Keeps capacity :=
  ⟨h.1.clear, h.2⟩

theorem refines_fifo (capacity : ℕ) :
    machine.Refines (fifo capacity) (Keeps capacity) contents where
  keeps q i h := by
    rcases i with bytes | ⟨junk, data⟩ | _
    · exact h.readFront bytes
    · exact h.writeBack junk data
    · exact h.clear
  state q i h := by
    rcases i with bytes | ⟨junk, data⟩ | _
    · exact (contents_readFront q bytes).1.symm
    · have hcontents := contents_writeBack h.1 junk data
      rw [h.2] at hcontents
      simp only [fifo, machine, hcontents]
      split <;> rfl
    · rfl
  result q i h := by
    rcases i with bytes | ⟨junk, data⟩ | _
    · exact congrArg QueueResult.read (contents_readFront q bytes).2.symm
    · have hflag := flag_writeBack q junk data
      rw [h.2] at hflag
      simp only [fifo, machine, hflag]
      split
      next hfull => rw [decide_eq_true hfull, Bool.not_true]
      next hroom => rw [decide_eq_false hroom, Bool.not_false]
    · rfl

/-- **The buffers are used again, and nobody notices**: whatever is called, a queue gives
the results of a list of packets, and it has made no more buffers than it may hold
packets, each of which is waiting or free. -/
theorem run_fifo (capacity defaultSize : ℕ) (calls : List QueueCall) :
    (fifo capacity).run [] calls =
        ((machine.run { capacity, defaultSize } calls).1.contents,
          (machine.run { capacity, defaultSize } calls).2) ∧
      (machine.run { capacity, defaultSize } calls).1.Valid := by
  have hnew := keeps_new capacity defaultSize
  exact ⟨(refines_fifo capacity).run_eq hnew calls,
    ((refines_fifo capacity).run_keeps hnew calls).1⟩

end BufferQueue
end JuanSfu
