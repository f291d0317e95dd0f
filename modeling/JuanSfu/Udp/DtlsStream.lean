import JuanSfu.RtcBase.BufferQueue
import JuanSfu.Udp.RtcDtls

/-!
# The stream below the TLS adapter, with its queue

The model of `DtlsStreamInterface` has a list of packets where the source has a
`BufferQueue`. Here the stream is taken with the queue as it is, and behaves as the
model, call by call.
-/

namespace JuanSfu

/-- `DtlsStreamInterface`, the queue with its buffers. -/
structure DtlsStream where
  que : BufferQueue := { capacity := DtlsStreamInterface.queCapacity, defaultSize := 2 }
  state : StreamState := .opened
  isStop : Bool := false

inductive StreamCall where
  | read (bufferLen : ℕ)
  | onPacketReceive (junk : ℕ → UInt8) (data : Bytes)
  | close
  | stopUdp

/-- What a call returns; `signalled` tells whether `SE_READ` was raised. -/
inductive StreamReply where
  | read (result : StreamResult) (packet : Option Bytes)
  | received (flag signalled : Bool)
  | done

namespace DtlsStream

def read (s : DtlsStream) (bufferLen : ℕ) : DtlsStream × StreamResult × Option Bytes :=
  match s.state with
  | .closed => (s, .eos, none)
  | .opening => (s, .block, none)
  | .opened =>
      match s.que.readFront bufferLen with
      | (que, none) => ({ s with que }, .block, none)
      | (que, some packet) => ({ s with que }, .success, some packet)

/-- `on_packet_receive` up to the signal: its result, and whether it signals. -/
def onPacketReceive (s : DtlsStream) (junk : ℕ → UInt8) (data : Bytes) :
    DtlsStream × Bool × Bool :=
  if s.isStop then (s, false, false)
  else
    let (que, flag) := s.que.writeBack junk data
    ({ s with que }, flag, true)

def close (s : DtlsStream) : DtlsStream := { s with state := .closed, que := s.que.clear }

def stopUdp (s : DtlsStream) : DtlsStream := { s with isStop := true }

def machine : Machine DtlsStream StreamCall StreamReply where
  call
  | s, .read n => ((s.read n).1, .read (s.read n).2.1 (s.read n).2.2)
  | s, .onPacketReceive junk data =>
      ((s.onPacketReceive junk data).1,
        .received (s.onPacketReceive junk data).2.1 (s.onPacketReceive junk data).2.2)
  | s, .close => (s.close, .done)
  | s, .stopUdp => (s.stopUdp, .done)

/-- The stream as the model has it. -/
def abs (s : DtlsStream) : DtlsStreamInterface where
  que := s.que.contents
  state := s.state
  isStop := s.isStop

end DtlsStream

namespace DtlsStreamInterface

def machine : Machine DtlsStreamInterface StreamCall StreamReply where
  call
  | s, .read n => ((s.read n).1, .read (s.read n).2.1 (s.read n).2.2)
  | s, .onPacketReceive _ data =>
      if s.isStop then (s, .received false false)
      else ((s.writeBack data).2, .received (s.writeBack data).1 true)
  | s, .close => (s.close, .done)
  | s, .stopUdp => (s.stopUdp, .done)

end DtlsStreamInterface

namespace DtlsStream

open DtlsStreamInterface (queCapacity)

/-- The queue is as `DtlsStreamInterface` makes it. -/
def Sound (s : DtlsStream) : Prop := s.que.Keeps queCapacity

theorem sound_new : Sound {} := BufferQueue.keeps_new queCapacity 2

theorem Sound.read {s : DtlsStream} (h : s.Sound) (bufferLen : ℕ) :
    (s.read bufferLen).1.Sound ∧
      s.abs.read bufferLen = (abs (s.read bufferLen).1, (s.read bufferLen).2) := by
  rcases s with ⟨que, state, isStop⟩
  rcases state
  case closed => exact ⟨h, rfl⟩
  case opening => exact ⟨h, rfl⟩
  case opened =>
    have hkeeps : (que.readFront bufferLen).1.Keeps queCapacity := h.readFront bufferLen
    obtain ⟨htail, hhead⟩ := que.contents_readFront bufferLen
    rcases hread : que.readFront bufferLen with ⟨que', packet⟩
    rw [hread] at hkeeps htail hhead
    simp only [Sound, DtlsStream.read, hread, abs, DtlsStreamInterface.read]
    rcases hque : que.contents with _ | ⟨first, rest⟩
    · rw [hque] at htail hhead
      obtain rfl : packet = none := hhead
      exact ⟨hkeeps, by rw [htail]; rfl⟩
    · rw [hque] at htail hhead
      obtain rfl : packet = some (first.take bufferLen) := hhead
      exact ⟨hkeeps, by rw [htail]; rfl⟩

theorem Sound.onPacketReceive {s : DtlsStream} (h : s.Sound) (junk : ℕ → UInt8) (data : Bytes) :
    (s.onPacketReceive junk data).1.Sound ∧
      DtlsStreamInterface.machine.call s.abs (.onPacketReceive junk data) =
        (abs (s.onPacketReceive junk data).1,
          .received (s.onPacketReceive junk data).2.1 (s.onPacketReceive junk data).2.2) := by
  rcases s with ⟨que, state, isStop⟩
  rcases isStop
  case true => exact ⟨h, rfl⟩
  case false =>
    refine ⟨h.writeBack junk data, ?_⟩
    have hcontents := que.contents_writeBack h.1 junk data
    have hflag := que.flag_writeBack junk data
    rw [show que.capacity = queCapacity from h.2] at hcontents hflag
    simp only [DtlsStreamInterface.machine, DtlsStreamInterface.writeBack,
      DtlsStream.onPacketReceive, abs, hcontents, hflag, Bool.false_eq_true, if_false]
    by_cases hfull : que.contents.length = queCapacity
    · simp only [if_pos hfull, decide_eq_true hfull, Bool.not_true]
    · simp only [if_neg hfull, decide_eq_false hfull, Bool.not_false]

/-- The stream with its buffers behaves as the model's. -/
theorem refines : machine.Refines DtlsStreamInterface.machine Sound abs where
  keeps s i h := by
    rcases i with n | ⟨junk, data⟩ | _ | _
    · exact (h.read n).1
    · exact (h.onPacketReceive junk data).1
    · exact h.clear
    · exact h
  state s i h := by
    rcases i with n | ⟨junk, data⟩ | _ | _
    · exact congrArg Prod.fst (h.read n).2
    · exact congrArg Prod.fst (h.onPacketReceive junk data).2
    · rfl
    · rfl
  result s i h := by
    rcases i with n | ⟨junk, data⟩ | _ | _
    · exact congrArg (fun p => StreamReply.read p.2.1 p.2.2) (h.read n).2
    · exact congrArg Prod.snd (h.onPacketReceive junk data).2
    · rfl
    · rfl

/-- **A stream's queue is a list**: in every sequence of calls the stream returns what
the model's does. -/
theorem run_machine (calls : List StreamCall) :
    DtlsStreamInterface.machine.run {} calls =
      (abs (machine.run {} calls).1, (machine.run {} calls).2) :=
  refines.run_eq sound_new calls

end DtlsStream

end JuanSfu
