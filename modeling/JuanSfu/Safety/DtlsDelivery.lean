import JuanSfu.Lib.Framing
import JuanSfu.Udp.DtlsSteps

/-!
# What the DTLS adapter is given to read

Which datagrams are put into the queue of the adapter, and in which order,
whatever arrives and whatever the adapter does while it is being called. The
state of the handler is set by datagrams and by events; the invariant ties it to
the log: it is `k_connecting` only behind a `StartSSL` that succeeded, and
`k_connected` only behind a delivery, the first of which is a ClientHello.
-/

namespace JuanSfu

/-- A DTLS record as long as its header says. -/
def IsRecord (r : Bytes) : Prop := r.length = 13 + (getBE16 r 11).toNat

/-- A datagram made of complete records. -/
def IsRecords (data : Bytes) : Prop :=
  ∃ records : List Bytes, (∀ r ∈ records, IsRecord r) ∧ data = records.flatten

def IsClientHello (data : Bytes) : Prop :=
  17 < data.length ∧ data.getD 0 0 = 22 ∧ data.getD 13 0 = 1

theorem getBE16_take {data : Bytes} {n i : ℕ} (h : i + 1 < n) :
    getBE16 (data.take n) i = getBE16 data i := by
  simp [getBE16, List.getD_eq_getElem?_getD, h, Nat.lt_of_succ_lt h]

/-- Records as frames: the two bytes before the body give its length. -/
def dtlsFraming : Framing UInt8 where
  headerLen := RtcDtls.kDtlsRecordHeaderLen
  bodyLen data := (getBE16 data 11).toNat
  bodyLen_take h := by rw [getBE16_take (Nat.lt_of_lt_of_le (by decide) h)]

theorem isRecords_iff_frames {data : Bytes} : IsRecords data ↔ dtlsFraming.IsFrames data := Iff.rfl

/-- **The framing loop accepts complete records, and nothing else.** -/
theorem recordsLoop_iff {fuel : ℕ} {data : Bytes} (h : data.length ≤ fuel) :
    RtcDtls.recordsLoop fuel data = true ↔ IsRecords data := by
  rw [isRecords_iff_frames]
  fun_induction RtcDtls.recordsLoop fuel data with
  | case1 => exact iff_of_true rfl dtlsFraming.isFrames_nil
  | case2 data hne => exact absurd (List.length_eq_zero_iff.mp (Nat.le_zero.mp h)) hne
  | case3 fuel data hne hshort =>
      have hheader := dtlsFraming.headerLen_le_frameLen data
      rw [dtlsFraming.isFrames_iff hne]
      refine iff_of_false nofun fun hframe => ?_
      exact Nat.not_le_of_lt hshort (Nat.le_trans hheader hframe.1)
  | case4 fuel data hne hlen recordLen hlong =>
      rw [dtlsFraming.isFrames_iff hne]
      refine iff_of_false nofun fun hframe => ?_
      exact Nat.not_le_of_lt hlong (Nat.add_comm _ _ ▸ hframe.1)
  | case5 fuel data hne hlen recordLen hfit ih =>
      have hframe : dtlsFraming.frameLen data = RtcDtls.kDtlsRecordHeaderLen + recordLen := rfl
      have hrest : (data.drop (RtcDtls.kDtlsRecordHeaderLen + recordLen)).length ≤ fuel := by
        rw [List.length_drop, RtcDtls.kDtlsRecordHeaderLen]
        omega
      rw [dtlsFraming.isFrames_iff hne, hframe, ih hrest]
      exact (and_iff_right (by omega)).symm

instance (data : Bytes) : Decidable (IsRecords data) :=
  decidable_of_iff _ (recordsLoop_iff (Nat.le_refl data.length))

theorem isClientHello_of_packet {data : Bytes}
    (h : RtcDtls.isDtlsClientHelloPacket data = true) : IsClientHello data := by
  simp only [RtcDtls.isDtlsClientHelloPacket, Bool.and_eq_true, decide_eq_true_eq,
    beq_iff_eq] at h
  exact ⟨h.1.2, h.2⟩

/-! ## The log -/

namespace DtlsMark

def written? : DtlsMark → Option Bytes
  | .delivered data true => some data
  | _ => none

def arrived? : DtlsMark → Option Bytes
  | .arrived data => some data
  | _ => none

end DtlsMark

/-- The datagrams put into the queue. -/
def written (log : List DtlsMark) : List Bytes := log.filterMap DtlsMark.written?

def arrived (log : List DtlsMark) : List Bytes := log.filterMap DtlsMark.arrived?

/-- The adapter has been told of a datagram. -/
def Told (log : List DtlsMark) : Prop := ∃ data flag, .delivered data flag ∈ log

theorem written_append (log marks : List DtlsMark) :
    written (log ++ marks) = written log ++ written marks := List.filterMap_append

theorem arrived_append (log marks : List DtlsMark) :
    arrived (log ++ marks) = arrived log ++ arrived marks := List.filterMap_append

theorem mem_written {log : List DtlsMark} {data : Bytes} :
    data ∈ written log ↔ .delivered data true ∈ log := by
  unfold written
  rw [List.mem_filterMap]
  constructor
  · rintro ⟨m, hm, hdata⟩
    cases m with
    | delivered data' flag =>
        cases flag with
        | true => exact Option.some.inj hdata ▸ hm
        | false => cases hdata
    | _ => cases hdata
  · exact fun hm => ⟨_, hm, rfl⟩

theorem told_append {log marks : List DtlsMark} : Told (log ++ marks) ↔ Told log ∨ Told marks := by
  simp only [Told, List.mem_append, exists_or]

/-- **What is written to the queue of the adapter.** -/
structure Delivers (log : List DtlsMark) : Prop where
  records : ∀ data ∈ written log, IsRecords data
  hello : ∀ data ∈ (written log).head?, IsClientHello data
  started : ∀ before after data,
    log = before ++ .delivered data true :: after → .started ∈ before
  inOrder : (written log).Sublist (arrived log)

namespace Delivers

variable {log marks : List DtlsMark}

theorem nil : Delivers [] where
  records := by simp [written]
  hello := by simp [written]
  started := by simp
  inOrder := List.Sublist.refl _

/-- Where a write in a longer log is: in what was added, or in the old log. -/
theorem started_append (hlog : Delivers log) (hmarks : written marks = [] ∨ .started ∈ log) :
    ∀ before after data, log ++ marks = before ++ .delivered data true :: after →
      .started ∈ before := by
  intro before after data heq
  rcases List.append_eq_append_iff.mp heq with ⟨middle, hbefore, hnew⟩ | ⟨middle, hold, hnew⟩
  · have hwritten : data ∈ written marks := mem_written.mpr (by simp [hnew])
    rcases hmarks with hnone | hstarted
    · simp [hnone] at hwritten
    · rw [hbefore]
      exact List.mem_append_left _ hstarted
  · cases middle with
    | nil =>
        have hwritten : data ∈ written marks := by
          rw [mem_written, ← List.nil_append marks, ← hnew]
          exact List.mem_cons_self ..
        rcases hmarks with hnone | hstarted
        · simp [hnone] at hwritten
        · simpa [hold] using hstarted
    | cons m middle =>
        obtain ⟨rfl, -⟩ := List.cons.inj hnew
        exact hlog.started before middle data hold

/-- Where nothing is written, nothing can go wrong. -/
theorem append (hlog : Delivers log) (hnone : written marks = []) : Delivers (log ++ marks) := by
  have hsame : written (log ++ marks) = written log := by simp [written_append, hnone]
  refine ⟨?_, ?_, hlog.started_append (Or.inl hnone), ?_⟩
  · rw [hsame]
    exact hlog.records
  · rw [hsame]
    exact hlog.hello
  · rw [hsame, arrived_append]
    exact hlog.inOrder.trans (List.sublist_append_left ..)

/-- One more datagram is written. -/
theorem write (hlog : Delivers log) {data : Bytes} (hrecords : IsRecords data)
    (hhello : written log = [] → IsClientHello data) (hstarted : .started ∈ log)
    (hin : (written log ++ [data]).Sublist (arrived log)) :
    Delivers (log ++ [.delivered data true]) := by
  have hwritten : written (log ++ [.delivered data true]) = written log ++ [data] :=
    written_append ..
  refine ⟨?_, ?_, hlog.started_append (Or.inr hstarted), ?_⟩
  · rw [hwritten, List.forall_mem_append]
    exact ⟨hlog.records, List.forall_mem_singleton.mpr hrecords⟩
  · rw [hwritten]
    cases hold : written log with
    | nil => simpa using hhello hold
    | cons first rest => simpa [hold] using hlog.hello
  · rw [hwritten, arrived_append]
    exact hin.trans (List.sublist_append_left ..)

end Delivers

/-! ## The invariant -/

namespace DtlsRun

/-- The adapter raises `SE_OPEN` only when it has been given something. -/
def OpensAfterDelivery (s : DtlsRun) : DtlsEvent → Prop
  | .adapter (.signal seOpen _ _ _ _) => seOpen = true → Told s.log
  | _ => True

/-- The state and the queue, tied to what has happened. -/
structure Supplied (s : DtlsRun) : Prop where
  delivers : Delivers s.log
  /-- What is left in the queue was written last. -/
  queued : s.dtls.downward.que <:+ written s.log
  /-- The first delivery finds room. -/
  found : Told s.log → written s.log ≠ []
  told : Told s.log → .started ∈ s.log
  connecting : s.dtls.state = .connecting → .started ∈ s.log
  connected : s.dtls.state = .connected → Told s.log
  delivering : ∀ hello flag, s.control = .delivering hello flag → Told s.log
  /-- The datagram that waits for `StartSSL` arrived last. -/
  starting : ∀ data, s.control = .starting data → (written s.log ++ [data]).Sublist (arrived s.log)

variable {s s' : DtlsRun} {e : DtlsEvent}

/-- Where nothing is written and no state is let in, the invariant stays. -/
theorem Supplied.note (h : s.Supplied) (marks : List DtlsMark) (hnone : written marks = [])
    (huntold : ¬ Told marks) (hlog : s'.log = s.log ++ marks)
    (hque : s'.dtls.downward.que <:+ s.dtls.downward.que)
    (hconnecting : s'.dtls.state = .connecting → .started ∈ s'.log)
    (hconnected : s'.dtls.state = .connected → Told s.log)
    (hdelivering : ∀ hello flag, s'.control = .delivering hello flag → Told s.log)
    (hstarting : ∀ data, s'.control = .starting data →
      (written s.log ++ [data]).Sublist (arrived s.log)) : s'.Supplied := by
  have hsame : written s'.log = written s.log := by
    rw [hlog, written_append, hnone, List.append_nil]
  have htold : Told s'.log ↔ Told s.log := by simp [hlog, told_append, huntold]
  have hstarted : .started ∈ s.log → .started ∈ s'.log := by
    rw [hlog]
    exact List.mem_append_left _
  refine ⟨hlog ▸ h.delivers.append hnone, ?_, ?_, ?_, hconnecting, ?_, ?_, ?_⟩
  · exact hsame ▸ hque.trans h.queued
  · rw [htold, hsame]
    exact h.found
  · exact fun ht => hstarted (h.told (htold.mp ht))
  · exact fun hs => htold.mpr (hconnected hs)
  · exact fun hello flag hc => htold.mpr (hdelivering hello flag hc)
  · intro data hc
    rw [hsame, hlog, arrived_append]
    exact (hstarting data hc).trans (List.sublist_append_left ..)

/-- A datagram of its own, newest in the log, may be written. -/
theorem Supplied.dispatched (h : s.Supplied) {data : Bytes}
    (hlast : (written s.log ++ [data]).Sublist (arrived s.log)) (hd : Dispatched s data s') :
    s'.Supplied := by
  cases hd with
  | dropped =>
      exact {
        delivers := h.delivers
        queued := h.queued
        found := h.found
        told := h.told
        connecting := h.connecting
        connected := h.connected
        delivering := fun _ _ hc => by cases hc
        starting := fun _ hc => by cases hc }
  | @delivered hello flag downward hstate hrecords hwrite =>
      have hstarted : .started ∈ s.log := by
        rcases hstate with ⟨-, hstate, -⟩ | ⟨-, hstate⟩
        · exact h.connecting hstate
        · exact h.told (h.connected hstate)
      have htold : Told (s.log ++ [.delivered data flag]) :=
        ⟨data, flag, List.mem_append_right _ (List.mem_singleton_self _)⟩
      have hmem : .started ∈ s.log ++ [.delivered data flag] := List.mem_append_left _ hstarted
      unfold DtlsStreamInterface.writeBack at hwrite
      split at hwrite
      · next hfull =>
          -- a full queue holds what was written before
          obtain ⟨rfl, rfl⟩ := Prod.mk.inj hwrite
          have hsome : written s.log ≠ [] := by
            rintro hnil
            have hempty := h.queued
            rw [hnil, List.suffix_nil] at hempty
            rw [hempty] at hfull
            cases hfull
          have hsame : written (s.log ++ [.delivered data false]) = written s.log := by
            rw [written_append]
            exact List.append_nil _
          exact {
            delivers := h.delivers.append rfl
            queued := hsame ▸ h.queued
            found := fun _ => hsame ▸ hsome
            told := fun _ => hmem
            connecting := fun _ => hmem
            connected := fun _ => htold
            delivering := fun _ _ _ => htold
            starting := fun _ hc => by cases hc }
      · obtain ⟨rfl, rfl⟩ := Prod.mk.inj hwrite
        have hwritten : written (s.log ++ [.delivered data true]) = written s.log ++ [data] :=
          written_append ..
        have hhello : written s.log = [] → IsClientHello data := by
          intro hnil
          rcases hstate with ⟨-, -, hhello⟩ | ⟨-, hstate⟩
          · exact isClientHello_of_packet hhello
          · exact absurd hnil (h.found (h.connected hstate))
        obtain ⟨gone, hgone⟩ := h.queued
        exact {
          delivers := h.delivers.write ((recordsLoop_iff (Nat.le_refl _)).mp hrecords) hhello hstarted hlast
          queued := ⟨gone, by rw [hwritten, ← hgone, List.append_assoc]⟩
          found := fun _ => by simp [hwritten]
          told := fun _ => hmem
          connecting := fun _ => hmem
          connected := fun _ => htold
          delivering := fun _ _ _ => htold
          starting := fun _ hc => by cases hc }

/-! ## Steps and runs -/

theorem marks_set (a : AdapterAct) : ∀ m ∈ a.marks, ∃ state, m = .set state ∧
    state ≠ .connecting ∧ (state = .connected →
      ∃ seClose seRead error reads, a = .signal true seClose seRead error reads) := by
  cases a with
  | signal seOpen seClose seRead error reads =>
      intro m hm
      simp only [AdapterAct.marks, List.mem_append] at hm
      rcases hm with (hm | hm) | hm
      · cases seOpen with
        | true => exact ⟨_, List.mem_singleton.mp hm, by simp, fun _ => ⟨_, _, _, _, rfl⟩⟩
        | false => cases hm
      · cases seClose with
        | true =>
            refine ⟨_, List.mem_singleton.mp hm, ?_, ?_⟩ <;>
              by_cases herr : error = 0 <;> simp [herr]
        | false => cases hm
      · cases seRead with
        | true =>
            rcases mem_readMarks hm with rfl | rfl <;> exact ⟨_, rfl, by simp, by simp⟩
        | false => cases hm
  | _ => simp [AdapterAct.marks]

theorem act_que (d : RtcDtls) (a : AdapterAct) :
    (d.act a).1.downward.que <:+ d.downward.que := by
  cases a with
  | read bufferLen =>
      show (d.downward.read bufferLen).1.que <:+ d.downward.que
      rcases d.downward.read_cases bufferLen with ⟨ret, hread, -⟩ | ⟨packet, que, -, hque, hread⟩
      · rw [hread]
      · rw [hread, hque]
        exact List.suffix_cons ..
  | close => exact List.nil_suffix
  | signal seOpen seClose seRead error reads =>
      have hsame := d.slotDtlsEvent_downward seOpen seClose seRead error reads
      show (d.slotDtlsEvent seOpen seClose seRead error reads).downward.que <:+ _
      rw [hsame]
  | _ => exact List.suffix_refl _

/-- A datagram arrives, the newest one. -/
theorem Supplied.arrive (h : s.Supplied) (hc : s.control = .idle) (data : Bytes) :
    (s.note [.arrived data]).Supplied ∧
      (written (s.log ++ [.arrived data]) ++ [data]).Sublist
        (arrived (s.log ++ [.arrived data])) := by
  constructor
  · refine h.note _ rfl (by simp [Told]) rfl (List.suffix_refl _) ?_ h.connected ?_ ?_
    · exact fun hs => List.mem_append_left _ (h.connecting hs)
    · exact fun hello flag hd => absurd (hc.symm.trans hd) (by simp)
    · exact fun data' hd => absurd (hc.symm.trans hd) (by simp)
  · have hnone : written (s.log ++ [.arrived data]) = written s.log := by
      rw [written_append]
      exact List.append_nil _
    rw [hnone, arrived_append]
    exact h.delivers.inOrder.append (List.Sublist.refl _)

/-- An act of the adapter may only take from the queue, and lets the handler
deliver only if it raises `SE_OPEN`. -/
theorem Supplied.act (h : s.Supplied) (a : AdapterAct) (hopen : s.OpensAfterDelivery (.adapter a)) :
    ({ s.note a.marks with dtls := (s.dtls.act a).1 } : DtlsRun).Supplied := by
  have hset := marks_set a
  have hnone : written a.marks = [] := by
    refine List.filterMap_eq_nil_iff.mpr fun m hm => ?_
    obtain ⟨state, rfl, -⟩ := hset m hm
    rfl
  have huntold : ¬ Told a.marks := by
    rintro ⟨data, flag, hm⟩
    obtain ⟨state, hstate, -⟩ := hset _ hm
    cases hstate
  have hstate := act_state s.dtls a
  refine h.note _ hnone huntold rfl (act_que s.dtls a) ?_ ?_ h.delivering h.starting
  · intro hs
    rcases stateAfter_mem s.dtls.state a.marks with hold | hnew
    · exact List.mem_append_left _ (h.connecting (hold ▸ hstate ▸ hs))
    · obtain ⟨state, heq, hno, -⟩ := hset _ hnew
      obtain rfl := DtlsMark.set.inj heq
      exact absurd (hstate ▸ hs) hno
  · intro hs
    rcases stateAfter_mem s.dtls.state a.marks with hold | hnew
    · exact h.connected (hold ▸ hstate ▸ hs)
    · obtain ⟨state, heq, -, hsignal⟩ := hset _ hnew
      obtain rfl := DtlsMark.set.inj heq
      obtain ⟨seClose, seRead, error, reads, rfl⟩ := hsignal (hstate ▸ hs)
      exact hopen rfl

/-- **One step of the handler or of the adapter.** -/
theorem Supplied.step (h : s.Supplied) (hopen : s.OpensAfterDelivery e)
    (hstep : s.next e = some s') : s'.Supplied := by
  cases next_stepped hstep with
  | @starts data hc hnew =>
      obtain ⟨hs, hlast⟩ := h.arrive hc data
      refine hs.note [] rfl (by simp [Told]) (List.append_nil _).symm
        (List.suffix_refl _) hs.connecting hs.connected ?_ ?_
      · exact fun _ _ hd => by cases hd
      · rintro data' ⟨⟩
        exact hlast
  | @handled data _ hc hnew hd =>
      obtain ⟨hs, hlast⟩ := h.arrive hc data
      exact hs.dispatched hlast hd
  | @started data _ hc hd =>
      have hs : ((s.note [.started]).setState .connecting).Supplied :=
        h.note [.started, .set .connecting] rfl (by simp [Told])
          (List.append_assoc ..) (List.suffix_refl _)
          (fun _ => List.mem_append_left _ (List.mem_append_right _ (List.mem_singleton_self _)))
          (fun hs => by cases hs) h.delivering h.starting
      exact hs.dispatched (hs.starting data hc) hd
  | @failed data _ hc hd => exact h.dispatched (h.starting data hc) hd
  | accepted hc =>
      refine h.note [.set .connected] rfl (by simp [Told]) rfl (List.suffix_refl _)
        (fun hs => by cases hs) (fun _ => h.delivering true true hc) ?_ ?_
      · exact fun _ _ hd => by cases hd
      · exact fun _ hd => by cases hd
  | returned hc hno =>
      refine h.note [] rfl (by simp [Told]) (List.append_nil _).symm
        (List.suffix_refl _) h.connecting h.connected ?_ ?_
      · exact fun _ _ hd => by cases hd
      · exact fun _ hd => by cases hd
  | acted a => exact h.act a hopen
  | stopped =>
      exact h.note [] rfl (by simp [Told]) (List.append_nil _).symm
        (List.suffix_refl _) h.connecting h.connected h.delivering h.starting

/-- **What the adapter reads**: over datagrams and acts of the adapter in any
order and nesting, the queue takes complete records only, a ClientHello first,
nothing before `StartSSL` has returned 0, and everything in the order it came. -/
theorem delivers_of_opensAfterDelivery {tr : List (DtlsRun × DtlsEvent)}
    (run : Lts.Run system tr s) (hopen : Lts.Guarded OpensAfterDelivery tr) :
    Delivers s.log ∧ s.dtls.downward.que <:+ written s.log := by
  have hs : s.Supplied := by
    refine run.of_guarded ?_ (fun s e s' hs hopen hstep => hs.step hopen hstep) hopen
    rintro s ⟨d, rfl, hnew, hdown⟩
    exact {
      delivers := .nil
      queued := by simp [hdown]
      found := by simp [Told]
      told := by simp [Told]
      connecting := by simp [hnew]
      connected := by simp [hnew]
      delivering := by simp
      starting := by simp }
  exact ⟨hs.delivers, hs.queued⟩

theorem delivers_of_opensAfterDelivery_hello :
    ∃ tr s, Lts.Run system tr s ∧ tr.map (·.2) =
        [.arrives helloBytes, .deliveryReturns, .adapter (.signal true false false 0 []),
          .adapter (.read 2048), .startReturns true, .arrives helloBytes] ∧
      written s.log = [helloBytes, helloBytes] ∧
      Delivers s.log ∧ s.dtls.downward.que <:+ written s.log := by
  have run := unused_run.snoc (show unused.next (.arrives helloBytes) = some _ from rfl)
  have run := run.snoc (show next _ (.startReturns true) = some _ from rfl)
  have run := run.snoc (show next _ (.adapter (.read 2048)) = some _ from rfl)
  have run := run.snoc (show next _ (.adapter (.signal true false false 0 [])) = some _ from rfl)
  have run := run.snoc (show next _ .deliveryReturns = some _ from rfl)
  have run := run.snoc (show next _ (.arrives helloBytes) = some _ from rfl)
  refine ⟨_, _, run, rfl, rfl, delivers_of_opensAfterDelivery run ?_⟩
  simp only [Lts.guarded_cons, OpensAfterDelivery, true_and]
  refine ⟨fun _ => ⟨helloBytes, true, ?_⟩, ?_⟩
  · show DtlsMark.delivered helloBytes true ∈ [DtlsMark.arrived helloBytes, .started,
      .set .connecting, .delivered helloBytes true]
    simp
  · simp [Lts.Guarded]

end DtlsRun

end JuanSfu
