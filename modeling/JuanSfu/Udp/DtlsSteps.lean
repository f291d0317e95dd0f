import JuanSfu.Lib.Lts
import JuanSfu.Udp.RtcDtls

/-!
# `RtcDtls` in small steps

`handle_dtls` gives control away twice: to `StartSSL`, and to the adapter that
its `SE_READ` wakes. What the adapter does comes in between, or when no
datagram is being handled. Here the handler is cut at the two calls, each act
of the adapter is a step of its own, and a log keeps what happened in order.
`handleDtls_steps` says that the handler of the model is a run of these steps.
-/

namespace JuanSfu

/-- An entry of the log. -/
inductive DtlsMark where
  | arrived (data : Bytes)
  /-- `StartSSL` has returned 0. -/
  | started
  /-- The adapter is told of a datagram; it is in the queue if the flag is set. -/
  | delivered (data : Bytes) (flag : Bool)
  /-- `_state` is assigned. -/
  | set (state : DtlsTransportState)
deriving DecidableEq

/-- Where `handle_dtls` is, with what it needs to go on. -/
inductive DtlsControl where
  | idle
  | starting (data : Bytes)
  | delivering (hello flag : Bool)
deriving DecidableEq

structure DtlsRun where
  dtls : RtcDtls
  control : DtlsControl := .idle
  log : List DtlsMark := []

inductive DtlsEvent where
  | arrives (data : Bytes)
  | startReturns (ok : Bool)
  | deliveryReturns
  | adapter (a : AdapterAct)
  | destory

/-- What the loop over `Read` assigns. -/
def readMarks : List StreamResult → List DtlsMark
  | .success :: reads => readMarks reads
  | .eos :: _ => [.set .closed]
  | .error :: _ => [.set .failed]
  | .block :: _ => []
  | [] => []

/-- What one act of the adapter makes `slot_dtls_event` assign. -/
def AdapterAct.marks : AdapterAct → List DtlsMark
  | .signal seOpen seClose seRead error reads =>
      (if seOpen then [.set .connected] else []) ++
        (if seClose then [.set (if error = 0 then .closed else .failed)] else []) ++
        (if seRead then readMarks reads else [])
  | _ => []

namespace DtlsRun

def note (s : DtlsRun) (marks : List DtlsMark) : DtlsRun := { s with log := s.log ++ marks }

/-- `_state = state`, in `handle_dtls`. -/
def setState (s : DtlsRun) (state : DtlsTransportState) : DtlsRun :=
  { s with dtls.state := state, log := s.log ++ [.set state] }

/-- `do_handle_dtls_packet` up to the signal, if it gets that far. -/
def deliver (s : DtlsRun) (hello : Bool) (data : Bytes) : DtlsRun :=
  if RtcDtls.recordsLoop data.length data && !s.dtls.downward.isStop then
    let (flag, downward) := s.dtls.downward.writeBack data
    { dtls := { s.dtls with downward }
      control := .delivering hello flag
      log := s.log ++ [.delivered data flag] }
  else { s with control := .idle }

/-- `handle_dtls` behind `StartSSL`. -/
def dispatch (s : DtlsRun) (data : Bytes) : DtlsRun :=
  match s.dtls.state with
  | .connecting =>
      if RtcDtls.isDtlsClientHelloPacket data then s.deliver true data
      else { s with control := .idle }
  | .connected => s.deliver false data
  | _ => { s with control := .idle }

/-- `none` if the event is not due where the handler is. -/
def next (s : DtlsRun) : DtlsEvent → Option DtlsRun
  | .arrives data =>
      if s.control = .idle then
        let s := s.note [.arrived data]
        some (if s.dtls.state = .new then { s with control := .starting data }
          else s.dispatch data)
      else none
  | .startReturns ok =>
      match s.control with
      | .starting data =>
          some ((if ok then (s.note [.started]).setState .connecting else s).dispatch data)
      | _ => none
  | .deliveryReturns =>
      match s.control with
      | .delivering hello flag =>
          let s := { s with control := .idle }
          some (if hello && flag then s.setState .connected else s)
      | _ => none
  | .adapter a => some { s.note a.marks with dtls := (s.dtls.act a).1 }
  | .destory => some { s with dtls := s.dtls.destory }

/-- From a new connection on, in every order. -/
def system : Lts.System DtlsRun DtlsEvent where
  init s := ∃ d : RtcDtls, s = { dtls := d } ∧ d.state = .new ∧ d.downward = {}
  step s e s' := s.next e = some s'

/-- The events one after the other. -/
def steps (s : DtlsRun) (es : List DtlsEvent) : Option DtlsRun := es.foldlM next s

/-- What is computed step by step is a run. -/
theorem run_steps {s s' : DtlsRun} (es : List DtlsEvent) {tr : List (DtlsRun × DtlsEvent)}
    (r : Lts.Run system tr s) (h : s.steps es = some s') :
    ∃ tr', Lts.Run system tr' s' ∧ tr'.map (·.2) = es.reverse ++ tr.map (·.2) := by
  induction es generalizing s tr with
  | nil =>
      cases h
      exact ⟨tr, r, rfl⟩
  | cons e es ih =>
      rw [steps, List.foldlM_cons] at h
      obtain ⟨s₁, hstep, hrest⟩ := Option.bind_eq_some_iff.mp h
      obtain ⟨tr', r', htr⟩ := ih (r.snoc hstep) hrest
      exact ⟨tr', r', by simp [htr]⟩

/-! ## The handler as steps -/

theorem steps_append (s : DtlsRun) (es es' : List DtlsEvent) :
    s.steps (es ++ es') = (s.steps es).bind (·.steps es') := List.foldlM_append ..

theorem steps_cons {s s' : DtlsRun} {e : DtlsEvent} (h : s.next e = some s')
    (es : List DtlsEvent) : s.steps (e :: es) = s'.steps es := by
  rw [steps, List.foldlM_cons, h]
  rfl

/-- What the adapter does, act by act. -/
theorem steps_runActs (s : DtlsRun) (acts : List AdapterAct) :
    s.steps (acts.map .adapter) =
      some { s.note (acts.flatMap AdapterAct.marks) with dtls := (s.dtls.runActs acts).1 } := by
  induction acts generalizing s with
  | nil => simp [steps, note, RtcDtls.runActs]
  | cons a acts ih =>
      rw [List.map_cons, steps_cons (rfl : s.next (.adapter a) = some _), ih]
      simp [note, RtcDtls.runActs]

end DtlsRun

namespace RtcDtls

/-- The handler behind `StartSSL`. -/
def afterStart (d : RtcDtls) (data : Bytes) (acts : List AdapterAct) : RtcDtls × List Bytes :=
  match d.state with
  | .connecting =>
      if isDtlsClientHelloPacket data then
        let (flag, d, sent) := d.doHandleDtlsPacket data acts
        (if flag then { d with state := .connected } else d, sent)
      else (d, [])
  | .connected =>
      let (_, d, sent) := d.doHandleDtlsPacket data acts
      (d, sent)
  | _ => (d, [])

/-- The handler up to the return of `StartSSL`. -/
def startIfNew (d : RtcDtls) (adapter : Adapter) : RtcDtls :=
  if d.state = .new then
    if adapter.startSsl then { (d.runActs adapter.startActs).1 with state := .connecting }
    else (d.runActs adapter.startActs).1
  else d

theorem handleDtls_eq (d : RtcDtls) (data : Bytes) (adapter : Adapter) :
    (d.handleDtls data adapter).1 =
      ((d.startIfNew adapter).afterStart data adapter.acts).1 := by
  have hrest : ∀ (d₁ : RtcDtls) (started : List Bytes), (match d₁.state with
      | .connecting =>
          if isDtlsClientHelloPacket data then
            let (flag, d, sent) := d₁.doHandleDtlsPacket data adapter.acts
            (if flag then { d with state := .connected } else d, started ++ sent)
          else (d₁, started)
      | .connected =>
          let (_, d, sent) := d₁.doHandleDtlsPacket data adapter.acts
          (d, started ++ sent)
      | _ => (d₁, started)).1 = (d₁.afterStart data adapter.acts).1 := by
    intro d₁ started
    unfold afterStart
    cases d₁.state with
    | connecting =>
        dsimp only
        split <;> rfl
    | _ => rfl
  by_cases h : d.state = .new
  · rw [handleDtls, startIfNew, if_pos h, if_pos h]
    exact hrest _ _
  · rw [handleDtls, startIfNew, if_neg h, if_neg h]
    exact hrest _ _

end RtcDtls

namespace DtlsRun

/-- The handling of a packet, once the state lets it through. -/
theorem deliver_steps (s : DtlsRun) (hello : Bool) (data : Bytes) (acts : List AdapterAct) :
    ∃ es s', (s.deliver hello data).steps es = some s' ∧ s'.control = .idle ∧
      s'.dtls =
        let (flag, d, _) := s.dtls.doHandleDtlsPacket data acts
        if hello && flag then { d with state := .connected } else d := by
  by_cases hrec : RtcDtls.recordsLoop data.length data = true
  · by_cases hstop : s.dtls.downward.isStop = true
    · refine ⟨[], s.deliver hello data, rfl, ?_, ?_⟩ <;>
        simp [deliver, RtcDtls.doHandleDtlsPacket, RtcDtls.onPacketReceive, hrec, hstop]
    · refine ⟨acts.map .adapter ++ [.deliveryReturns], ?_⟩
      rw [steps_append, steps_runActs, Option.bind_some]
      simp only [deliver, RtcDtls.doHandleDtlsPacket, RtcDtls.onPacketReceive, hrec, hstop, note]
      refine ⟨_, steps_cons rfl [], ?_, ?_⟩ <;>
        cases hello <;> cases (s.dtls.downward.writeBack data).1 <;> rfl
  · refine ⟨[], s.deliver hello data, rfl, ?_, ?_⟩ <;>
      simp [deliver, RtcDtls.doHandleDtlsPacket, hrec]

theorem dispatch_steps (s : DtlsRun) (data : Bytes) (acts : List AdapterAct) :
    ∃ es s', (s.dispatch data).steps es = some s' ∧ s'.control = .idle ∧
      s'.dtls = (s.dtls.afterStart data acts).1 := by
  unfold dispatch RtcDtls.afterStart
  cases s.dtls.state with
  | connecting =>
      dsimp only
      split
      · simpa using s.deliver_steps true data acts
      · exact ⟨[], _, rfl, rfl, rfl⟩
  | connected => simpa using s.deliver_steps false data acts
  | _ => exact ⟨[], _, rfl, rfl, rfl⟩

/-- **The handler is a run of the steps**, from its call to its return. -/
theorem handleDtls_steps {s : DtlsRun} (h : s.control = .idle) (data : Bytes)
    (adapter : Adapter) : ∃ es s', s.steps (.arrives data :: es) = some s' ∧
      s'.control = .idle ∧ s'.dtls = (s.dtls.handleDtls data adapter).1 := by
  rw [RtcDtls.handleDtls_eq, RtcDtls.startIfNew]
  by_cases hnew : s.dtls.state = .new
  · rw [if_pos hnew]
    have harrives : s.next (.arrives data) =
        some { s.note [.arrived data] with control := .starting data } := by
      simp [next, h, note, hnew]
    -- the adapter acts inside `StartSSL`, and then the handler goes on
    let s₁ : DtlsRun :=
      { dtls := (s.dtls.runActs adapter.startActs).1
        control := .starting data
        log := s.log ++ [.arrived data] ++ adapter.startActs.flatMap AdapterAct.marks }
    have hacts : ({ s.note [.arrived data] with control := .starting data } : DtlsRun).steps
        (adapter.startActs.map .adapter) = some s₁ := steps_runActs ..
    let s₂ : DtlsRun :=
      if adapter.startSsl then (s₁.note [.started]).setState .connecting else s₁
    have hreturns : s₁.next (.startReturns adapter.startSsl) = some (s₂.dispatch data) := rfl
    have hdtls : s₂.dtls = if adapter.startSsl
        then { (s.dtls.runActs adapter.startActs).1 with state := .connecting }
        else (s.dtls.runActs adapter.startActs).1 := by
      cases h : adapter.startSsl <;> simp [s₂, s₁, h, note, setState]
    obtain ⟨es, s', hs, hidle, hd⟩ := s₂.dispatch_steps data adapter.acts
    refine ⟨adapter.startActs.map .adapter ++ .startReturns adapter.startSsl :: es, s', ?_,
      hidle, hdtls ▸ hd⟩
    rw [steps_cons harrives, steps_append, hacts, Option.bind_some, steps_cons hreturns, hs]
  · rw [if_neg hnew]
    have harrives : s.next (.arrives data) = some ((s.note [.arrived data]).dispatch data) := by
      simp [next, h, note, hnew]
    obtain ⟨es, s', hs, hidle, hd⟩ := (s.note [.arrived data]).dispatch_steps data adapter.acts
    exact ⟨es, s', (steps_cons harrives es).trans hs, hidle, hd⟩

/-! ## What one step does -/

/-- The last state that the log assigns, or the one there was. -/
def stateAfter (state : DtlsTransportState) (log : List DtlsMark) : DtlsTransportState :=
  log.foldl (fun state m => match m with
    | .set state' => state'
    | _ => state) state

theorem stateAfter_append (state : DtlsTransportState) (log marks : List DtlsMark) :
    stateAfter state (log ++ marks) = stateAfter (stateAfter state log) marks :=
  List.foldl_append

theorem stateAfter_mem (state : DtlsTransportState) (log : List DtlsMark) :
    stateAfter state log = state ∨ .set (stateAfter state log) ∈ log := by
  induction log using List.reverseRecOn with
  | nil => exact Or.inl rfl
  | append_singleton log m ih =>
      rw [stateAfter_append]
      cases m with
      | set state' => exact Or.inr (List.mem_append_right _ (List.mem_singleton_self _))
      | _ => exact ih.imp id (List.mem_append_left _)

theorem mem_readMarks {reads : List StreamResult} {m : DtlsMark} (hm : m ∈ readMarks reads) :
    m = .set .closed ∨ m = .set .failed := by
  fun_induction readMarks reads with
  | case1 reads ih => exact ih hm
  | case2 => exact Or.inl (List.mem_singleton.mp hm)
  | case3 => exact Or.inr (List.mem_singleton.mp hm)
  | case4 => cases hm
  | case5 => cases hm

theorem readLoop_state (d : RtcDtls) (reads : List StreamResult) :
    (d.readLoop reads).state = stateAfter d.state (readMarks reads) := by
  fun_induction readMarks reads with
  | case1 reads ih => exact ih
  | _ => rfl

/-- An act assigns what it is logged with. -/
theorem act_state (d : RtcDtls) (a : AdapterAct) :
    (d.act a).1.state = stateAfter d.state a.marks := by
  cases a with
  | signal seOpen seClose seRead error reads =>
      show (d.slotDtlsEvent seOpen seClose seRead error reads).state = _
      unfold RtcDtls.slotDtlsEvent AdapterAct.marks
      cases seOpen <;> cases seClose <;> cases seRead <;>
        simp [readLoop_state] <;> rfl
  | _ => rfl

/-- What becomes of a datagram behind `StartSSL`: a ClientHello is delivered
while connecting, any records once connected. -/
inductive Dispatched (s : DtlsRun) (data : Bytes) : DtlsRun → Prop where
  | dropped : Dispatched s data { s with control := .idle }
  | delivered {hello flag : Bool} {downward : DtlsStreamInterface}
      (hstate : hello = true ∧ s.dtls.state = .connecting ∧
          RtcDtls.isDtlsClientHelloPacket data = true ∨
        hello = false ∧ s.dtls.state = .connected)
      (hrecords : RtcDtls.recordsLoop data.length data = true)
      (hwrite : s.dtls.downward.writeBack data = (flag, downward)) :
      Dispatched s data
        { dtls := { s.dtls with downward }
          control := .delivering hello flag
          log := s.log ++ [.delivered data flag] }

theorem dispatched (s : DtlsRun) (data : Bytes) : Dispatched s data (s.dispatch data) := by
  have hdeliver : ∀ hello, hello = true ∧ s.dtls.state = .connecting ∧
        RtcDtls.isDtlsClientHelloPacket data = true ∨ hello = false ∧ s.dtls.state = .connected →
      Dispatched s data (s.deliver hello data) := by
    intro hello hstate
    unfold deliver
    split
    · next h =>
        rw [Bool.and_eq_true] at h
        exact .delivered hstate h.1 rfl
    · exact .dropped
  unfold dispatch
  split
  · next hstate =>
      split
      · next hhello => exact hdeliver true (Or.inl ⟨rfl, hstate, hhello⟩)
      · exact .dropped
  · next hstate => exact hdeliver false (Or.inr ⟨rfl, hstate⟩)
  · exact .dropped

/-- **The cases of one step.** -/
inductive Stepped (s : DtlsRun) : DtlsEvent → DtlsRun → Prop where
  | starts {data : Bytes} (hc : s.control = .idle) (hnew : s.dtls.state = .new) :
      Stepped s (.arrives data) { s.note [.arrived data] with control := .starting data }
  | handled {data : Bytes} {s' : DtlsRun} (hc : s.control = .idle)
      (hnew : s.dtls.state ≠ .new) (h : Dispatched (s.note [.arrived data]) data s') :
      Stepped s (.arrives data) s'
  | started {data : Bytes} {s' : DtlsRun} (hc : s.control = .starting data)
      (h : Dispatched ((s.note [.started]).setState .connecting) data s') :
      Stepped s (.startReturns true) s'
  | failed {data : Bytes} {s' : DtlsRun} (hc : s.control = .starting data)
      (h : Dispatched s data s') : Stepped s (.startReturns false) s'
  | accepted (hc : s.control = .delivering true true) :
      Stepped s .deliveryReturns (({ s with control := .idle } : DtlsRun).setState .connected)
  | returned {hello flag : Bool} (hc : s.control = .delivering hello flag)
      (hno : (hello && flag) = false) : Stepped s .deliveryReturns { s with control := .idle }
  | acted (a : AdapterAct) :
      Stepped s (.adapter a) { s.note a.marks with dtls := (s.dtls.act a).1 }
  | stopped : Stepped s .destory { s with dtls := s.dtls.destory }

theorem next_stepped {s s' : DtlsRun} {e : DtlsEvent} (h : s.next e = some s') :
    Stepped s e s' := by
  cases e with
  | arrives data =>
      rw [next] at h
      split at h
      · next hc =>
          dsimp only at h
          split at h
          · next hnew =>
              cases h
              exact .starts hc hnew
          · next hnew =>
              cases h
              exact .handled hc hnew (dispatched _ data)
      · cases h
  | startReturns ok =>
      rw [next] at h
      split at h
      · next data hc =>
          cases h
          cases ok with
          | true => exact .started hc (dispatched _ data)
          | false => exact .failed hc (dispatched _ data)
      · cases h
  | deliveryReturns =>
      rw [next] at h
      split at h
      · next hello flag hc =>
          cases h
          cases hgo : hello && flag with
          | true =>
              obtain ⟨rfl, rfl⟩ := Bool.and_eq_true_iff.mp hgo
              exact .accepted hc
          | false => exact .returned hc hgo
      · cases h
  | adapter a =>
      cases h
      exact .acted a
  | destory =>
      cases h
      exact .stopped

/-- A connection nobody has sent anything to. -/
def unused : DtlsRun := { dtls := { udp := 0, remoteAddr := ⟨1, 2⟩ } }

theorem unused_run : Lts.Run system [] unused := .start ⟨_, rfl, rfl, rfl⟩

/-- A record with the first bytes of a ClientHello. -/
def helloBytes : Bytes := [22, 0xFE, 0xFD] ++ List.replicate 8 0 ++ [0, 5] ++ [1, 0, 0, 0, 0]

end DtlsRun

end JuanSfu
