import JuanSfu.Lib.Lts
import Mathlib.Data.List.Basic
import Mathlib.Data.List.Forall2

/-!
# A client and a server with a queue in each direction

The server takes the messages of one client one by one and puts what it has to
say into the queue back; what it does otherwise (for other clients, for itself)
may come between any two of these steps. The client acts, sends and receives when
it likes. Before the link is up and after it is cut, messages are lost.

Two rules carry the results about such a pair. `reachable_matched`: if the server
answers a message at most once, with what `ans` allows, and says nothing unasked,
then the replies answer messages of the client, one each and in order.
`Run.client`: the client may count on an answer to something it has asked for in
whatever it receives.
-/

namespace Exchange

variable {σ κ Q R α : Type*}

/-- What the two parties can do. -/
structure Parties (σ κ Q R α : Type*) where
  serverInit : σ → Prop
  clientInit : κ → Prop
  /-- The server handles a message, and replies. -/
  serve : σ → Q → σ → List R → Prop
  /-- The server does something else, and says this to the client. -/
  other : σ → σ → List R → Prop
  hangUp : σ → σ → Prop
  act : κ → α → κ → List Q → Prop
  receive : κ → R → κ → Prop

inductive Link where
  | connecting
  | opened
  | closed
deriving DecidableEq

/-- `asked` and `got` record all that has been put into the queue to the server
and all that the client has received. -/
structure State (σ κ Q R : Type*) where
  server : σ
  client : κ
  link : Link
  up : List Q
  down : List R
  asked : List Q
  got : List R

inductive Label (Q R α : Type*) where
  | connect
  | serve (q : Q)
  | other
  | hangUp
  | act (a : α)
  | receive (r : R)

/-- What the client says gets into the queue while the link is up. -/
def State.say (s : State σ κ Q R) (client : κ) (qs : List Q) : State σ κ Q R :=
  match s.link with
  | .opened => { s with client, up := s.up ++ qs, asked := s.asked ++ qs }
  | _ => { s with client }

inductive Step (A : Parties σ κ Q R α) : State σ κ Q R → Label Q R α → State σ κ Q R → Prop where
  | connect {s : State σ κ Q R} (h : s.link = .connecting) :
      Step A s .connect { s with link := .opened }
  | serve {s : State σ κ Q R} {q : Q} {up : List Q} {server : σ} {rs : List R}
      (hup : s.up = q :: up) (h : A.serve s.server q server rs) :
      Step A s (.serve q) { s with server, up, down := s.down ++ rs }
  | other {s : State σ κ Q R} {server : σ} {rs : List R} (h : A.other s.server server rs) :
      Step A s .other { s with server, down := s.down ++ rs }
  | hangUp {s : State σ κ Q R} {server : σ} (h : A.hangUp s.server server) :
      Step A s .hangUp { s with server, link := .closed, up := [], down := [] }
  | act {s : State σ κ Q R} {a : α} {client : κ} {qs : List Q}
      (h : A.act s.client a client qs) : Step A s (.act a) (s.say client qs)
  | receive {s : State σ κ Q R} {r : R} {down : List R} {client : κ}
      (hdown : s.down = r :: down) (h : A.receive s.client r client) :
      Step A s (.receive r) { s with client, down, got := s.got ++ [r] }

/-- The parties at the start, nothing said. -/
structure Starts (A : Parties σ κ Q R α) (s : State σ κ Q R) : Prop where
  server : A.serverInit s.server
  client : A.clientInit s.client
  link : s.link = .connecting
  up : s.up = []
  down : s.down = []
  asked : s.asked = []
  got : s.got = []

def system (A : Parties σ κ Q R α) : Lts.System (State σ κ Q R) (Label Q R α) where
  init := Starts A
  step := Step A

variable {A : Parties σ κ Q R α} {s s' : State σ κ Q R} {ans : Q → R → Prop}

/-! ## The server's part -/

/-- Whatever the server does here, it does as a system of its own. -/
theorem reachable_server {ε : Type*} {S : Lts.System σ ε} (h0 : ∀ s, A.serverInit s → S.init s)
    (hserve : ∀ s q s' rs, A.serve s q s' rs → ∃ e, S.step s e s')
    (hother : ∀ s s' rs, A.other s s' rs → ∃ e, S.step s e s')
    (hhang : ∀ s s', A.hangUp s s' → ∃ e, S.step s e s')
    (r : Lts.Reachable (system A) s) : Lts.Reachable S s.server := by
  refine r.invariant (P := fun s => Lts.Reachable S s.server) ?_ ?_
  · exact fun s h => .start (h0 _ h.server)
  · intro s l s' _ ih hstep
    cases hstep with
    | connect => exact ih
    | serve _ h =>
        obtain ⟨e, he⟩ := hserve _ _ _ _ h
        exact ih.snoc he
    | other h =>
        obtain ⟨e, he⟩ := hother _ _ _ h
        exact ih.snoc he
    | hangUp h =>
        obtain ⟨e, he⟩ := hhang _ _ h
        exact ih.snoc he
    | act =>
        unfold State.say
        split <;> exact ih
    | receive => exact ih

/-! ## Replies and what they answer -/

/-- In the state `s` of the server a message is answered at most
once, with what `ans` allows, and nothing is said unasked. -/
structure Answers (A : Parties σ κ Q R α) (ans : Q → R → Prop) (s : σ) : Prop where
  serve (q : Q) (s' : σ) (rs : List R) (h : A.serve s q s' rs) :
    rs = [] ∨ ∃ r, rs = [r] ∧ ans q r
  other (s' : σ) (rs : List R) (h : A.other s s' rs) : rs = []

/-- **The replies answer messages of the client, one each and in order**; those
still under way to the server come after these. -/
def Matched (ans : Q → R → Prop) (s : State σ κ Q R) : Prop :=
  ∃ answered, (answered ++ s.up).Sublist s.asked ∧
    List.Forall₂ ans answered (s.got ++ s.down)

theorem Matched.say {client : κ} {qs : List Q} (h : Matched ans s) :
    Matched ans (s.say client qs) := by
  obtain ⟨answered, hsub, hall⟩ := h
  unfold State.say
  split
  · refine ⟨answered, ?_, hall⟩
    rw [← List.append_assoc]
    exact hsub.append (List.Sublist.refl qs)
  · exact ⟨answered, hsub, hall⟩

theorem Matched.step (ha : Answers A ans s.server) {l : Label Q R α} (h : Matched ans s)
    (hstep : Step A s l s') : Matched ans s' := by
  cases hstep with
  | connect => exact h
  | @serve q up server rs hup hserve =>
      obtain ⟨answered, hsub, hall⟩ := h
      rw [hup] at hsub
      rcases ha.serve _ _ _ hserve with rfl | ⟨r, rfl, hr⟩
      · refine ⟨answered, ?_, by rwa [List.append_nil]⟩
        exact ((List.Sublist.refl answered).append (List.sublist_cons_self q up)).trans hsub
      · refine ⟨answered ++ [q], ?_, ?_⟩
        · rwa [List.append_assoc, List.singleton_append]
        · rw [← List.append_assoc]
          exact List.rel_append hall (.cons hr .nil)
  | other hother =>
      obtain ⟨answered, hsub, hall⟩ := h
      obtain rfl := ha.other _ _ hother
      exact ⟨answered, hsub, by rwa [List.append_nil]⟩
  | hangUp =>
      obtain ⟨answered, hsub, hall⟩ := h
      refine ⟨answered.take s.got.length, ?_, ?_⟩
      · rw [List.append_nil]
        exact ((List.take_sublist _ _).trans (List.sublist_append_left _ _)).trans hsub
      · have htake := List.forall₂_take s.got.length hall
        rw [List.take_left] at htake
        show List.Forall₂ ans _ (s.got ++ [])
        rwa [List.append_nil]
  | act => exact h.say
  | @receive r down client hdown =>
      obtain ⟨answered, hsub, hall⟩ := h
      refine ⟨answered, hsub, ?_⟩
      rw [hdown] at hall
      rwa [List.append_assoc, List.singleton_append]

theorem reachable_matched
    (ha : ∀ s, Lts.Reachable (system A) s → Answers A ans s.server) (r : Lts.Reachable (system A) s) :
    Matched ans s := by
  refine r.invariant (P := Matched ans) ?_ ?_
  · intro s h
    refine ⟨[], ?_, ?_⟩
    · rw [h.up]
      exact List.nil_sublist _
    · rw [h.got, h.down]
      exact .nil
  · exact fun s l s' hr h hstep => h.step (ha s hr) hstep

theorem Matched.exists_asked (h : Matched ans s) {r : R} (hr : r ∈ s.got ++ s.down) :
    ∃ q ∈ s.asked, ans q r := by
  obtain ⟨answered, hsub, hall⟩ := h
  generalize s.got ++ s.down = rs at hr hall
  obtain ⟨q, hq, hans⟩ : ∃ q ∈ answered, ans q r := by
    clear hsub
    induction hall with
    | nil => cases hr
    | cons hab _ ih =>
        rcases List.mem_cons.mp hr with rfl | hr
        · exact ⟨_, List.mem_cons_self .., hab⟩
        · obtain ⟨q, hq, hans⟩ := ih hr
          exact ⟨q, List.mem_cons_of_mem _ hq, hans⟩
  exact ⟨q, hsub.subset (List.mem_append_left _ hq), hans⟩

/-! ## The client's part -/

/-- The actions of the client meet a guard. -/
def ActsBy (C : κ → α → Prop) (s : State σ κ Q R) (l : Label Q R α) : Prop :=
  ∀ a, l = .act a → C s.client a

/-- **What the client can rely on**: an invariant of its state and of what it has
asked, kept by its actions, whether what it says gets through or not, and by
receiving answers to what it has asked. -/
theorem Run.client {C : κ → α → Prop} {I : κ → List Q → Prop}
    (ha : ∀ s, Lts.Reachable (system A) s → Answers A ans s.server)
    (h0 : ∀ k, A.clientInit k → I k [])
    (hact : ∀ k asked a k' qs, I k asked → C k a → A.act k a k' qs →
      I k' (asked ++ qs) ∧ I k' asked)
    (hreceive : ∀ k asked r k', I k asked → (∃ q ∈ asked, ans q r) → A.receive k r k' →
      I k' asked)
    {tr : List (State σ κ Q R × Label Q R α)} (run : Lts.Run (system A) tr s)
    (hg : Lts.Guarded (ActsBy C) tr) : I s.client s.asked := by
  induction run with
  | start h =>
      rw [h.asked]
      exact h0 _ h.client
  | @snoc tr s s' l run hstep ih =>
      rw [Lts.guarded_cons] at hg
      have hI := ih hg.2
      have hmatched := reachable_matched ha run.reachable
      cases hstep with
      | connect | serve | other | hangUp => exact hI
      | @act a client qs h =>
          obtain ⟨hsaid, hlost⟩ := hact _ _ _ _ _ hI (hg.1 a rfl) h
          unfold State.say
          split
          · exact hsaid
          · exact hlost
      | @receive r down client hdown h =>
          refine hreceive _ _ _ _ hI (hmatched.exists_asked ?_) h
          rw [hdown]
          exact List.mem_append_right _ (List.mem_cons_self ..)

end Exchange
