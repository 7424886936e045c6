import Mathlib.Logic.Function.Basic
import StudyC.Lib.Runs
import StudyC.Relay.Frame

/-!
# The clients of the Viewer

The loop of `tcp_worker` with the connections it serves: any number of peers connect, send, close
and break off at any time, and one of them at a time is the client. Connections are numbered in the
order in which they are made.

* `step_inv`: what was received on a connection and what waits on it are what its peer has sent.
* `served_in_turn`: the screen shows one connection after the other, and all of one that its peer
  has closed.
-/

open CString Runs

namespace StudyC.Viewer.Clients

open Relay (printedBody tcpRecvMax)

/-- The other end of a connection. -/
structure Peer where
  sent : List UInt8
  /-- What `recv` has not returned yet. -/
  unread : List UInt8
  closed : Bool
  reset : Bool

/-- What was printed for one `recv`, and the bytes it had returned. -/
structure Printed where
  conn : Nat
  chunk : List UInt8
  text : List UInt8

inductive Phase where
  | test
  | poll
  /-- The socket was readable, the pipe was not. -/
  | ready
  | ended
  deriving DecidableEq

structure State where
  phase : Phase
  shutdownRequested : Bool
  pipeWritten : Bool
  connected : Nat
  peer : Nat → Peer
  backlog : List Nat
  clientSock : Option Nat
  screen : List Printed
  /-- The connections that were closed because `recv` returned 0. -/
  finished : List Nat

/-- How `poll` returns. -/
inductive PollResult where
  | ok
  | interrupted
  | fail

/-- How `accept` returns. A connection that was given up meanwhile is gone, and one for which there
is no descriptor stays. -/
inductive AcceptResult where
  | ok
  | aborted
  | fail

inductive Action where
  | connect
  | send (c : Nat) (bytes : List UInt8)
  | close (c : Nat)
  | reset (c : Nat)
  /-- Another thread sets `shutdown_requested`. -/
  | requestShutdown
  | writePipe
  | test
  | poll (res : PollResult)
  | accept (res : AcceptResult)
  | recv (stale : Vector UInt8 (tcpRecvMax + 1)) (count : Nat)
  /-- `recv` returns 0. -/
  | recvEnd
  | recvFail

def State.setPeer (s : State) (c : Nat) (p : Peer) : State :=
  { s with peer := Function.update s.peer c p }

def State.readable (s : State) : Bool :=
  match s.clientSock with
  | none => !s.backlog.isEmpty
  | some c => !(s.peer c).unread.isEmpty || (s.peer c).closed || (s.peer c).reset

/-- The connection that `recv` is called on. -/
def State.receiving (s : State) : Option Nat :=
  if s.phase = .ready then s.clientSock else none

def acceptStep (s : State) (b : Nat) (rest : List Nat) : AcceptResult → State
  | .ok => { s with backlog := rest, clientSock := some b, phase := .test }
  | .aborted => { s with backlog := rest, phase := .test }
  | .fail => { s with phase := .test }

def recvStep (s : State) (c : Nat) (stale : Vector UInt8 (tcpRecvMax + 1)) (count : Nat) : State :=
  let chunk := (s.peer c).unread.take count
  { s.setPeer c { s.peer c with unread := (s.peer c).unread.drop count } with
    screen := s.screen ++ [⟨c, chunk, printedBody stale chunk⟩]
    phase := .test }

def step (s : State) : Action → Option State
  | .connect => some { s with connected := s.connected + 1, backlog := s.backlog ++ [s.connected] }
  | .send c bytes =>
    if c < s.connected ∧ (s.peer c).closed = false ∧ (s.peer c).reset = false then
      some (s.setPeer c { s.peer c with
        sent := (s.peer c).sent ++ bytes, unread := (s.peer c).unread ++ bytes })
    else none
  | .close c =>
    if c < s.connected then some (s.setPeer c { s.peer c with closed := true }) else none
  | .reset c => if c < s.connected then some (s.setPeer c { s.peer c with reset := true }) else none
  | .requestShutdown => some { s with shutdownRequested := true }
  | .writePipe => some { s with pipeWritten := true }
  | .test =>
    if s.phase = .test then some { s with phase := if s.shutdownRequested then .ended else .poll }
    else none
  | .poll res =>
    if s.phase = .poll then
      match res with
      | .interrupted => some { s with phase := .test }
      | .fail => some { s with phase := .ended }
      | .ok =>
        if s.pipeWritten then some { s with phase := .ended }
        else if s.readable then some { s with phase := .ready }
        else none
    else none
  | .accept res => match s.phase, s.clientSock, s.backlog with
    | .ready, none, b :: rest => some (acceptStep s b rest res)
    | _, _, _ => none
  | .recv stale count => s.receiving.bind fun c =>
    if 1 ≤ count ∧ count ≤ tcpRecvMax ∧ count ≤ (s.peer c).unread.length then
      some (recvStep s c stale count)
    else none
  | .recvEnd => s.receiving.bind fun c =>
    if (s.peer c).unread = [] ∧ (s.peer c).closed = true then
      some { s with clientSock := none, finished := s.finished ++ [c], phase := .test }
    else none
  | .recvFail => s.receiving.map fun _ => { s with clientSock := none, phase := .test }

def init : State where
  phase := .test
  shutdownRequested := false
  pipeWritten := false
  connected := 0
  peer := fun _ => ⟨[], [], false, false⟩
  backlog := []
  clientSock := none
  screen := []
  finished := []

/-- The text that the screen shows for a connection. -/
def State.shown (s : State) (c : Nat) : List UInt8 :=
  (s.screen.filter fun e => e.conn = c).flatMap Printed.text

/-! ## The invariant -/

def State.received (s : State) (c : Nat) : List UInt8 :=
  (s.screen.filter fun e => e.conn = c).flatMap Printed.chunk

/-- Whose turn it was, is, and will be. -/
def State.turns (s : State) : List Nat :=
  s.screen.map Printed.conn ++ s.clientSock.toList ++ s.backlog

structure Inv (s : State) : Prop where
  order : s.turns.Pairwise (· ≤ ·)
  known : ∀ c ∈ s.turns, c < s.connected
  stream : ∀ c, s.received c ++ (s.peer c).unread = (s.peer c).sent
  printed : ∀ e ∈ s.screen, e.text = cstr e.chunk
  finished : ∀ c ∈ s.finished, (s.peer c).closed = true ∧ (s.peer c).unread = []

theorem Inv.fewer {s s' : State} (h : Inv s) (hturns : s'.turns.Sublist s.turns)
    (hconnected : s'.connected = s.connected) (hpeer : s'.peer = s.peer)
    (hscreen : s'.screen = s.screen)
    (hfinished : ∀ c ∈ s'.finished, (s.peer c).closed = true ∧ (s.peer c).unread = []) :
    Inv s' where
  order := h.order.sublist hturns
  known := fun c hc => hconnected ▸ h.known c (hturns.subset hc)
  stream := fun c => by
    rw [State.received, hscreen, hpeer]
    exact h.stream c
  printed := hscreen ▸ h.printed
  finished := hpeer ▸ hfinished

theorem Inv.setPeer {s : State} (h : Inv s) {c : Nat} {p : Peer}
    (hstream : s.received c ++ p.unread = p.sent)
    (hfinished : c ∈ s.finished → p.closed = true ∧ p.unread = []) : Inv (s.setPeer c p) := by
  -- the peer of a connection does something, and nothing of what it has sent is read
  refine ⟨h.order, h.known, ?_, h.printed, ?_⟩
  · intro c'
    simp only [State.setPeer, Function.update_apply]
    split
    · rename_i hc
      rw [hc]
      exact hstream
    · exact h.stream c'
  · intro c' hc'
    simp only [State.setPeer, Function.update_apply]
    split
    · rename_i hc
      exact hfinished (hc ▸ hc')
    · exact h.finished c' hc'

theorem receiving_eq {s : State} {c : Nat} (h : s.receiving = some c) : s.clientSock = some c := by
  simp only [State.receiving, Option.ite_none_right_eq_some] at h
  exact h.2

theorem recv_inv {s : State} (h : Inv s) {c : Nat} (hclient : s.clientSock = some c)
    (stale : Vector UInt8 (tcpRecvMax + 1)) {count : Nat} (hcount : count ≤ tcpRecvMax)
    (hpos : 1 ≤ count) (hlen : count ≤ (s.peer c).unread.length) :
    Inv (recvStep s c stale count) := by
  have hturns : s.turns = s.screen.map Printed.conn ++ c :: s.backlog := by
    simp [State.turns, hclient]
  refine ⟨?_, ?_, ?_, ?_, ?_⟩
  · -- one more turn of the client, who has one already
    have horder := h.order
    rw [hturns, List.pairwise_append] at horder
    obtain ⟨hbefore, hafter, hbetween⟩ := horder
    have hnew : (recvStep s c stale count).turns = s.screen.map Printed.conn ++
        c :: c :: s.backlog := by
      simp [State.turns, recvStep, State.setPeer, hclient]
    rw [hnew, List.pairwise_append]
    refine ⟨hbefore, ?_, ?_⟩
    · refine List.pairwise_cons.mpr ⟨?_, hafter⟩
      intro b hb
      rcases List.mem_cons.mp hb with rfl | hb
      · exact le_rfl
      · exact (List.pairwise_cons.mp hafter).1 b hb
    · intro a ha b hb
      rcases List.mem_cons.mp hb with rfl | hb
      · exact hbetween a ha b List.mem_cons_self
      · exact hbetween a ha b hb
  · intro a ha
    refine h.known a ?_
    rw [hturns]
    simpa [State.turns, recvStep, State.setPeer, hclient] using ha
  · intro a
    by_cases hac : a = c
    · subst hac
      have hstream := h.stream a
      simp only [recvStep, State.setPeer, State.received, Function.update_self, List.filter_append,
        List.flatMap_append] at hstream ⊢
      simpa using hstream
    · have hstream := h.stream a
      have hca : ¬ c = a := fun hc => hac hc.symm
      simpa [recvStep, State.setPeer, State.received, Function.update_of_ne hac,
        List.filter_append, hca]
        using hstream
  · intro e he
    rcases List.mem_append.mp he with he | he
    · exact h.printed e he
    · obtain rfl := List.mem_singleton.mp he
      have hlen' : ((s.peer c).unread.take count).length ≤ tcpRecvMax :=
        Nat.le_trans (List.length_take_le _ _) hcount
      simp only [printedBody, cstr_recvString, List.take_of_length_le hlen']
  · -- a finished connection has nothing to read
    intro a ha
    have hfin := h.finished a ha
    have hac : a ≠ c := by
      rintro rfl
      rw [hfin.2] at hlen
      exact absurd (Nat.le_trans hpos hlen) (by simp)
    simpa [recvStep, State.setPeer, Function.update_of_ne hac] using hfin

theorem connect_inv {s s' : State} (h : Inv s) (hs : step s .connect = some s') : Inv s' := by
  obtain rfl := Option.some.inj hs
  have hnew : ({ s with
      connected := s.connected + 1, backlog := s.backlog ++ [s.connected] } : State).turns =
      s.turns ++ [s.connected] := by
    simp [State.turns]
  refine ⟨?_, ?_, h.stream, h.printed, h.finished⟩
  · rw [hnew, List.pairwise_append]
    refine ⟨h.order, List.pairwise_singleton _ _, ?_⟩
    intro c hc b hb
    rw [List.mem_singleton.mp hb]
    exact Nat.le_of_lt (h.known c hc)
  · intro c hc
    rw [hnew] at hc
    rcases List.mem_append.mp hc with hc | hc
    · exact Nat.lt_succ_of_lt (h.known c hc)
    · rw [List.mem_singleton.mp hc]
      exact Nat.lt_succ_self _

theorem send_inv {s s' : State} {c : Nat} {bytes : List UInt8} (h : Inv s)
    (hs : step s (.send c bytes) = some s') : Inv s' := by
  simp only [step, Option.ite_none_right_eq_some, Option.some.injEq] at hs
  obtain ⟨⟨-, hopen, -⟩, rfl⟩ := hs
  refine h.setPeer ?_ ?_
  · rw [← List.append_assoc, h.stream c]
  · intro hc
    rw [(h.finished c hc).1] at hopen
    cases hopen

theorem poll_inv {s s' : State} {res : PollResult} (h : Inv s) (hs : step s (.poll res) = some s') :
    Inv s' := by
  simp only [step] at hs
  repeat' split at hs
  all_goals first
    | (simp at hs; done)
    | (obtain rfl := Option.some.inj hs; exact ⟨h.order, h.known, h.stream, h.printed, h.finished⟩)

theorem accept_inv {s s' : State} {res : AcceptResult} (h : Inv s)
    (hs : step s (.accept res) = some s') : Inv s' := by
  simp only [step] at hs
  split at hs
  · rename_i b rest hphase hclient hbacklog
    obtain rfl := Option.some.inj hs
    have hturns : s.turns = s.screen.map Printed.conn ++ b :: rest := by
      simp [State.turns, hclient, hbacklog]
    cases res with
    | ok =>
      refine h.fewer ?_ rfl rfl rfl h.finished
      rw [hturns]
      simp [State.turns, acceptStep]
    | aborted =>
      refine h.fewer ?_ rfl rfl rfl h.finished
      rw [hturns]
      simp [State.turns, acceptStep, hclient]
    | fail => exact ⟨h.order, h.known, h.stream, h.printed, h.finished⟩
  · simp at hs

theorem recvEnd_inv {s s' : State} (h : Inv s) (hs : step s .recvEnd = some s') : Inv s' := by
  obtain ⟨c, hc, hs⟩ := Option.bind_eq_some_iff.mp hs
  simp only [Option.ite_none_right_eq_some, Option.some.injEq] at hs
  obtain ⟨⟨hunread, hclosed⟩, rfl⟩ := hs
  refine h.fewer ?_ rfl rfl rfl ?_
  · simp [State.turns, receiving_eq hc]
  · intro c' hc'
    rcases List.mem_append.mp hc' with hc' | hc'
    · exact h.finished c' hc'
    · rw [List.mem_singleton.mp hc']
      exact ⟨hclosed, hunread⟩

theorem step_inv (s : State) (a : Action) (s' : State) (h : Inv s) (hs : step s a = some s') :
    Inv s' := by
  cases a with
  | connect => exact connect_inv h hs
  | send c bytes => exact send_inv h hs
  | close c =>
    simp only [step, Option.ite_none_right_eq_some, Option.some.injEq] at hs
    obtain ⟨-, rfl⟩ := hs
    exact h.setPeer (h.stream c) fun hc => ⟨rfl, (h.finished c hc).2⟩
  | reset c =>
    simp only [step, Option.ite_none_right_eq_some, Option.some.injEq] at hs
    obtain ⟨-, rfl⟩ := hs
    exact h.setPeer (h.stream c) (h.finished c)
  | requestShutdown | writePipe =>
    obtain rfl := Option.some.inj hs
    exact ⟨h.order, h.known, h.stream, h.printed, h.finished⟩
  | test =>
    simp only [step, Option.ite_none_right_eq_some, Option.some.injEq] at hs
    obtain ⟨-, rfl⟩ := hs
    exact ⟨h.order, h.known, h.stream, h.printed, h.finished⟩
  | poll res => exact poll_inv h hs
  | accept res => exact accept_inv h hs
  | recv stale count =>
    obtain ⟨c, hc, hs⟩ := Option.bind_eq_some_iff.mp hs
    simp only [Option.ite_none_right_eq_some, Option.some.injEq] at hs
    obtain ⟨⟨hpos, hmax, hlen⟩, rfl⟩ := hs
    exact recv_inv h (receiving_eq hc) stale hmax hpos hlen
  | recvEnd => exact recvEnd_inv h hs
  | recvFail =>
    obtain ⟨c, hc, rfl⟩ := Option.map_eq_some_iff.mp hs
    refine h.fewer ?_ rfl rfl rfl h.finished
    simp [State.turns, receiving_eq hc]

theorem init_inv : Inv init :=
  ⟨by simp [init, State.turns], by simp [init, State.turns], by simp [init,
    State.received], by simp [init], by simp [init]⟩

theorem shown_eq {s : State} (h : Inv s) {c : Nat} (hnul : ∀ b ∈ (s.peer c).sent, b ≠ 0) :
    s.shown c = s.received c := by
  have hsub : ∀ b ∈ s.received c, b ≠ 0 := by
    intro b hb
    refine hnul b ?_
    rw [← h.stream c]
    exact List.mem_append_left _ hb
  rw [State.shown, State.received, List.flatMap_def, List.flatMap_def]
  congr 1
  apply List.map_congr_left
  intro e he
  rw [h.printed e (List.mem_filter.mp he).1]
  exact cstr_of_nonul fun b hb => hsub b (List.mem_flatMap.mpr ⟨e, he, hb⟩)

/-- The screen shows one connection after the other, in the order in which they were made. Of a peer
that sends text it shows the first part, and everything if the peer has closed the connection and
`recv` has returned 0. -/
theorem served_in_turn (s : State) (hs : Reachable step init s) :
    (s.screen.map Printed.conn).Pairwise (· ≤ ·) ∧
      ∀ c, (∀ b ∈ (s.peer c).sent, b ≠ 0) →
        s.shown c <+: (s.peer c).sent ∧ (c ∈ s.finished → s.shown c = (s.peer c).sent) := by
  have h : Inv s := hs.invariant init_inv step_inv
  have hsub : (s.screen.map Printed.conn).Sublist s.turns := by
    rw [State.turns, List.append_assoc]
    exact List.sublist_append_left _ _
  refine ⟨h.order.sublist hsub, fun c hnul => ?_⟩
  rw [shown_eq h hnul]
  refine ⟨⟨_, h.stream c⟩, fun hc => ?_⟩
  have hstream := h.stream c
  rwa [(h.finished c hc).2, List.append_nil] at hstream

/-- A second peer connects and sends while the first is the client, and is served when that one has
closed. -/
def secondWaits : List Action :=
  [.connect, .test, .poll .ok, .accept .ok, .connect, .send 1 [98, 98], .send 0 [97], .test,
    .poll .ok, .recv (.replicate _ 0) 1, .close 0, .test, .poll .ok, .recvEnd, .test, .poll .ok,
    .accept .ok, .test, .poll .ok, .recv (.replicate _ 0) 2]

theorem secondWaits_in_turn :
    ∃ s, exec step init secondWaits = some s ∧ s.screen.map Printed.conn = [0, 1] ∧
      s.finished = [0] ∧
      (s.screen.map Printed.conn).Pairwise (· ≤ ·) ∧
      ∀ c, (∀ b ∈ (s.peer c).sent, b ≠ 0) →
        s.shown c <+: (s.peer c).sent ∧ (c ∈ s.finished → s.shown c = (s.peer c).sent) :=
  ⟨_, rfl, rfl, rfl, served_in_turn _ ⟨secondWaits, rfl⟩⟩

end StudyC.Viewer.Clients
