import StudyC.Lib.Runs
import StudyC.Mgmt.Worker

/-!
# The event loop of Collector

`run_event_loop` tests `g_keep_running` and then calls `poll` without a timeout. The handler of
`SIGINT` and `SIGTERM` may run between any two steps; a `poll` in progress then fails with `EINTR`
and the loop is left.

One thread does everything. Two of its calls wait for others: `shm_api_write` for the mutex of the
shared memory, and the `sendto` of a reply while the receive queue of the client is full.
-/

open Runs

namespace StudyC.Collector.Loop

open Mgmt.Worker (Client)

/-- What the dispatch of a management datagram does to the loop. -/
inductive Request where
  | shutdown
  | other
  deriving DecidableEq

inductive Phase where
  | test
  /-- The condition was true, `poll` is not called yet. -/
  | callPoll
  | polling
  /-- `poll` has returned; what it found readable is tested next. -/
  | udpEvents (udpIn mgmtIn : Bool)
  /-- In `shm_api_write`. -/
  | writing (mgmtIn : Bool)
  | mgmtEvents (mgmtIn : Bool)
  /-- In the `sendto` of `mgmt_socket_process_one`. -/
  | replying (c : Client)
  | left
  deriving DecidableEq

structure State where
  gKeepRunning : Bool
  phase : Phase
  /-- Whether `mgmt_sock` is not `NULL`, so that `nfds` is 2. -/
  mgmtSock : Bool
  /-- The sizes of the datagrams at the UDP socket. -/
  udp : List Nat
  mgmt : List (Client × Request)
  clients : Mailboxes.State Client

inductive Action where
  | loop
  /-- The call that the loop is in fails, `poll` for another reason than a signal. -/
  | fail
  | sigHandler
  | udpArrives (size : Nat)
  | mgmtArrives (c : Client) (r : Request)
  /-- A client reads a reply, or closes its socket. -/
  | mgmtClient (a : Mailboxes.Action Client)
  deriving DecidableEq

def State.readable (s : State) : Bool := s.udp ≠ [] || (s.mgmtSock && s.mgmt ≠ [])

/-- The receive and the dispatch of `mgmt_socket_process_one`; the handler may clear the flag. -/
def processOne (s : State) : Option State :=
  match s.mgmt with
  | [] => none
  | (c, r) :: rest =>
    some { s with
      mgmt := rest, gKeepRunning := s.gKeepRunning && r ≠ .shutdown, phase := .replying c }

/-- An empty datagram is received and no more. -/
def handleUdpRead (s : State) (mgmtIn : Bool) : Option State :=
  match s.udp with
  | [] => none
  | n :: rest =>
    some { s with udp := rest, phase := if 0 < n then .writing mgmtIn else .mgmtEvents mgmtIn }

def loopStep (s : State) : Option State :=
  match s.phase with
  | .test => some { s with phase := if s.gKeepRunning then .callPoll else .left }
  | .callPoll => some { s with phase := .polling }
  | .polling =>
    if s.readable then some { s with phase := .udpEvents (s.udp ≠ []) (s.mgmtSock && s.mgmt ≠ []) }
    else none
  | .udpEvents udpIn mgmtIn =>
    if udpIn then handleUdpRead s mgmtIn else some { s with phase := .mgmtEvents mgmtIn }
  -- the notification goes out with `IPC_NOWAIT`
  | .writing mgmtIn => some { s with phase := .mgmtEvents mgmtIn }
  | .mgmtEvents mgmtIn => if mgmtIn then processOne s else some { s with phase := .test }
  | .replying c =>
    if s.clients.accepts c then some { s with phase := .test, clients := s.clients.deliver c }
    else none
  | .left => none

/-- A `sendto` that a signal interrupts fails as well. -/
def failStep (s : State) : Option State :=
  match s.phase with
  | .polling => some { s with phase := .left }
  | .udpEvents true mgmtIn | .writing mgmtIn => some { s with phase := .mgmtEvents mgmtIn }
  | .mgmtEvents true | .replying _ => some { s with phase := .test }
  | .test | .callPoll | .udpEvents false _ | .mgmtEvents false | .left => none

def step (s : State) : Action → Option State
  | .loop => loopStep s
  | .fail => failStep s
  | .sigHandler =>
    some { s with gKeepRunning := false, phase := if s.phase = .polling then .left else s.phase }
  | .udpArrives size => some { s with udp := s.udp ++ [size] }
  | .mgmtArrives c r => some { s with mgmt := s.mgmt ++ [(c, r)] }
  | .mgmtClient a => (Mailboxes.step s.clients a).map fun clients => { s with clients := clients }

/-- The termination signal is over, and nothing will wake the loop. -/
def Asleep (s : State) : Prop := s.gKeepRunning = false ∧ s.phase = .polling ∧ s.readable = false

instance (s : State) : Decidable (Asleep s) := inferInstanceAs (Decidable (_ ∧ _ ∧ _))

/-- The handler does not run between the test of the flag and `poll`, unless input is waiting. -/
def OutsideWindow (s : State) (a : Action) : Prop :=
  a = .sigHandler → s.phase = .callPoll → s.readable = true

instance (s : State) (a : Action) : Decidable (OutsideWindow s a) :=
  inferInstanceAs (Decidable (_ → _ → _))

def Wakes (s : State) : Prop :=
  s.phase = .callPoll ∨ s.phase = .polling → s.gKeepRunning = true ∨ s.readable = true

theorem readable_mono {s s' : State} (hsock : s'.mgmtSock = s.mgmtSock)
    (hudp : s.udp ≠ [] → s'.udp ≠ []) (hmgmt : s.mgmt ≠ [] → s'.mgmt ≠ []) (h : s.readable = true) :
    s'.readable = true := by
  unfold State.readable at h ⊢
  simp only [Bool.or_eq_true, Bool.and_eq_true, decide_eq_true_eq, hsock] at h ⊢
  exact h.imp hudp (And.imp_right hmgmt)

theorem arrival_wakes {s s' : State} (h : Wakes s) (hphase : s'.phase = s.phase)
    (hkeep : s'.gKeepRunning = s.gKeepRunning)
    (hreadable : s.readable = true → s'.readable = true) : Wakes s' := by
  unfold Wakes
  rw [hphase, hkeep]
  intro hwaits
  rcases h hwaits with hrunning | hinput
  · exact Or.inl hrunning
  · exact Or.inr (hreadable hinput)

theorem processOne_phase {s s' : State} (hs : processOne s = some s') :
    ∃ c r rest, s.mgmt = (c, r) :: rest ∧
      s' = { s with
        mgmt := rest, gKeepRunning := s.gKeepRunning && r ≠ .shutdown, phase := .replying c } := by
  unfold processOne at hs
  split at hs
  · simp at hs
  · rename_i c r rest hmgmt
    exact ⟨c, r, rest, hmgmt, (Option.some.inj hs).symm⟩

theorem handleUdpRead_phase {s s' : State} {mgmtIn : Bool} (hs : handleUdpRead s mgmtIn = some s') :
    ∃ n rest, s.udp = n :: rest ∧
      s' = { s with
        udp := rest, phase := if 0 < n then .writing mgmtIn else .mgmtEvents mgmtIn } := by
  unfold handleUdpRead at hs
  split at hs
  · simp at hs
  · rename_i n rest hudp
    exact ⟨n, rest, hudp, (Option.some.inj hs).symm⟩

theorem loopStep_wakes {s s' : State} (h : Wakes s) (hs : loopStep s = some s') : Wakes s' := by
  cases hphase : s.phase with
  | test =>
    simp only [loopStep, hphase] at hs
    obtain rfl := Option.some.inj hs
    intro hwaits
    left
    cases hkeep : s.gKeepRunning with
    | true => rfl
    | false => simp [hkeep] at hwaits
  | callPoll =>
    simp only [loopStep, hphase] at hs
    obtain rfl := Option.some.inj hs
    exact fun _ => h (Or.inl hphase)
  | udpEvents udpIn mgmtIn =>
    simp only [loopStep, hphase] at hs
    split at hs
    · obtain ⟨n, rest, -, rfl⟩ := handleUdpRead_phase hs
      by_cases hn : 0 < n <;> simp [Wakes, hn]
    · obtain rfl := Option.some.inj hs
      simp [Wakes]
  | mgmtEvents mgmtIn =>
    simp only [loopStep, hphase] at hs
    split at hs
    · obtain ⟨c, r, rest, -, rfl⟩ := processOne_phase hs
      simp [Wakes]
    · obtain rfl := Option.some.inj hs
      simp [Wakes]
  | polling | writing mgmtIn | replying c | left =>
    simp only [loopStep, hphase] at hs
    repeat' split at hs
    all_goals first
      | (simp at hs; done)
      | (obtain rfl := Option.some.inj hs; simp [Wakes])

theorem failStep_wakes {s s' : State} (hs : failStep s = some s') : Wakes s' := by
  unfold failStep at hs
  split at hs
  all_goals first
    | (simp at hs; done)
    | (obtain rfl := Option.some.inj hs; simp [Wakes])

theorem step_wakes {s s' : State} {a : Action} (h : Wakes s) (hwindow : OutsideWindow s a)
    (hs : step s a = some s') : Wakes s' := by
  cases a with
  | loop => exact loopStep_wakes h hs
  | fail => exact failStep_wakes hs
  | sigHandler =>
    obtain rfl := Option.some.inj hs
    intro hwaits
    right
    have hcall : s.phase = .callPoll := by
      by_cases hpolling : s.phase = .polling
      · simp [hpolling] at hwaits
      · simpa [hpolling] using hwaits
    exact hwindow rfl hcall
  | udpArrives size =>
    obtain rfl := Option.some.inj hs
    exact arrival_wakes h rfl rfl (readable_mono rfl (by simp) id)
  | mgmtArrives c r =>
    obtain rfl := Option.some.inj hs
    exact arrival_wakes h rfl rfl (readable_mono rfl id (by simp))
  | mgmtClient a =>
    obtain ⟨clients, -, rfl⟩ := Option.map_eq_some_iff.mp hs
    exact h

theorem never_asleep {s t : State} {as : List Action} (hstart : s.phase = .test)
    (halong : Along step OutsideWindow s as) (hrun : exec step s as = some t) : ¬ Asleep t := by
  rintro ⟨hkeep, hpolling, hreadable⟩
  have hs : Wakes s := by simp [Wakes, hstart]
  have ht : Wakes t := invariant (fun _ _ _ h hw hs => step_wakes h hw hs) hs halong hrun
  rcases ht (Or.inr hpolling) with hrunning | hinput
  · simp [hkeep] at hrunning
  · simp [hreadable] at hinput

def idle : State := ⟨true, .test, true, [], [], .empty 0⟩

def interrupted : List Action := [.loop, .loop, .sigHandler]

theorem never_asleep_interrupted : ∃ t, exec step idle interrupted = some t ∧ ¬ Asleep t := by
  have halong : Along step OutsideWindow idle interrupted := by decide
  exact ⟨_, rfl, never_asleep rfl halong rfl⟩

theorem asleep_after_signal_in_window :
    ∃ t, exec step idle [.loop, .sigHandler, .loop] = some t ∧ Asleep t ∧ step t .loop = none :=
  ⟨_, rfl, by decide, rfl⟩

end StudyC.Collector.Loop
