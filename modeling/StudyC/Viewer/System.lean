import Mathlib.Logic.Function.Basic
import StudyC.Lib.Runs
import StudyC.Mgmt.Worker

/-!
# Viewer

The four threads of Viewer: `main`, `signal_worker`, `tcp_worker` and `mgmt_worker`, with the mutex
and the condition variable of `AppContext`, the shutdown pipe, the signals that are pending, the
peers on the network and the clients of the management socket. Every step of a thread is one system
call or one access to shared state. Only `main` waits for the condition variable, in two loops with
two predicates.
-/

open Runs

namespace StudyC.Viewer

open Mgmt.Worker

/-- Where `main` is. `waitReady` and `waitShutdown` are in `pthread_cond_wait`, `wokenReady` and
`wokenShutdown` on the way out of it, where the mutex is taken again. -/
inductive MainPhase where
  | pipe
  | createSig
  | lockReady
  | testReady
  | waitReady
  | wokenReady
  | unlockReady
  | createTcp
  | registryInit
  | register
  | createMgmt
  | lockFailed
  | setFailed
  | signalFailed
  | unlockFailed
  | lockShutdown
  | testShutdown
  | waitShutdown
  | wokenShutdown
  | unlockShutdown
  | stopMgmt
  | killSig
  | writePipe
  | joinSig
  | joinTcp
  | joinMgmt
  | destroyRegistry
  | exited
  /-- `main` has returned because there was no pipe. -/
  | failed
  deriving DecidableEq

inductive SigPhase where
  | notCreated
  | lockReady
  | setReady
  | signalReady
  | unlockReady
  | sigwait
  | lock
  | set
  | signal
  | unlock
  | ended
  deriving DecidableEq

inductive TcpPhase where
  | notCreated
  | setup
  | test
  | poll
  /-- The socket was readable, the pipe was not. -/
  | ready
  | leaving
  | ended
  deriving DecidableEq

/-- The `SHUTDOWN` handler of `mgmt_handlers.c`. -/
inductive HandlerPhase where
  | store
  | lock
  | set
  | signal
  | unlock
  deriving DecidableEq

inductive Signal where
  | int
  | term
  | usr1
  deriving DecidableEq

/-- An accepted connection: what has arrived on it, and whether the peer has closed it. -/
structure Conn where
  data : Nat
  closed : Bool
  deriving DecidableEq

structure State where
  main : MainPhase
  sig : SigPhase
  tcp : TcpPhase
  mgmt : Thread HandlerPhase
  signalThreadReady : Bool
  shutdownRequested : Bool
  mgmtRunning : Bool
  pending : Signal → Bool
  pipeWritten : Bool
  registry : Bool
  backlog : Nat
  client : Option Conn

def init (clients : Mailboxes.State Client) : State where
  main := .pipe
  sig := .notCreated
  tcp := .notCreated
  mgmt := .init clients
  signalThreadReady := false
  shutdownRequested := false
  mgmtRunning := true
  pending := fun _ => false
  pipeWritten := false
  registry := false
  backlog := 0
  client := none

inductive Result where
  | ok
  | fail
  | interrupted
  deriving DecidableEq

inductive Action where
  | main (ok : Bool)
  /-- The signal is the one that `sigwait` returns. -/
  | sig (pick : Signal)
  | tcp (res : Result)
  | mgmt (res : Outcome)
  /-- A signal from outside. -/
  | kill (sig : Signal)
  /-- `pthread_cond_wait` returns without a signal. -/
  | spurious
  | connect
  | send
  | disconnect
  | request (c : Client) (r : Request)
  | mgmtClient (a : Mailboxes.Action Client)

/-- What comes from outside the process. -/
def Action.outside : Action → Bool
  | .main _ | .sig _ | .tcp _ | .mgmt _ => false
  | .kill _ | .spurious | .connect | .send | .disconnect | .request _ _ | .mgmtClient _ => true

/-- A step of one of the process's own threads, in which no system call fails. -/
def Action.own : Action → Bool
  | .main ok => ok
  | .sig _ => true
  | .tcp res => decide (res = .ok)
  | .mgmt res => decide (res ≠ .fail)
  | _ => false

/-! ## The mutex

A thread holds `mtx` from the step that locks it to the step that unlocks it. -/

def MainPhase.holds : MainPhase → Bool
  | .testReady | .unlockReady | .setFailed | .signalFailed | .unlockFailed | .testShutdown
  | .unlockShutdown => true
  | _ => false

def SigPhase.holds : SigPhase → Bool
  | .setReady | .signalReady | .unlockReady | .set | .signal | .unlock => true
  | _ => false

def mgmtHolds : Phase HandlerPhase → Bool
  | .handler .set | .handler .signal | .handler .unlock => true
  | _ => false

def State.locked (s : State) : Bool := s.main.holds || s.sig.holds || mgmtHolds s.mgmt.phase

/-! ## The threads -/

def MainPhase.wake : MainPhase → MainPhase
  | .waitReady => .wokenReady
  | .waitShutdown => .wokenShutdown
  | ph => ph

/-- `pthread_cond_signal`. -/
def State.condSignal (s : State) : State := { s with main := s.main.wake }

def mainStep (s : State) (ok : Bool) : Option State :=
  match s.main with
  | .pipe => some { s with main := if ok then .createSig else .failed }
  | .createSig => some { s with main := .lockReady, sig := .lockReady }
  | .lockReady | .wokenReady => if s.locked then none else some { s with main := .testReady }
  | .testReady => some { s with main := if s.signalThreadReady then .unlockReady else .waitReady }
  | .unlockReady => some { s with main := .createTcp }
  | .createTcp => some { s with main := .registryInit, tcp := .setup }
  | .registryInit =>
    if ok then some { s with main := .register, registry := true }
    else some { s with main := .lockFailed }
  | .register => some { s with main := if ok then .createMgmt else .lockFailed }
  | .createMgmt =>
    if ok then some { s with main := .lockShutdown, mgmt := s.mgmt.goto .create }
    else some { s with main := .lockFailed }
  | .lockFailed => if s.locked then none else some { s with main := .setFailed }
  | .setFailed => some { s with main := .signalFailed, shutdownRequested := true }
  | .signalFailed => some { s.condSignal with main := .unlockFailed }
  | .unlockFailed => some { s with main := .lockShutdown }
  | .lockShutdown | .wokenShutdown =>
    if s.locked then none else some { s with main := .testShutdown }
  | .testShutdown =>
    some { s with main := if s.shutdownRequested then .unlockShutdown else .waitShutdown }
  | .unlockShutdown => some { s with main := .stopMgmt }
  | .stopMgmt => some { s with main := .killSig, mgmtRunning := false }
  | .killSig => some { s with main := .writePipe, pending := Function.update s.pending .usr1 true }
  -- one byte into an empty pipe whose read end is open
  | .writePipe => some { s with main := .joinSig, pipeWritten := true }
  | .joinSig => if s.sig = .ended then some { s with main := .joinTcp } else none
  | .joinTcp => if s.tcp = .ended then some { s with main := .joinMgmt } else none
  | .joinMgmt => if s.mgmt.phase.gone then some { s with main := .destroyRegistry } else none
  | .destroyRegistry => some { s with main := .exited, registry := false }
  | .waitReady | .waitShutdown | .exited | .failed => none

def sigStep (s : State) (pick : Signal) : Option State :=
  match s.sig with
  | .notCreated | .ended => none
  | .lockReady => if s.locked then none else some { s with sig := .setReady }
  | .setReady => some { s with sig := .signalReady, signalThreadReady := true }
  | .signalReady => some { s.condSignal with sig := .unlockReady }
  | .unlockReady => some { s with sig := .sigwait }
  | .sigwait =>
    if s.pending pick then
      some { s with
        pending := Function.update s.pending pick false
        sig := match pick with
          | .int | .term => .lock
          | .usr1 => .ended }
    else none
  | .lock => if s.locked then none else some { s with sig := .set }
  | .set => some { s with sig := .signal, shutdownRequested := true }
  | .signal => some { s.condSignal with sig := .unlock }
  | .unlock => some { s with sig := .sigwait }

def State.readable (s : State) : Bool :=
  match s.client with
  | none => decide (0 < s.backlog)
  | some c => decide (0 < c.data) || c.closed

/-- `accept` or `recv`, neither of which blocks after `poll` has reported the socket. -/
def serveSocket (s : State) (res : Result) : State :=
  match s.client with
  | none => { s with
      backlog := s.backlog - 1
      client := if res = .ok then some ⟨0, false⟩ else none }
  | some c => { s with
      client := if res = .ok ∧ 0 < c.data then some { c with data := c.data - 1 } else none }

def tcpStep (s : State) (res : Result) : Option State :=
  match s.tcp with
  | .notCreated | .ended => none
  | .setup => some { s with tcp := if res = .ok then .test else .ended }
  | .test => some { s with tcp := if s.shutdownRequested then .leaving else .poll }
  | .poll => match res with
    | .interrupted => some { s with tcp := .test }
    | .fail => some { s with tcp := .leaving }
    | .ok =>
      if s.pipeWritten then some { s with tcp := .leaving }
      else if s.readable then some { s with tcp := .ready }
      else none
  | .ready => some { serveSocket s res with tcp := .test }
  | .leaving => some { s with client := none, tcp := .ended }

def handlerStep (s : State) : HandlerPhase → Option State
  | .store => some { s with mgmtRunning := false, mgmt := s.mgmt.goto (.handler .lock) }
  | .lock => if s.locked then none else some { s with mgmt := s.mgmt.goto (.handler .set) }
  | .set => some { s with shutdownRequested := true, mgmt := s.mgmt.goto (.handler .signal) }
  | .signal => some { s.condSignal with mgmt := s.mgmt.goto (.handler .unlock) }
  | .unlock => some { s with mgmt := s.mgmt.goto (.account .shutdown) }

def mgmtStep (s : State) (res : Outcome) : Option State :=
  match s.mgmt.phase with
  | .handler h => handlerStep s h
  | _ => (s.mgmt.step s.mgmtRunning .store res).map fun t => { s with mgmt := t }

def step (s : State) : Action → Option State
  | .main ok => mainStep s ok
  | .sig pick => sigStep s pick
  | .tcp res => tcpStep s res
  | .mgmt res => mgmtStep s res
  | .kill sig => some { s with pending := Function.update s.pending sig true }
  | .spurious => some s.condSignal
  | .connect => some { s with backlog := s.backlog + 1 }
  | .send => some { s with client := s.client.map fun c => { c with data := c.data + 1 } }
  | .disconnect => some { s with client := s.client.map fun c => { c with closed := true } }
  | .request c r => some { s with mgmt := s.mgmt.receive c r }
  | .mgmtClient a => (s.mgmt.clientStep a).map fun t => { s with mgmt := t }

theorem mgmtClient_frame {s s' : State} {a : Mailboxes.Action Client}
    (hs : step s (.mgmtClient a) = some s') :
    ∃ clients, Mailboxes.step s.mgmt.clients a = some clients ∧
      s' = { s with mgmt := { s.mgmt with clients := clients } } := by
  obtain ⟨t, ht, rfl⟩ := Option.map_eq_some_iff.mp hs
  obtain ⟨clients, hclients, rfl⟩ := Option.map_eq_some_iff.mp ht
  exact ⟨clients, hclients, rfl⟩

end StudyC.Viewer
