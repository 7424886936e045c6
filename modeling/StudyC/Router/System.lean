import StudyC.Lib.Runs

/-!
# Router, its worker and a Collector

The threads of Router around the notification queue, as `main.c` and `router_worker.c` write them,
and a Collector that starts, purges the queue, notifies and stops at any time. The queue holds at
most `N` messages, the queue of `main` as many as come. Every step of a thread is one system call or
one access to shared state.
-/

open Runs

namespace StudyC.Router

/-- `shm_status_id` of a message: 100 from the Collector, `MSG_TYPE_SHM_QUIT` from Router. -/
inductive Notify where
  | data
  | quit
  deriving DecidableEq

inductive Event where
  | quit
  | udp
  | ipc
  | fatal
  | signal (sigNum : Nat)
  deriving DecidableEq

def sigInt : Nat := 2
def sigTerm : Nat := 15

/-- Where `main` is. `quitSetup`, `quitSignal` and `quitPost` are the calls of `send_shm_quit`. -/
inductive MainPhase where
  | purge
  | setup
  | createWorker
  | setupMgmt
  | quitSetup
  | closeSetup
  | loop
  | wait
  | quitSignal
  | closeSignal
  | closeFatal
  | closePost
  | quitPost
  | joinMgmt
  | joinWorker
  | exited
  deriving DecidableEq

inductive WorkerPhase where
  | notCreated
  | starting
  /-- At the `connect` of attempt `i`. -/
  | connecting (i : Nat)
  /-- In the `select` after attempt `i` failed. -/
  | retryWait (i : Nat)
  | atMsgrcv
  /-- Holding a notification, in `shm_api_read`, which waits for the mutex of the shared memory. -/
  | reading
  /-- In `send`, which waits while the connection takes nothing. -/
  | sending
  /-- Past its loop, about to return. -/
  | leaving
  | terminated
  deriving DecidableEq

inductive CollectorPhase where
  | down
  | purging
  | running
  deriving DecidableEq

structure State where
  /-- `msgget(SYSTEM_IPC_KEY)` of this Router has not returned -1. -/
  ipcMsqid : Bool
  queue : List Notify
  mainq : List Event
  keepRunning : Bool
  /-- The write end of `g_shutdown_pipe`. -/
  pipeOpen : Bool
  main : MainPhase
  worker : WorkerPhase
  signalWorker : Bool
  mgmtWorker : Bool
  collector : CollectorPhase
  deriving DecidableEq

/-- How the next system call of a thread ends. For the retry `select` of the worker, `ok` says that
the pipe became readable and `timeout` that the delay is over. -/
inductive Result where
  | ok
  | fail
  | timeout
  deriving DecidableEq

inductive Action where
  | main (res : Result)
  | worker (res : Result)
  | collectorStart
  | collectorPurge
  | collectorNotify
  | collectorStop
  /-- `sigwait` of the signal worker returns. -/
  | signal (sigNum : Nat)
  /-- The management thread handles a `SHUTDOWN` command. -/
  | mgmtShutdown
  | mgmtEnd
  deriving DecidableEq

/-- `msgsnd` without `IPC_NOWAIT`: it waits while the queue is full. A failure is logged only. -/
def sendQuit (N : Nat) (s : State) (next : MainPhase) : Result → Option State
  | .ok =>
    if s.ipcMsqid ∧ s.queue.length < N then
      some { s with queue := s.queue ++ [.quit], main := next }
    else none
  | .fail => some { s with main := next }
  | .timeout => none

def mainReceive (s : State) : Option State :=
  match s.mainq with
  | [] => none
  | .signal sig :: es =>
    if sig = sigInt ∨ sig = sigTerm then
      some { s with mainq := es, keepRunning := false, main := .quitSignal }
    else some { s with mainq := es, main := .loop }
  | .fatal :: es => some { s with mainq := es, keepRunning := false, main := .closeFatal }
  | .quit :: es | .udp :: es | .ipc :: es => some { s with mainq := es, main := .loop }

def mainStep (N : Nat) (s : State) (res : Result) : Option State :=
  match s.main, res with
  | .purge, .ok =>
    if s.ipcMsqid then
      match s.queue with
      | [] => some { s with main := .setup }
      | _ :: q => some { s with queue := q }
    else some { s with main := .setup }
  | .setup, .ok => some { s with main := .createWorker, signalWorker := true }
  | .setup, .fail => some { s with main := .exited }
  | .createWorker, .ok => some { s with main := .setupMgmt, worker := .starting }
  | .createWorker, .fail => some { s with main := .exited }
  | .setupMgmt, .ok => some { s with main := .loop, mgmtWorker := true }
  | .setupMgmt, .fail => some { s with keepRunning := false, main := .quitSetup }
  | .quitSetup, res => sendQuit N s .closeSetup res
  | .closeSetup, .ok => some { s with pipeOpen := false, main := .joinWorker }
  | .loop, .ok => some { s with main := if s.keepRunning then .wait else .closePost }
  | .wait, .ok => mainReceive s
  -- `msgrcv` failed for another reason than `EINTR`, and the loop is left.
  | .wait, .fail => some { s with main := .closePost }
  | .quitSignal, res => sendQuit N s .closeSignal res
  | .closeSignal, .ok | .closeFatal, .ok => some { s with pipeOpen := false, main := .loop }
  | .closePost, .ok => some { s with keepRunning := false, pipeOpen := false, main := .quitPost }
  | .quitPost, res => sendQuit N s .joinMgmt res
  | .joinMgmt, .ok => if s.mgmtWorker then none else some { s with main := .joinWorker }
  | .joinWorker, .ok => if s.worker = .terminated then some { s with main := .exited } else none
  | _, _ => none

def connectMaxRetries : Nat := 5

def retry (s : State) (i : Nat) : State :=
  if i + 1 < connectMaxRetries then { s with worker := .connecting (i + 1) }
  else { s with mainq := s.mainq ++ [.fatal], worker := .leaving }

def workerStep (s : State) (res : Result) : Option State :=
  match s.worker, res with
  | .starting, .ok => some { s with worker := .connecting 0 }
  | .starting, .fail => some { s with mainq := s.mainq ++ [.fatal], worker := .leaving }
  | .connecting _, .ok => some { s with worker := .atMsgrcv }
  | .connecting i, .fail => some { s with worker := .retryWait i }
  | .retryWait _, .ok => if s.pipeOpen then none else some { s with worker := .leaving }
  | .retryWait i, .timeout => if s.pipeOpen then some (retry s i) else none
  | .retryWait i, .fail => some (retry s i)
  | .atMsgrcv, .ok =>
    if s.ipcMsqid then
      match s.queue with
      | [] => none
      | .quit :: q => some { s with queue := q, worker := .leaving }
      | .data :: q => some { s with queue := q, worker := .reading }
    else none
  -- the loop has no other way out, and calls `msgrcv` again
  | .atMsgrcv, .fail => some s
  | .reading, .ok => some { s with worker := .sending }
  | .reading, .fail | .sending, .ok => some { s with worker := .atMsgrcv }
  -- `EPIPE` or `ECONNRESET`. Every other failure goes on with the next message.
  | .sending, .fail => some { s with mainq := s.mainq ++ [.signal sigTerm], worker := .leaving }
  | .leaving, .ok => some { s with worker := .terminated }
  | _, _ => none

def step (N : Nat) (s : State) : Action → Option State
  | .main res => mainStep N s res
  | .worker res => workerStep s res
  | .collectorStart => match s.collector with
    | .down => some { s with collector := .purging }
    | _ => none
  | .collectorPurge => match s.collector with
    | .purging => match s.queue with
      | [] => some { s with collector := .running }
      | _ :: q => some { s with queue := q }
    | _ => none
  -- `IPC_NOWAIT`: a notification is dropped when the queue is full.
  | .collectorNotify => match s.collector with
    | .running => if s.queue.length < N then some { s with queue := s.queue ++ [.data] } else some s
    | _ => none
  | .collectorStop => some { s with collector := .down }
  | .signal sig =>
    if s.signalWorker ∧ (sig = sigInt ∨ sig = sigTerm) then
      some { s with mainq := s.mainq ++ [.signal sig], signalWorker := false }
    else none
  | .mgmtShutdown =>
    if s.mgmtWorker then some { s with mainq := s.mainq ++ [.signal sigTerm] } else none
  | .mgmtEnd => some { s with mgmtWorker := false }

/-- Any messages may be left from earlier lifetimes, and the Collector may be in any phase. -/
def init (queue : List Notify) (collector : CollectorPhase) (ipcMsqid : Bool) : State where
  ipcMsqid := ipcMsqid
  queue := queue
  mainq := []
  keepRunning := true
  pipeOpen := true
  main := .purge
  worker := .notCreated
  signalWorker := false
  mgmtWorker := false
  collector := collector

/-! ## What the other threads leave alone -/

/-- A step that is not one of `main`. Nobody but `main` sends a QUIT or creates the worker. -/
structure Aside (s : State) (a : Action) (s' : State) : Prop where
  main : s'.main = s.main
  mgmtWorker : a ≠ .mgmtEnd → s'.mgmtWorker = s.mgmtWorker
  worker : s.worker = .notCreated → s'.worker = .notCreated
  queue : s'.queue = s.queue ∨ (∃ m, s.queue = m :: s'.queue) ∨ s'.queue = s.queue ++ [.data]

theorem step_aside {N : Nat} {s s' : State} {a : Action} (ha : ∀ res, a ≠ .main res)
    (hs : step N s a = some s') : Aside s a s' := by
  cases a with
  | main res => exact absurd rfl (ha res)
  | worker res =>
    simp only [step, workerStep, retry] at hs
    repeat' split at hs
    all_goals first
      | (simp at hs; done)
      | (obtain rfl := Option.some.inj hs; constructor <;> simp [*])
  | _ =>
    simp only [step] at hs
    repeat' split at hs
    all_goals first
      | (simp at hs; done)
      | (obtain rfl := Option.some.inj hs; constructor <;> simp [*])

theorem step_ipcMsqid {N : Nat} {s s' : State} {a : Action} (hs : step N s a = some s') :
    s'.ipcMsqid = s.ipcMsqid := by
  cases a with
  | main res =>
    simp only [step, mainStep, sendQuit, mainReceive] at hs
    repeat' split at hs
    all_goals first
      | (simp at hs; done)
      | (obtain rfl := Option.some.inj hs; rfl)
  | _ =>
    simp only [step, workerStep, retry] at hs
    repeat' split at hs
    all_goals first
      | (simp at hs; done)
      | (obtain rfl := Option.some.inj hs; rfl)

theorem main_or_aside {N : Nat} {s s' : State} {a : Action} (hs : step N s a = some s') :
    (∃ res, a = .main res ∧ mainStep N s res = some s') ∨ Aside s a s' := by
  cases a with
  | main res => exact Or.inl ⟨res, rfl, hs⟩
  | _ => exact Or.inr (step_aside (by simp) hs)

end StudyC.Router
