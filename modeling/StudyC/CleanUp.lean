import StudyC.Lib.Resources
import StudyC.Shm.Attach

/-!
# What the programs acquire and release

The start-up and the clean-up of the three programs, of the threads that hold something of their
own, and of `mgmt_send_command`, as the calls that acquire, use and release something. A label of
the source at which clean-up code is entered is a definition here. Variables such as `t2_created`,
and a descriptor that is set to -1 when it is closed, are marks.

The shared memory segment and the names of the other programs outlive the process and are nobody's
to release. So does the notification queue: a program that has got it is left with it at the end.
Collector and Router go on without it when `msgget` fails, and use it all the same.
-/

open Runs Resources

namespace StudyC.CleanUp

open Shm.Attach (Backend)

inductive Resource where
  | log
  /-- `struct ShmContext`, what it maps, and the descriptor of the POSIX back end. -/
  | shmContext
  | shmMapping
  | shmFd
  | mutexAttr
  | registry
  | udpSocket
  /-- What `msgget(SYSTEM_IPC_KEY)` has returned. -/
  | notifyQueue
  /-- `mainmsqid` of Router. -/
  | mainQueue
  | pipeRead
  | pipeWrite
  | semaphore
  | mutex
  | cond
  | signalThread
  | routerThread
  | tcpThread
  | mgmtThread
  /-- `struct MgmtSocket`. -/
  | mgmtSocket
  | statsLock
  | socket
  /-- The name that the socket is bound to. -/
  | name
  deriving DecidableEq

abbrev Code := Prog Resource

/-! ## The shared memory -/

/-- `shmat` or `mmap`. -/
def shmMap (isCreator : Bool) (ok fail : Code) : Code :=
  .acquire .shmMapping
    (if isCreator then .hold .mutexAttr (.use [.shmMapping] (.release .mutexAttr ok)) else ok)
    fail

def shmApiInit (b : Backend) (ok fail : Code) : Code :=
  let freed : Code := .release .shmContext fail
  .acquire .shmContext
    (match b with
      -- the exclusive `shmget`, and the second one after `EEXIST`
      | .sysv => .attempt (shmMap true ok freed) (.attempt (shmMap false ok freed) freed)
      | .posix =>
        let closed : Code := .release .shmFd freed
        .acquire .shmFd
          -- `ftruncate`
          (.attempt (shmMap true ok closed) closed)
          (.acquire .shmFd (.rounds [.shmFd] (shmMap false ok closed)) freed))
    fail

def shmApiClose (b : Backend) (next : Code) : Code :=
  match b with
  | .sysv => .release .shmMapping (.release .shmContext next)
  | .posix => .release .shmMapping (.release .shmFd (.release .shmContext next))

/-! ## The management socket -/

def mgmtSocketCreate (ok fail : Code) : Code :=
  .acquire .mgmtSocket
    (.acquire .socket
      -- a stale name is unlinked
      (.discard .name
        (.acquire .name (.hold .statsLock ok) (.release .socket (.release .mgmtSocket fail))))
      (.release .mgmtSocket fail))
    fail

def mgmtSocketDestroy (next : Code) : Code :=
  .release .socket (.discard .name (.release .statsLock (.release .mgmtSocket next)))

def mgmtWorker : Code :=
  mgmtSocketCreate (.rounds [.mgmtSocket, .socket, .statsLock] (mgmtSocketDestroy (.ret 0)))
    (.ret 0)

/-- The label of `mgmt_send_command`, where the name is unlinked whether it was bound or not. -/
def cleanup (ret : Nat) : Code := .discard .name (.release .socket (.ret ret))

def mgmtSendCommand : Code :=
  .acquire .socket
    (.discard .name (.acquire .name
      -- `sendto`, `poll` and the size that `recv` returns
      (.use [.socket] (.attempt
        (.use [.socket] (.attempt
          (.use [.socket] (.attempt (cleanup 0) (cleanup 1)))
          (cleanup 1)))
        (cleanup 1)))
      (cleanup 1)))
    (.ret 1)

/-! ## Collector -/

/-- A socket that cannot be bound is closed again. -/
def setupUdpSocket (ok fail : Code) : Code :=
  .acquire .udpSocket (.attempt ok (.release .udpSocket fail)) fail

/-- `msgget(SYSTEM_IPC_KEY)`, and the purge if it succeeds. -/
def notifyQueueGet (msgget : Bool) (next : Code) : Code :=
  if msgget then .hold .notifyQueue (.rounds [.notifyQueue] next) else next

/-- The four failures after the shared memory is there differ in what they release before this. -/
def collectorFailed (b : Backend) : Code := shmApiClose b (.release .log (.ret 1))

def collectorMain (b : Backend) (msgget : Bool) : Code :=
  .hold .log (notifyQueueGet msgget (shmApiInit b
    (.acquire .registry
      -- `collector_mgmt_register`
      (.attempt
        (mgmtSocketCreate
          (setupUdpSocket
            (.rounds [.udpSocket, .shmMapping, .notifyQueue, .mgmtSocket, .socket, .registry, .log]
              (shmApiClose b (.release .udpSocket (mgmtSocketDestroy (.release .registry
                (.use [.log] (.release .log (.ret 0))))))))
            (mgmtSocketDestroy (.release .registry (collectorFailed b))))
          (.use [.log] (.release .registry (collectorFailed b))))
        (.use [.log] (.release .registry (collectorFailed b))))
      (.use [.log] (collectorFailed b)))
    (.use [.log] (.release .log (.ret 1)))))

/-! ## Router -/

def cleanupLog (ret : Nat) : Code :=
  .use [.log] (.releaseIfMarked .registry (.use [.log] (.release .log (.ret ret))))

/-- `msgctl(IPC_RMID)`. -/
def cleanupMainMsq (ret : Nat) : Code := .tryRelease .mainQueue (cleanupLog ret)

def cleanupShm (b : Backend) (ret : Nat) : Code := shmApiClose b (cleanupMainMsq ret)

def cleanupPipe (b : Backend) (ret : Nat) : Code :=
  .releaseIfMarked .pipeRead (.releaseIfMarked .pipeWrite (cleanupShm b ret))

def cleanupSem (b : Backend) (ret : Nat) : Code := .releaseIfMarked .semaphore (cleanupPipe b ret)

/-- `pthread_cancel` and `pthread_join`. -/
def cleanupT2 (b : Backend) (ret : Nat) : Code := .releaseIfMarked .signalThread (cleanupSem b ret)

def skipToCleanup (b : Backend) (ret : Nat) : Code :=
  .releaseIfMarked .routerThread (cleanupT2 b ret)

/-- `g_shutdown_pipe[1]` is closed and set to -1 unless it is -1. -/
def closeShutdownPipe (next : Code) : Code := .releaseIfMarked .pipeWrite (.clear .pipeWrite next)

def sendShmQuit (next : Code) : Code := .use [.notifyQueue] next

/-- Without management the threads that run are told to stop. -/
def routerMgmtFailed (b : Backend) : Code :=
  .use [.log] (sendShmQuit (closeShutdownPipe (skipToCleanup b 1)))

def routerAfterLoop (b : Backend) : Code :=
  closeShutdownPipe (sendShmQuit (.releaseIfMarked .mgmtThread (skipToCleanup b 0)))

/-- The last round handles a signal or a fatal event and closes the pipe, or `msgrcv` fails. -/
def routerLoop (b : Backend) : Code :=
  .rounds [.mainQueue, .log]
    (.attempt
      (.use [.mainQueue] (.attempt (sendShmQuit (closeShutdownPipe (routerAfterLoop b)))
        (closeShutdownPipe (routerAfterLoop b))))
      (routerAfterLoop b))

def routerMain (b : Backend) (msgget : Bool) : Code :=
  .hold .log (.acquire .mainQueue
    (notifyQueueGet msgget (shmApiInit b
      (.acquire .pipeRead
        (.hold .pipeWrite (.mark .pipeRead (.mark .pipeWrite (.acquire .semaphore
          (.mark .semaphore
            -- `pthread_sigmask`
            (.attempt
              (.acquire .signalThread
                -- `sem_wait`
                (.mark .signalThread (.use [.semaphore] (.attempt
                  (.acquire .routerThread
                    (.mark .routerThread (.acquire .registry
                      -- `router_mgmt_register`
                      (.mark .registry (.attempt
                        (.acquire .mgmtThread (.mark .mgmtThread (routerLoop b))
                          (routerMgmtFailed b))
                        (routerMgmtFailed b)))
                      (routerMgmtFailed b)))
                    (cleanupT2 b 1))
                  (cleanupT2 b 1))))
                (cleanupSem b 1))
              (cleanupSem b 1)))
          (cleanupPipe b 1)))))
        (cleanupShm b 1))
      (cleanupMainMsq 1)))
    (cleanupLog 1))

/-- The socket is closed after a wait between two attempts that the pipe ends, after the last
attempt that fails, and after the loop. -/
def routerWorker : Code :=
  .acquire .socket
    (.rounds [.socket] (.attempt
      (.rounds [.socket] (.release .socket (.ret 0)))
      (.attempt (.release .socket (.ret 0)) (.release .socket (.ret 0)))))
    (.ret 0)

/-! ## Viewer -/

def viewerFinish (ret : Nat) : Code :=
  .use [.mutex, .cond] (.use [.signalThread, .pipeWrite]
    (.release .signalThread (.release .tcpThread (.releaseIfMarked .mgmtThread
      (.release .pipeRead (.release .pipeWrite (.releaseIfMarked .registry
        (.use [.log] (.release .log (.ret ret))))))))))

/-- The creation of the first two threads is not checked by the source, and taken to succeed. -/
def viewerMain : Code :=
  .hold .log (.hold .mutex (.hold .cond (.acquire .pipeRead
    (.hold .pipeWrite (.hold .signalThread (.use [.mutex, .cond] (.hold .tcpThread
      (.acquire .registry
        -- `viewer_mgmt_register`
        (.mark .registry (.attempt
          (.acquire .mgmtThread (.mark .mgmtThread (viewerFinish 0)) (viewerFinish 1))
          (viewerFinish 1)))
        (viewerFinish 1))))))
    (.use [.log] (.release .log (.ret 1))))))

/-! ## All of them -/

/-- The two mains that call `msgget(SYSTEM_IPC_KEY)` come with how it ends. -/
inductive Function where
  | collectorMain (b : Backend) (msgget : Bool)
  | routerMain (b : Backend) (msgget : Bool)
  | routerWorker
  | viewerMain
  | mgmtWorker
  | mgmtSendCommand
  deriving DecidableEq

def Function.code : Function → Code
  | .collectorMain b msgget => CleanUp.collectorMain b msgget
  | .routerMain b msgget => CleanUp.routerMain b msgget
  | .routerWorker => CleanUp.routerWorker
  | .viewerMain => CleanUp.viewerMain
  | .mgmtWorker => CleanUp.mgmtWorker
  | .mgmtSendCommand => CleanUp.mgmtSendCommand

/-- What the threads of a program work on. -/
def Function.needs : Function → Resource → List Resource
  | .routerMain _ _, .signalThread => [.mainQueue, .semaphore, .log]
  | .routerMain _ msgget, .routerThread =>
    [.mainQueue, .shmContext, .shmMapping, .pipeRead, .log] ++
      (if msgget then [.notifyQueue] else [])
  | .routerMain _ _, .mgmtThread => [.registry, .mainQueue, .log]
  | .viewerMain, .signalThread => [.mutex, .cond, .log]
  | .viewerMain, .tcpThread => [.pipeRead, .log]
  | .viewerMain, .mgmtThread => [.registry, .mutex, .cond, .log]
  | _, _ => []

/-- Without its `msgget` a main uses the notification queue that it does not hold. -/
def Function.excused : Function → List Resource
  | .collectorMain _ false | .routerMain _ false => [.notifyQueue]
  | _ => []

/-- `msgctl(IPC_RMID)` may fail. -/
def Function.mayStay : Function → List Resource
  | .routerMain _ _ => [.mainQueue]
  | _ => []

/-- The notification queue outlives the programs, and Viewer destroys neither its mutex nor its
condition variable. -/
def Function.left : Function → List Resource
  | .collectorMain _ _ | .routerMain _ _ => [.notifyQueue]
  | .viewerMain => [.cond, .mutex]
  | _ => []

def Function.rules (f : Function) : Rules Resource := ⟨f.needs, f.excused, f.mayStay, f.left⟩

/-- Whatever call fails, what is used is held but for the queue of a failed `msgget`, what is
released was acquired and is released once, a thread is joined before anything that it works on is
released, and on return nothing is left but what `left` says, and the private queue if its removal
failed. -/
theorem clean_up (f : Function) (c : Config Resource)
    (hc : Reachable (step f.needs) (start f.code) c) :
    c.faults ⊆ f.excused ∧ c.stuck ⊆ f.mayStay ∧ ∀ code, c.prog = .ret code → c.held ⊆ f.left := by
  have hcheck : check f.rules [] [] f.code = true := by
    cases f with
    | collectorMain b msgget | routerMain b msgget => cases b <;> cases msgget <;> decide
    | _ => decide
  exact clean_of_check hcheck hc

/-- Router has no notification queue, its management thread cannot be created, and its private queue
cannot be removed. -/
def noMgmtThread : List Bool :=
  List.replicate 24 true ++ [false] ++ List.replicate 11 true ++ [false] ++ List.replicate 4 true

theorem noMgmtThread_clean :
    let f : Function := .routerMain .sysv false
    ∃ c, exec (step f.needs) (start f.code) noMgmtThread = some c ∧ c.prog = .ret 1 ∧
      c.faults = [.notifyQueue] ∧ c.stuck = [.mainQueue] ∧
      c.faults ⊆ f.excused ∧ c.stuck ⊆ f.mayStay ∧ ∀ code, c.prog = .ret code → c.held ⊆ f.left :=
  ⟨_, rfl, rfl, rfl, rfl, clean_up (.routerMain .sysv false) _ ⟨noMgmtThread, rfl⟩⟩

end StudyC.CleanUp
