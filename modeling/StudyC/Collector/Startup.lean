import StudyC.Mgmt.Handlers
import StudyC.Router.System

/-!
# A second Collector

The start-up of `main.c` on the state of the machine that all processes share: the notification
queue, the name of the management socket and the UDP port. The port is bound last, and when that
fails the roll-back releases what was acquired before.
-/

namespace StudyC.Collector

open Mgmt

/-- Sockets are numbered over the whole machine. -/
structure Os where
  /-- The notification queue. -/
  queue : List Router.Notify
  /-- The socket that `MGMT_SOCKET_PATH_COLLECTOR` leads to. -/
  mgmtPath : Option Nat
  /-- The socket that is bound to `UDP_PORT`. -/
  udpPort : Option Nat
  nextSocket : Nat

/-- How the calls end that do not depend on what other processes hold. -/
structure Results where
  msgget : Bool
  shmApiInit : Bool
  /-- `pthread_mutex_init` of `handler_registry_init`. -/
  mutexInit : Bool
  mgmtSocket : Bool
  mgmtBind : Bool
  udpSocket : Bool

inductive Exit where
  | shm
  | registry
  | handlers
  | mgmtSocket
  | udp
  deriving DecidableEq

/-- `socket`, `unlink`, `bind`; the failed `bind` leaves the name removed. -/
def mgmtSocketCreate (res : Results) (os : Os) : Option Nat × Os :=
  if !res.mgmtSocket then (none, os)
  else
    let fd := os.nextSocket
    let os := { os with nextSocket := fd + 1, mgmtPath := none }
    if !res.mgmtBind then (none, os) else (some fd, { os with mgmtPath := some fd })

/-- The name is removed, whichever socket it leads to. -/
def mgmtSocketDestroy (os : Os) : Os := { os with mgmtPath := none }

def setupUdpSocket (res : Results) (os : Os) : Option Nat × Os :=
  if !res.udpSocket then (none, os)
  else
    let fd := os.nextSocket
    let os := { os with nextSocket := fd + 1 }
    if os.udpPort.isSome then (none, os) else (some fd, { os with udpPort := some fd })

/-- `main` up to the event loop: why it returns `EXIT_FAILURE`, or nothing if it enters the loop. -/
def startUp (res : Results) (os : Os) : Option Exit × Os :=
  let os := if res.msgget then { os with queue := [] } else os
  if !res.shmApiInit then (some .shm, os)
  else
    let registry : EventHandlerRegistry Handler Pointer := .static
    let (initRet, registry) := handlerRegistryInit res.mutexInit registry
    if initRet < 0 then (some .registry, os)
    else if (collectorMgmtRegister registry 0).1 < 0 then (some .handlers, os)
    else match mgmtSocketCreate res os with
      | (none, os) => (some .mgmtSocket, os)
      | (some _, os) => match setupUdpSocket res os with
        | (none, os) => (some .udp, mgmtSocketDestroy os)
        | (some _, os) => (none, os)

/-- The state of the machine while a Collector runs: the name and the port are its own. -/
structure Running extends Os where
  mgmtFd : Nat
  udpFd : Nat
  boundPath : mgmtPath = some mgmtFd
  boundPort : udpPort = some udpFd

/-- What the running Collector depends on is as it was. -/
structure Intact (first : Running) (os : Os) : Prop where
  mgmtPath : os.mgmtPath = some first.mgmtFd
  queue : os.queue = first.queue

theorem mgmtSocketCreate_queue (res : Results) (os : Os) :
    (mgmtSocketCreate res os).2.queue = os.queue := by
  unfold mgmtSocketCreate
  split
  · rfl
  · dsimp only
    split <;> rfl

theorem setupUdpSocket_queue (res : Results) (os : Os) :
    (setupUdpSocket res os).2.queue = os.queue := by
  unfold setupUdpSocket
  split
  · rfl
  · dsimp only
    split <;> rfl

theorem startUp_udp {res : Results} {os : Os} (h : (startUp res os).1 = some .udp) :
    (startUp res os).2.mgmtPath = none ∧ (res.msgget = true → (startUp res os).2.queue = []) := by
  unfold startUp at h ⊢
  dsimp only at h ⊢
  split at h
  · simp at h
  · rename_i hshm
    rw [if_neg hshm]
    split at h
    · simp at h
    · rename_i hinit
      rw [if_neg hinit]
      split at h
      · simp at h
      · rename_i hregister
        rw [if_neg hregister]
        split at h
        · simp at h
        · rename_i fd created hcreate
          have hqueue :=
            mgmtSocketCreate_queue res (if res.msgget then { os with queue := [] } else os)
          rw [hcreate] at hqueue
          split at h
          · rename_i failed hudp
            have hqueue' := setupUdpSocket_queue res created
            rw [hudp] at hqueue'
            refine ⟨rfl, fun hmsgget => ?_⟩
            rw [if_pos hmsgget] at hqueue
            exact hqueue'.trans hqueue
          · simp at h

/-- A start that fails at the port takes the name of its management socket from the running
Collector, whatever the queue holds. -/
theorem failed_start_never_intact (first : Running) (res : Results)
    (h : (startUp res first.toOs).1 = some .udp) : ¬ Intact first (startUp res first.toOs).2 := by
  intro hintact
  have hpath := hintact.mgmtPath
  rw [(startUp_udp h).1] at hpath
  simp at hpath

/-- A Collector with two notifications that the Router has not read yet. -/
def twoPending : Running where
  queue := [.data, .data]
  mgmtPath := some 3
  udpPort := some 4
  nextSocket := 5
  mgmtFd := 3
  udpFd := 4
  boundPath := rfl
  boundPort := rfl

def allOk : Results := ⟨true, true, true, true, true, true⟩

theorem second_start_breaks_first :
    (startUp allOk twoPending.toOs).1 = some .udp ∧
      (startUp allOk twoPending.toOs).2.mgmtPath = none ∧
      (startUp allOk twoPending.toOs).2.queue = [] := by
  have hexit : (startUp allOk twoPending.toOs).1 = some .udp := by decide +kernel
  exact ⟨hexit, (startUp_udp hexit).1, (startUp_udp hexit).2 rfl⟩

theorem twoPending_not_intact :
    (startUp allOk twoPending.toOs).1 = some .udp ∧
      ¬ Intact twoPending (startUp allOk twoPending.toOs).2 :=
  ⟨by decide +kernel, failed_start_never_intact twoPending allOk (by decide +kernel)⟩

end StudyC.Collector
