import StudyC.Lib.Runs
import StudyC.Relay.Frame

/-!
# Data in one slot, notifications in a queue

The Collector overwrites the shared memory and then queues a notification, which is dropped when
the queue is full. The worker takes a notification and then reads whatever the memory holds by then.
Datagrams are numbered in the order in which they are written.
-/

open Runs StudyC.Shm

namespace StudyC.Relay

inductive WorkerPhase where
  | atMsgrcv
  /-- It has taken the notification of write `i` and not read yet. -/
  | holding (i : Nat)
  | left
  deriving DecidableEq

def WorkerPhase.held : WorkerPhase → List Nat
  | .holding i => [i]
  | _ => []

/-- One relay: the notification it is for, the write it read, and what it handed to `send`. -/
structure Forwarded where
  notification : Nat
  write : Nat
  frame : List UInt8

structure State where
  shm : SysV
  queue : List Nat
  /-- A write that the Collector has not announced yet. -/
  collector : Option Nat
  worker : WorkerPhase
  /-- The datagrams written so far. This and the fields below only record what happened. -/
  datagrams : List (List UInt8)
  enqueued : List Nat
  dequeued : List Nat
  forwarded : List Forwarded

inductive Action where
  | write (stale : UdpBuffer) (datagram : List UInt8)
  | notify
  | dequeue
  /-- `connected` is false when `send` fails with `EPIPE` or `ECONNRESET`. -/
  | forward (tcpStale : Vector UInt8 tcpBufSize) (connected : Bool)

def step (N : Nat) (s : State) : Action → Option State
  | .write stale d => match s.collector with
    | none =>
      let o := handleUdpRead true s.shm stale d
      if o.1 then
        some { s with
          shm := o.2, collector := some s.datagrams.length, datagrams := s.datagrams ++ [d] }
      else some s
    | some _ => none
  | .notify => match s.collector with
    | some i =>
      if s.queue.length < N then
        some { s with queue := s.queue ++ [i], collector := none, enqueued := s.enqueued ++ [i] }
      else some { s with collector := none }
    | none => none
  | .dequeue => match s.worker, s.queue with
    | .atMsgrcv, i :: q =>
      some { s with queue := q, worker := .holding i, dequeued := s.dequeued ++ [i] }
    | _, _ => none
  | .forward tcpStale connected => match s.worker with
    | .holding i => match relayFrame true s.shm tcpStale with
      | some frame => some { s with
          worker := if connected then .atMsgrcv else .left
          forwarded := s.forwarded ++ [⟨i, s.datagrams.length - 1, frame⟩] }
      | none => some { s with worker := .atMsgrcv }
    | _ => none

def init (shm : SysV) : State := ⟨shm, [], none, .atMsgrcv, [], [], [], []⟩

/-! ## The property -/

structure HandoffOk (s : State) : Prop where
  /-- Relays follow the order of the writes. -/
  ordered : (s.forwarded.map Forwarded.write).Pairwise (· ≤ ·)
  /-- No relay is older than its notification, and it carries the datagram of the write it read. -/
  fresh : ∀ f ∈ s.forwarded, f.notification ≤ f.write ∧
    ∃ d, s.datagrams[f.write]? = some d ∧ f.frame = frameOf d
  /-- Notifications leave the queue in the order in which they came. -/
  fifo : s.enqueued = s.dequeued ++ s.queue
  /-- One read for each notification taken, but for the one that the worker holds. -/
  reads : s.dequeued = s.forwarded.map Forwarded.notification ++ s.worker.held
  /-- The newest notified datagram is not lost. -/
  newest : s.queue = [] → s.worker.held = [] → ∀ k, s.enqueued.getLast? = some k →
    ∃ f, s.forwarded.getLast? = some f ∧ k ≤ f.write

structure Inv (s : State) : Prop where
  carries : ∀ d, s.datagrams.getLast? = some d → Carries s.shm (payloadOf d)
  announced : ∀ i, s.collector = some i → i < s.datagrams.length
  enqueued : ∀ i ∈ s.enqueued, i < s.datagrams.length
  written : ∀ f ∈ s.forwarded, f.write < s.datagrams.length
  ordered : (s.forwarded.map Forwarded.write).Pairwise (· ≤ ·)
  fresh : ∀ f ∈ s.forwarded, f.notification ≤ f.write ∧
    ∃ d, s.datagrams[f.write]? = some d ∧ f.frame = frameOf d
  fifo : s.enqueued = s.dequeued ++ s.queue
  reads : s.dequeued = s.forwarded.map Forwarded.notification ++ s.worker.held

theorem handoffOk_of_inv {s : State} (h : Inv s) : HandoffOk s := by
  refine ⟨h.ordered, h.fresh, h.fifo, h.reads, fun hq hw k hk => ?_⟩
  have hall : s.enqueued = s.forwarded.map Forwarded.notification := by
    rw [h.fifo, h.reads, hq, hw, List.append_nil, List.append_nil]
  rw [hall, List.getLast?_map, Option.map_eq_some_iff] at hk
  obtain ⟨f, hf, rfl⟩ := hk
  exact ⟨f, hf, (h.fresh f (List.mem_of_getLast? hf)).1⟩

/-! ## Each step -/

theorem write_inv {s : State} (h : Inv s) {d : List UInt8} (hd : 1 ≤ d.length) (stale : UdpBuffer) :
    Inv { s with
      shm := (handleUdpRead true s.shm stale d).2
      collector := some s.datagrams.length
      datagrams := s.datagrams ++ [d] } := by
  have hgrow : s.datagrams.length < (s.datagrams ++ [d]).length := by simp
  refine { h with
    carries := ?_, announced := ?_, enqueued := ?_, written := ?_, fresh := ?_ }
  · intro d' hd'
    rw [List.getLast?_append, List.getLast?_singleton, Option.some_or, Option.some.injEq] at hd'
    exact hd' ▸ (handleUdpRead_carries hd s.shm stale).2
  · rintro i ⟨⟩
    exact hgrow
  · exact fun i hi => Nat.lt_trans (h.enqueued i hi) hgrow
  · exact fun f hf => Nat.lt_trans (h.written f hf) hgrow
  · intro f hf
    obtain ⟨hle, d', hd', hframe⟩ := h.fresh f hf
    exact ⟨hle, d', by rw [List.getElem?_append_left (h.written f hf), hd'], hframe⟩

theorem held_frame {s : State} (h : Inv s) {i : Nat} (hw : s.worker = .holding i)
    (tcpStale : Vector UInt8 tcpBufSize) : i < s.datagrams.length ∧
      ∃ d, s.datagrams[s.datagrams.length - 1]? = some d ∧
        relayFrame true s.shm tcpStale = some (frameOf d) := by
  have hi : i < s.datagrams.length := by
    apply h.enqueued
    rw [h.fifo, h.reads, hw, WorkerPhase.held]
    simp
  obtain ⟨d, hd⟩ : ∃ d, s.datagrams[s.datagrams.length - 1]? = some d :=
    ⟨_, List.getElem?_eq_getElem (by omega)⟩
  have hcarries := h.carries d (by rw [List.getLast?_eq_getElem?, hd])
  exact ⟨hi, d, hd, relayFrame_of_carries hcarries tcpStale⟩

theorem forward_inv {s : State} (h : Inv s) {i : Nat} (hw : s.worker = .holding i)
    (hi : i < s.datagrams.length) {d : List UInt8}
    (hd : s.datagrams[s.datagrams.length - 1]? = some d) {next : WorkerPhase}
    (hnext : next.held = []) :
    Inv { s with
      worker := next
      forwarded := s.forwarded ++ [⟨i, s.datagrams.length - 1, frameOf d⟩] } := by
  refine { h with written := ?_, ordered := ?_, fresh := ?_, reads := ?_ }
  · intro f hf
    rcases List.mem_append.mp hf with hf | hf
    · exact h.written f hf
    · rw [List.mem_singleton.mp hf]
      exact Nat.sub_one_lt (by omega)
  · -- The write just read is the last one, so no earlier relay is newer.
    rw [List.map_append, List.pairwise_append]
    refine ⟨h.ordered, List.pairwise_singleton _ _, ?_⟩
    intro j hj k hk
    obtain ⟨f, hf, rfl⟩ := List.mem_map.mp hj
    obtain rfl := List.mem_singleton.mp hk
    have := h.written f hf
    simp only
    omega
  · intro f hf
    rcases List.mem_append.mp hf with hf | hf
    · exact h.fresh f hf
    · rw [List.mem_singleton.mp hf]
      exact ⟨Nat.le_sub_one_of_lt hi, d, hd, rfl⟩
  · rw [h.reads, hw, hnext, List.map_append, List.append_nil]
    rfl

theorem step_inv {N : Nat} (s : State) (a : Action) (s' : State) (h : Inv s)
    (hs : step N s a = some s') : Inv s' := by
  cases a with
  | write stale d =>
    simp only [step] at hs
    split at hs
    · split at hs
      · rename_i hret
        obtain rfl := Option.some.inj hs
        apply write_inv h
        by_contra hempty
        rw [handleUdpRead, if_pos (by omega)] at hret
        simp at hret
      · obtain rfl := Option.some.inj hs
        exact h
    · simp at hs
  | notify =>
    simp only [step] at hs
    split at hs
    · rename_i i hc
      split at hs
      · obtain rfl := Option.some.inj hs
        refine { h with announced := ?_, enqueued := ?_, fifo := ?_ }
        · rintro j ⟨⟩
        · intro j hj
          rcases List.mem_append.mp hj with hj | hj
          · exact h.enqueued j hj
          · rw [List.mem_singleton.mp hj]
            exact h.announced i hc
        · rw [h.fifo, List.append_assoc]
      · obtain rfl := Option.some.inj hs
        refine { h with announced := ?_ }
        rintro j ⟨⟩
    · simp at hs
  | dequeue =>
    simp only [step] at hs
    split at hs
    · rename_i i q hw hq
      obtain rfl := Option.some.inj hs
      refine { h with fifo := ?_, reads := ?_ }
      · rw [h.fifo, hq, List.append_assoc]
        rfl
      · simp [h.reads, hw, WorkerPhase.held]
    · simp at hs
  | forward tcpStale connected =>
    simp only [step] at hs
    split at hs
    · rename_i i hw
      obtain ⟨hi, d, hd, hframe⟩ := held_frame h hw tcpStale
      rw [hframe] at hs
      obtain rfl := Option.some.inj hs
      apply forward_inv h hw hi hd
      cases connected <;> rfl
    · simp at hs

/-- In every interleaving, relays keep the order of the writes, are never older than their
notification, and the newest notified datagram gets through. -/
theorem handoff_ok (N : Nat) (shm : SysV) (s : State) (hs : Reachable (step N) (init shm) s) :
    HandoffOk s := by
  apply handoffOk_of_inv
  refine hs.invariant ?_ fun s a s' => step_inv s a s'
  exact ⟨by simp [init], by simp [init], by simp [init], by simp [init], by simp [init],
    by simp [init], rfl, rfl⟩

/-- The second datagram overwrites the first before the worker reads, and its own notification finds
the queue full. -/
def overwritten : List Action :=
  [.write (.replicate _ 0) [97], .notify, .write (.replicate _ 0) [98], .notify, .dequeue,
    .forward (.replicate _ 0) true]

theorem overwritten_handoff :
    ∃ s, exec (step 1) (init (.zero _)) overwritten = some s ∧ s.enqueued = [0] ∧ HandoffOk s :=
  ⟨_, rfl, rfl, handoff_ok 1 (.zero _) _ ⟨overwritten, rfl⟩⟩

end StudyC.Relay
