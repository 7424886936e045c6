import Mathlib.Data.Prod.Lex
import StudyC.Lib.Fairness
import StudyC.Router.Management
import StudyC.Router.WayOut

/-!
# Router comes to an end

`Shutdown` says that what the threads wait for is there. Here they get it: in every fair run `main`
returns once it has been told to stop, or once the worker has given up. The run is fair to the
threads and to those outside whom they wait for: who has the mutex of the shared memory, the Viewer,
and the clients of the management socket. The measure has the way out of `main` first, then the way
out of the thread that it waits for, and last the replies that the client of that thread has to
read.
-/

open Runs

namespace StudyC.Router.Management

open Mgmt.Worker

/-! ## The way out of the process -/

inductive Mover where
  | main
  | worker
  | mgmt
  /-- Who has the mutex of the shared memory lets it go. -/
  | shm
  /-- The connection to the Viewer takes data, or breaks. -/
  | viewer
  /-- A client of the management socket that has replies to read. -/
  | client (c : Client)
  deriving DecidableEq

/-- Who lets the call return that the worker is in. -/
def waitsFor : WorkerPhase → Mover
  | .reading => .shm
  | .sending => .viewer
  | _ => .worker

/-- Whose step an action is. The Collector, the signals and the requests come from outside, and so
do the failures of the calls on the queues and of the `sendto` of a reply. -/
def mover (s : State) : Action → Option Mover
  | .base (.main .fail) =>
    if s.base.main = .wait ∨ SendingQuit s.base.main then none else some .main
  | .base (.main _) => some .main
  | .base (.worker res) =>
    if s.base.worker = .atMsgrcv ∧ res = .fail then none else some (waitsFor s.base.worker)
  | .mgmt res => if s.mgmt.moves res then some .mgmt else none
  | .mgmtClient a => if 0 < s.mgmt.clients.unread a.owner then some (.client a.owner) else none
  | .destroyRegistry => if s.destroyed then none else some .main
  | .ret => if s.returned then none else some .main
  | .base _ | .request _ _ => none

/-- The last place in the queue is not taken while `main` waits for one. -/
def LastPlaceKept (N : Nat) (s : Router.State) : Router.Action → Prop
  | .collectorNotify => s.collector = .running → SendingQuit s.main → s.queue.length < N →
    s.queue.length + 1 < N
  | _ => True

/-- No Collector and no failing `msgsnd` gets in the way of the QUITs. -/
def Undisturbed (N : Nat) (s : State) : Action → Prop
  | .base a => QuitKept s.base a ∧ RoomKept N s.base a ∧ LastPlaceKept N s.base a
  | _ => True

/-- `main` if it can go on, or else who lets the thread go on that it waits for. -/
def helpful (N : Nat) (s : State) : Mover :=
  match s.base.main with
  | .quitSetup | .quitSignal | .quitPost =>
    if s.base.queue.length < N then .main else waitsFor s.base.worker
  | .joinMgmt =>
    if s.base.mgmtWorker then if 0 < s.mgmt.excess then .client s.mgmt.client else .mgmt else .main
  | .joinWorker => if s.base.worker = .terminated then .main else waitsFor s.base.worker
  | _ => .main

def waitRank (N : Nat) (s : State) : Nat :=
  match s.base.main with
  | .quitSetup | .quitSignal | .quitPost =>
    if s.base.queue.length < N then 0 else workerRank s.base.queue.length s.base.worker
  | .joinMgmt => if s.base.mgmtWorker then s.mgmt.phase.rank (fun _ => 0) .send else 0
  | .joinWorker => workerRank (lastQuit s.base.queue) s.base.worker
  | _ => 0

def replyRank (s : State) : Nat :=
  match s.base.main with
  | .joinMgmt => if s.base.mgmtWorker then s.mgmt.excess else 0
  | _ => 0

def exitRank (s : State) : Nat :=
  if s.returned then 0 else if s.destroyed then 1 else mainRank s.base + 2

def rank (N : Nat) (s : State) : Nat ×ₗ Nat ×ₗ Nat :=
  toLex (exitRank s, toLex (waitRank N s, replyRank s))

structure Live (N : Nat) (s : State) : Prop where
  quit : QuitInv s.base
  room : RoomInv N s.base
  stop : StopInv s.base
  mgmt : Inv s

theorem init_live (N : Nat) (queue : List Notify) (collector : CollectorPhase)
    (clients : Mailboxes.State Client) : Live N (init queue collector true clients) := by
  refine ⟨⟨init_shape _ _ _, fun ha => ?_⟩, ⟨init_shape _ _ _, fun ht => ?_⟩, init_stopInv _ _,
    init_inv _ _ _ _⟩
  · cases ha
  · cases ht

theorem step_base {N : Nat} {s s' : State} {a : Action} (hs : step N s a = some s') :
    (∃ b, Router.step N s.base b = some s'.base ∧
      (a = .base b ∨ (∃ res, a = .mgmt res) ∧ (b = .mgmtShutdown ∨ b = .mgmtEnd))) ∨
        s'.base = s.base := by
  cases a with
  | base b =>
    left
    cases b with
    | mgmtShutdown | mgmtEnd => simp [step] at hs
    | _ =>
      have hs : baseStep N s _ = some s' := hs
      obtain ⟨b', hb, rfl⟩ := Option.map_eq_some_iff.mp hs
      exact ⟨_, hb, Or.inl rfl⟩
  | mgmt res =>
    simp only [step, mgmtStep] at hs
    split at hs
    · obtain ⟨b', hb, rfl⟩ := Option.map_eq_some_iff.mp hs
      exact Or.inl ⟨_, hb, Or.inr ⟨⟨res, rfl⟩, Or.inl rfl⟩⟩
    · obtain ⟨t, -, hs⟩ := Option.bind_eq_some_iff.mp hs
      split at hs
      · obtain ⟨b', hb, rfl⟩ := Option.map_eq_some_iff.mp hs
        exact Or.inl ⟨_, hb, Or.inr ⟨⟨res, rfl⟩, Or.inr rfl⟩⟩
      · obtain rfl := Option.some.inj hs
        exact Or.inr rfl
  | request c r =>
    obtain rfl := Option.some.inj hs
    exact Or.inr rfl
  | mgmtClient a =>
    obtain ⟨t, -, rfl⟩ := Option.map_eq_some_iff.mp hs
    exact Or.inr rfl
  | destroyRegistry | ret =>
    simp only [step, Option.ite_none_right_eq_some, Option.some.injEq] at hs
    obtain ⟨-, rfl⟩ := hs
    exact Or.inr rfl

theorem step_live {N : Nat} (s : State) (a : Action) (s' : State) (h : Live N s)
    (hP : Undisturbed N s a) (hs : step N s a = some s') : Live N s' := by
  have hmgmt := step_inv N s a s' h.mgmt hs
  rcases step_base hs with ⟨b, hb, ha⟩ | hbase
  · have hP' : QuitKept s.base b ∧ RoomKept N s.base b := by
      rcases ha with rfl | ⟨-, rfl | rfl⟩
      · exact ⟨hP.1, hP.2.1⟩
      · exact ⟨trivial, trivial⟩
      · exact ⟨trivial, trivial⟩
    exact ⟨step_quitInv _ b _ h.quit hP'.1 hb, step_roomInv _ b _ h.room hP'.2 hb,
      step_stopInv _ b _ h.stop hb, hmgmt⟩
  · exact ⟨by rw [hbase]; exact h.quit, by rw [hbase]; exact h.room, by rw [hbase]; exact h.stop,
      hmgmt⟩

theorem worker_created {N : Nat} {s : State} (h : Live N s) (he : ¬ Early s.base.main)
    (hx : s.base.main ≠ .exited) : s.base.worker ≠ .notCreated := by
  intro hw
  rcases h.stop.created hw with he' | hx'
  · exact he he'
  · exact hx hx'

theorem worker_runs {N : Nat} {s : State} (h : Live N s) (hsend : SendingQuit s.base.main)
    (hfull : ¬ s.base.queue.length < N) :
    s.base.worker ≠ .notCreated ∧ s.base.worker ≠ .terminated := by
  -- a worker that has gone leaves room for the QUIT
  refine ⟨worker_created h ?_ ?_, fun hterm => ?_⟩
  · rcases hsend with hm | hm | hm <;> simp [Early, hm]
  · rcases hsend with hm | hm | hm <;> simp [hm]
  · have hroom := h.room.room hterm
    have hdue : 0 < quitsDue s.base := by
      rcases hsend with hm | hm | hm <;> simp [quitsDue, hm]
    omega

theorem enabled_base {N : Nat} {s : State} {b : Router.Action} {m : Mover}
    (hm : mover s (.base b) = some m) (hb : (Router.step N s.base b).isSome = true) :
    Enabled (step N) mover m s := by
  refine ⟨.base b, hm, ?_⟩
  cases b with
  | mgmtShutdown | mgmtEnd => simp [mover] at hm
  | _ =>
    simp only [step, baseStep, Option.isSome_map]
    exact hb

theorem enabled_worker {N : Nat} {s : State} (hipc : s.base.ipcMsqid = true)
    (hnot : s.base.worker ≠ .notCreated) (hterm : s.base.worker ≠ .terminated)
    (hq : s.base.worker = .atMsgrcv → s.base.queue ≠ []) :
    Enabled (step N) mover (waitsFor s.base.worker) s := by
  obtain ⟨res, hfail, hres⟩ := exists_workerStep hipc hnot hterm hq
  refine enabled_base (b := .worker res) ?_ hres
  simp only [mover]
  rw [if_neg (by rintro ⟨hw, rfl⟩; exact hfail hw rfl)]

theorem enabled_mgmt {N : Nat} {s : State} (h : Inv s) (hrun : s.base.mgmtWorker = true)
    (hsend : s.mgmt.excess = 0) : Enabled (step N) mover .mgmt s := by
  have hgone : s.mgmt.phase.gone = false := by simpa [hrun] using h.worker
  by_cases hh : ∃ p, s.mgmt.phase = .handler p
  · obtain ⟨⟨⟩, hp⟩ := hh
    exact ⟨.mgmt .ok, by simp [mover, Thread.moves, hp], by simp [step, mgmtStep, hp,
      Router.step, hrun]⟩
  · obtain ⟨res, hmoves, hres⟩ :=
      exists_step s.base.keepRunning HandlerPhase.send hgone (fun p hp => hh ⟨p, hp⟩) hsend
    obtain ⟨t, ht⟩ := Option.isSome_iff_exists.mp hres
    refine ⟨.mgmt res, by simp [mover, hmoves], ?_⟩
    simp only [step, mgmtStep]
    split
    · exact absurd ⟨_, ‹_›⟩ hh
    · rw [ht, Option.bind_some]
      split <;> rfl

theorem enabled_client {N : Nat} {s : State} (hsend : 0 < s.mgmt.excess) :
    Enabled (step N) mover (.client s.mgmt.client) s := by
  obtain ⟨hpos, htake⟩ := exists_clientStep hsend
  refine ⟨.mgmtClient (.take s.mgmt.client), by simp [mover, Mailboxes.Action.owner, hpos], ?_⟩
  simp [step, htake]

theorem enabled_sending {N : Nat} (hN : 0 < N) {s : State} (h : Live N s)
    (hsend : SendingQuit s.base.main) :
    Enabled (step N) mover (if s.base.queue.length < N then .main
      else waitsFor s.base.worker) s := by
  split
  · rename_i hlt
    refine enabled_base (b := .main .ok) rfl ?_
    rcases hsend with hm | hm | hm <;> simp [Router.step, mainStep, sendQuit, hm, hlt, h.stop.ipc]
  · rename_i hfull
    obtain ⟨hnot, hterm⟩ := worker_runs h hsend hfull
    exact enabled_worker h.stop.ipc hnot hterm fun _ => List.ne_nil_of_length_pos (by omega)

theorem live_enabled {N : Nat} (hN : 0 < N) {s : State} (h : Live N s)
    (hstop : StopRequested s.base) (hret : ¬ s.returned = true) :
    Enabled (step N) mover (helpful N s) s := by
  -- no deadlock: the thread that `main` waits for can take a step, or `main` can
  have hsend := enabled_sending hN h
  unfold helpful
  cases hm : s.base.main with
  | purge => simp [StopRequested, hm] at hstop
  | quitSetup => exact hsend (Or.inl hm)
  | quitSignal => exact hsend (Or.inr (Or.inl hm))
  | quitPost => exact hsend (Or.inr (Or.inr hm))
  | joinMgmt =>
    simp only
    repeat' split
    · exact enabled_client ‹_›
    · exact enabled_mgmt h.mgmt ‹_› (by omega)
    · exact enabled_base (b := .main .ok) rfl (by simp [Router.step, mainStep, *])
  | joinWorker =>
    simp only
    split
    · exact enabled_base (b := .main .ok) rfl (by simp [Router.step, mainStep, *])
    · rename_i hterm
      refine enabled_worker h.stop.ipc (worker_created h (by simp [Early, hm]) (by simp [hm])) hterm
        fun hw => ?_
      exact List.ne_nil_of_mem (h.quit.quit (by simp [hw, Alive]) (by simp [quitsDue, hm]))
  | wait =>
    obtain ⟨e, he, -⟩ := List.any_eq_true.mp (by simpa [StopRequested, hm] using hstop)
    obtain ⟨e', es, hq⟩ := List.exists_cons_of_ne_nil (List.ne_nil_of_mem he)
    refine enabled_base (b := .main .ok) rfl ?_
    cases e' <;> simp [Router.step, mainStep, mainReceive, hm, hq]
    split <;> rfl
  | exited =>
    by_cases hd : s.destroyed = true
    · exact ⟨.ret, by simp [mover, hret], by simp [step, hd]⟩
    · exact ⟨.destroyRegistry, by simp [mover, hd], by simp [step, hm]⟩
  | _ => exact enabled_base (b := .main .ok) rfl (by simp [Router.step, mainStep, hm])

/-! ## One step -/

theorem helpful_sending {N : Nat} {s : State} (hsend : SendingQuit s.base.main) :
    helpful N s = if s.base.queue.length < N then .main else waitsFor s.base.worker := by
  rcases hsend with hm | hm | hm <;> simp only [helpful, hm]

theorem waitRank_sending {N : Nat} {s : State} (hsend : SendingQuit s.base.main) :
    waitRank N s = if s.base.queue.length < N then 0
      else workerRank s.base.queue.length s.base.worker := by
  rcases hsend with hm | hm | hm <;> simp only [waitRank, hm]

/-- `main` waits for no other thread of the process. -/
def Free (m : MainPhase) : Prop := ¬ SendingQuit m ∧ m ≠ .joinMgmt ∧ m ≠ .joinWorker

theorem phase_cases (m : MainPhase) : SendingQuit m ∨ m = .joinMgmt ∨ m = .joinWorker ∨ Free m := by
  unfold Free
  tauto

theorem free_helpful {N : Nat} {s : State} (h : Free s.base.main) :
    helpful N s = .main ∧ waitRank N s = 0 := by
  obtain ⟨hsend, hmgmt, hworker⟩ := h
  unfold SendingQuit at hsend
  unfold helpful waitRank
  cases hm : s.base.main <;> simp_all

theorem waitsFor_ne (w : WorkerPhase) :
    waitsFor w ≠ .main ∧ waitsFor w ≠ .mgmt ∧ ∀ c, waitsFor w ≠ .client c := by
  cases w <;> simp [waitsFor]

theorem helpful_client {N : Nat} {s : State} {c : Client} (h : helpful N s = .client c) :
    s.base.main = .joinMgmt ∧ s.base.mgmtWorker = true ∧ c = s.mgmt.client ∧ 0 < s.mgmt.excess := by
  -- a client is waited for only while `main` joins the thread that replies to it
  have hne := (waitsFor_ne s.base.worker).2.2 c
  unfold helpful at h
  repeat' split at h
  all_goals simp_all

theorem replyRank_eq_zero {s : State} (hm : s.base.main ≠ .joinMgmt) : replyRank s = 0 := by
  unfold replyRank
  split
  · contradiction
  · rfl

/-- The thread that is waited for comes nearer to its end, or its client reads, or another moves and
leaves both alone. -/
def Settles (N : Nat) (s s' : State) (moved : Option Mover) : Prop :=
  waitRank N s' < waitRank N s ∨ waitRank N s' = waitRank N s ∧
    (replyRank s' < replyRank s ∨
      replyRank s' = replyRank s ∧ helpful N s' = helpful N s ∧ moved ≠ some (helpful N s))

theorem settles_elsewhere {N : Nat} {s s' : State} {moved : Option Mover}
    (hm : s'.base.main = s.base.main) (hmain : s.base.main ≠ .joinMgmt)
    (h : waitRank N s' < waitRank N s ∨ waitRank N s' = waitRank N s ∧ helpful N s' = helpful N s ∧
      moved ≠ some (helpful N s)) :
    Settles N s s' moved := by
  -- away from the join of the management thread nobody waits for a client
  rcases h with hlt | ⟨heq, hrest⟩
  · exact Or.inl hlt
  · exact Or.inr ⟨heq,
      Or.inr ⟨by rw [replyRank_eq_zero hmain, replyRank_eq_zero (hm ▸ hmain)], hrest⟩⟩

theorem sendingQuit_ne_joinMgmt {m : MainPhase} (h : SendingQuit m) : m ≠ .joinMgmt := by
  rcases h with rfl | rfl | rfl <;> simp

theorem main_exitRank {N : Nat} {s s' : State} {res : Result} (h : Live N s)
    (hstop : StopRequested s.base) (hs : step N s (.base (.main res)) = some s') :
    StopRequested s'.base ∧ exitRank s' < exitRank s := by
  obtain ⟨b, hb, rfl⟩ := Option.map_eq_some_iff.mp hs
  have hx : ¬ (s.destroyed = true ∨ s.returned = true) := by
    intro hd
    cases res <;> simp [Router.step, mainStep, h.mgmt.ended hd] at hb
  obtain ⟨hd, hr⟩ := not_or.mp hx
  obtain ⟨hstop', hlt⟩ := mainStep_rank h.stop.shape.stopping hstop hb
  refine ⟨hstop', ?_⟩
  simp only [exitRank, hd, hr, Bool.false_eq_true, if_false]
  omega

theorem baseStep_aside {N : Nat} {s s' : State} {b : Router.Action} (hmain : ∀ res, b ≠ .main res)
    (hend : b ≠ .mgmtEnd) (hs : baseStep N s b = some s') :
    Router.step N s.base b = some s'.base ∧ s'.base.mgmtWorker = s.base.mgmtWorker ∧
      s'.mgmt = s.mgmt ∧
      s'.destroyed = s.destroyed ∧ s'.returned = s.returned := by
  obtain ⟨b', hb, rfl⟩ := Option.map_eq_some_iff.mp hs
  have hsame := (step_aside hmain hb).mgmtWorker hend
  refine ⟨hb, hsame, ?_, rfl, rfl⟩
  simp [hsame]

theorem worker_settles {N : Nat} {s s' : State} {res : Result} (h : Live N s)
    (hs : step N s (.base (.worker res)) = some s') :
    Settles N s s' (mover s (.base (.worker res))) := by
  by_cases hfail : s.base.worker = .atMsgrcv ∧ res = .fail
  · -- `msgrcv` has failed, and nothing has changed
    obtain ⟨hw, rfl⟩ := hfail
    have hsame : s' = s := by
      simp only [step, baseStep, Router.step, workerStep, hw, Option.map_some,
        Option.some.injEq] at hs
      simp [← hs]
    exact Or.inr ⟨by rw [hsame], Or.inr ⟨by rw [hsame], by rw [hsame], by simp [mover, hw]⟩⟩
  have hmoved : mover s (.base (.worker res)) = some (waitsFor s.base.worker) := if_neg hfail
  rw [hmoved]
  have hres : s.base.worker = .atMsgrcv → res ≠ .fail := fun hw hr => hfail ⟨hw, hr⟩
  obtain ⟨hmain, hmgmt, hclient⟩ := waitsFor_ne s.base.worker
  obtain ⟨hb, hworker, hthread, -⟩ := baseStep_aside (by simp) (by simp) hs
  have hm := (step_aside (by simp) hb).main
  rcases phase_cases s.base.main with hsend | hphase | hphase | hfree
  · refine settles_elsewhere hm (sendingQuit_ne_joinMgmt hsend) ?_
    have hle := workerStep_queue hb
    have hlt := workerStep_rank List.length (fun _ m q hq => by simp [hq]) hres hb
    rw [helpful_sending hsend, helpful_sending (hm ▸ hsend), waitRank_sending hsend,
      waitRank_sending (hm ▸ hsend)]
    by_cases hroom : s.base.queue.length < N
    · simp [hroom, lt_of_le_of_lt hle hroom, hmain]
    · left
      rw [if_neg hroom]
      split <;> omega
  · simp only [Settles, waitRank, replyRank, helpful, hm, hphase, hworker, hthread, true_and]
    refine Or.inr (Or.inr ?_)
    repeat' split
    · simpa using hclient s.mgmt.client
    · simpa using hmgmt
    · simpa using hmain
  · refine settles_elsewhere hm (by simp [hphase]) (Or.inl ?_)
    simp only [waitRank, hm, hphase]
    refine workerStep_rank lastQuit ?_ hres hb
    intro hw m q hq
    have hquit := h.quit.quit (by simp [hw, Alive]) (by simp [quitsDue, hphase])
    rw [hq] at hquit ⊢
    exact lastQuit_cons_lt hquit
  · refine settles_elsewhere hm hfree.2.1 (Or.inr ?_)
    rw [(free_helpful hfree).1, (free_helpful hfree).2, (free_helpful (hm ▸ hfree)).1,
      (free_helpful (hm ▸ hfree)).2]
    simpa using hmain

theorem outside_settles {N : Nat} {s s' : State} {b : Router.Action} (h : Live N s)
    (hP : LastPlaceKept N s.base b) (hkept : MainKept s.base s'.base)
    (hout : OutsideEffect N s.base b s'.base) (hworker : s'.base.mgmtWorker = s.base.mgmtWorker)
    (hmgmt : s'.mgmt = s.mgmt) : Settles N s s' none := by
  have hm := hkept.main
  have hw := hout.1
  rcases phase_cases s.base.main with hsend | hmain | hmain | hfree
  · refine settles_elsewhere hm (sendingQuit_ne_joinMgmt hsend) ?_
    rw [helpful_sending hsend, helpful_sending (hm ▸ hsend), waitRank_sending hsend,
      waitRank_sending (hm ▸ hsend), hw]
    rcases hout.2 with hq | ⟨-, -, x, hq⟩ | ⟨rfl, hc, hlt, hq⟩
    · simp [hq]
    · -- a purge makes room, or brings it nearer
      have hlen : s.base.queue.length = s'.base.queue.length + 1 := by simp [hq]
      by_cases hroom : s.base.queue.length < N
      · simp [hroom, show s'.base.queue.length < N by omega]
      · have hpos := workerRank_pos s.base.queue.length (worker_runs h hsend hroom).1
          (worker_runs h hsend hroom).2
        have hmono :=
          workerRank_mono (show s'.base.queue.length ≤ s.base.queue.length by omega) s.base.worker
        rw [if_neg hroom, if_neg hroom]
        split
        · exact Or.inl hpos
        · rcases Nat.lt_or_eq_of_le hmono with hlt | heq
          · exact Or.inl hlt
          · exact Or.inr ⟨heq, rfl, by simp⟩
    · have hlast := hP hc hsend hlt
      simp [hq, hlt, hlast]
  · simp [Settles, waitRank, replyRank, helpful, hm, hmain, hworker, hmgmt]
  · refine settles_elsewhere hm (by simp [hmain]) ?_
    simp only [waitRank, helpful, hm, hmain, hw, true_and]
    have hmono := workerRank_mono hout.lastQuit_le s.base.worker
    rcases Nat.lt_or_eq_of_le hmono with hlt | heq
    · exact Or.inl hlt
    · exact Or.inr ⟨heq, by simp⟩
  · exact settles_elsewhere hm hfree.2.1 (by simp [free_helpful hfree, free_helpful (hm ▸ hfree)])

theorem mgmtStep_effect {N : Nat} {s s' : State} {res : Outcome} (hs : mgmtStep N s res = some s') :
    MainKept s.base s'.base ∧ s'.base.queue = s.base.queue ∧ s'.base.worker = s.base.worker ∧
      s'.destroyed = s.destroyed ∧ s'.returned = s.returned ∧ s.mgmt.phase.gone = false ∧
      (s.base.keepRunning = false →
        s'.mgmt.phase.rank (fun _ => 0) .send < s.mgmt.phase.rank (fun _ => 0) .send) := by
  unfold mgmtStep at hs
  split at hs
  · rename_i hp
    obtain ⟨b, hb, rfl⟩ := Option.map_eq_some_iff.mp hs
    simp only [Router.step, Option.ite_none_right_eq_some, Option.some.injEq] at hb
    obtain ⟨-, rfl⟩ := hb
    exact ⟨⟨rfl, rfl, Or.inr ⟨_, rfl⟩⟩, rfl, rfl, rfl, rfl, by simp [hp, Phase.gone], fun _ => by
      simp [hp, Phase.rank, Thread.goto]⟩
  · obtain ⟨t, ht, hs⟩ := Option.bind_eq_some_iff.mp hs
    have hrun := (step_runs ht).1
    have hrank : s.base.keepRunning = false →
        t.phase.rank (fun _ => 0) .send < s.mgmt.phase.rank (fun _ => 0) .send := by
      intro hk
      rw [hk] at ht
      exact step_rank _ ht
    split at hs
    · obtain ⟨b, hb, rfl⟩ := Option.map_eq_some_iff.mp hs
      obtain rfl := Option.some.inj hb
      exact ⟨⟨rfl, rfl, Or.inl rfl⟩, rfl, rfl, rfl, rfl, hrun, hrank⟩
    · obtain rfl := Option.some.inj hs
      exact ⟨⟨rfl, rfl, Or.inl rfl⟩, rfl, rfl, rfl, rfl, hrun, hrank⟩

theorem mgmt_settles {N : Nat} {s s' : State} {res : Outcome} (h : Live N s)
    (hs : mgmtStep N s res = some s') : Settles N s s' (mover s (.mgmt res)) := by
  have hmoved : ∀ x, x ≠ .mgmt → mover s (.mgmt res) ≠ some x := by
    intro x hx
    simp only [mover]
    split
    · exact fun heq => hx (Option.some.inj heq).symm
    · simp
  obtain ⟨hkept, hq, hw, -, -, hrun, hrank⟩ := mgmtStep_effect hs
  have hm := hkept.main
  have hne := (waitsFor_ne s.base.worker).2.1
  rcases phase_cases s.base.main with hsend | hmain | hmain | hfree
  · refine settles_elsewhere hm (sendingQuit_ne_joinMgmt hsend) ?_
    rw [helpful_sending hsend, helpful_sending (hm ▸ hsend), waitRank_sending hsend,
      waitRank_sending (hm ▸ hsend), hw, hq]
    refine Or.inr ⟨rfl, rfl, hmoved _ ?_⟩
    split
    · simp
    · exact hne
  · have hmgmt : s.base.mgmtWorker = true := by simpa [hrun] using h.mgmt.worker
    have hlt := hrank (h.stop.flag (Or.inr hmain))
    left
    simp only [waitRank, hm, hmain, hmgmt, if_true]
    split <;> omega
  · refine settles_elsewhere hm (by simp [hmain]) ?_
    simp only [waitRank, helpful, hm, hmain, hw, hq, true_and]
    refine Or.inr (hmoved _ ?_)
    split
    · simp
    · exact hne
  · refine settles_elsewhere hm hfree.2.1 (Or.inr ?_)
    rw [(free_helpful hfree).1, (free_helpful hfree).2, (free_helpful (hm ▸ hfree)).1,
      (free_helpful (hm ▸ hfree)).2]
    exact ⟨rfl, rfl, hmoved _ (by simp)⟩

theorem client_settles {N : Nat} {s s' : State} {a : Mailboxes.Action Client}
    (hs : step N s (.mgmtClient a) = some s') : Settles N s s' (mover s (.mgmtClient a)) := by
  obtain ⟨t, ht, rfl⟩ := Option.map_eq_some_iff.mp hs
  obtain ⟨hle, hlt⟩ := clientStep_excess ht
  obtain ⟨clients, -, rfl⟩ := Option.map_eq_some_iff.mp ht
  have hmoved : mover s (.mgmtClient a) = some (helpful N s) →
      (s.base.main = .joinMgmt ∧ s.base.mgmtWorker = true) ∧ a.owner = s.mgmt.client ∧
      0 < s.mgmt.excess := by
    intro heq
    simp only [mover] at heq
    split at heq
    · exact and_assoc.mpr (helpful_client (Option.some.inj heq).symm)
    · simp at heq
  refine Or.inr ⟨rfl, ?_⟩
  by_cases hjoin : s.base.main = .joinMgmt ∧ s.base.mgmtWorker = true
  · rcases Nat.lt_or_eq_of_le hle with hless | heq
    · left
      simpa only [replyRank, hjoin, if_true] using hless
    · right
      refine ⟨by simpa only [replyRank, hjoin, if_true] using heq, by simp only [helpful, hjoin,
        heq], ?_⟩
      intro hclient
      obtain ⟨-, howner, hpos⟩ := hmoved hclient
      exact absurd (hlt howner hpos) (by omega)
  · right
    refine ⟨?_, ?_, fun hclient => hjoin (hmoved hclient).1⟩
    · unfold replyRank
      repeat' split
      all_goals first | rfl | simp_all
    · unfold helpful
      repeat' split
      all_goals first | rfl | simp_all

theorem exitRank_kept {s s' : State} (hstop : StopRequested s.base)
    (hkept : MainKept s.base s'.base) (hd : s'.destroyed = s.destroyed)
    (hr : s'.returned = s.returned) : exitRank s' = exitRank s := by
  rw [exitRank, hd, hr, (hkept.rank hstop).2, exitRank]

theorem rank_lt {N : Nat} {s s' : State} (h : exitRank s' < exitRank s) : rank N s' < rank N s :=
  Prod.Lex.toLex_lt_toLex.mpr (Or.inl h)

theorem Settles.rank {N : Nat} {s s' : State} {moved : Option Mover} (h : Settles N s s' moved)
    (hexit : exitRank s' = exitRank s) :
    rank N s' < rank N s ∨
      rank N s' = rank N s ∧ helpful N s' = helpful N s ∧ moved ≠ some (helpful N s) := by
  rcases h with hlt | ⟨heq, hlt | ⟨heq', hrest⟩⟩
  · exact Or.inl (Prod.Lex.toLex_lt_toLex.mpr
      (Or.inr ⟨hexit, Prod.Lex.toLex_lt_toLex.mpr (Or.inl hlt)⟩))
  · exact Or.inl (Prod.Lex.toLex_lt_toLex.mpr
      (Or.inr ⟨hexit, Prod.Lex.toLex_lt_toLex.mpr (Or.inr ⟨heq, hlt⟩)⟩))
  · exact Or.inr ⟨by rw [Management.rank, Management.rank, hexit, heq, heq'], hrest⟩

theorem step_progress {N : Nat} (s : State) (a : Action) (s' : State) (h : Live N s)
    (hstop : StopRequested s.base) (hret : ¬ s.returned = true) (hP : Undisturbed N s a)
    (hs : step N s a = some s') :
    StopRequested s'.base ∧ (rank N s' < rank N s ∨
      rank N s' = rank N s ∧ helpful N s' = helpful N s ∧ mover s a ≠ some (helpful N s)) := by
  cases a with
  | base b =>
    cases b with
    | mgmtShutdown | mgmtEnd => simp [step] at hs
    | main res =>
      obtain ⟨hstop', hlt⟩ := main_exitRank h hstop hs
      exact ⟨hstop', Or.inl (rank_lt hlt)⟩
    | worker res =>
      obtain ⟨hb, -, -, hd, hr⟩ := baseStep_aside (by simp) (by simp) hs
      have hkept := (workerStep_effect hb).1
      exact ⟨(hkept.rank hstop).1, (worker_settles h hs).rank (exitRank_kept hstop hkept hd hr)⟩
    | _ =>
      obtain ⟨hb, hworker, hmgmt, hd, hr⟩ := baseStep_aside (by simp) (by simp) hs
      obtain ⟨res, ha, -⟩ | ⟨res, ha, -⟩ | ⟨hkept, hout⟩ := step_effect hb
      · cases ha
      · cases ha
      · exact ⟨(hkept.rank hstop).1,
          (outside_settles h hP.2.2 hkept hout hworker hmgmt).rank
          (exitRank_kept hstop hkept hd hr)⟩
  | mgmt res =>
    obtain ⟨hkept, -, -, hd, hr, -⟩ := mgmtStep_effect hs
    exact ⟨(hkept.rank hstop).1, (mgmt_settles h hs).rank (exitRank_kept hstop hkept hd hr)⟩
  | request c r =>
    obtain rfl := Option.some.inj hs
    exact ⟨hstop, Or.inr ⟨rfl, rfl, by simp [mover]⟩⟩
  | mgmtClient a =>
    have hsettles := client_settles hs
    obtain ⟨t, -, rfl⟩ := Option.map_eq_some_iff.mp hs
    exact ⟨hstop, hsettles.rank rfl⟩
  | destroyRegistry =>
    simp only [step, Option.ite_none_right_eq_some, Option.some.injEq] at hs
    obtain ⟨-, rfl⟩ := hs
    refine ⟨hstop, ?_⟩
    cases hd : s.destroyed with
    | false => exact Or.inl (rank_lt (by simp [exitRank, hret, hd]))
    | true =>
      exact Or.inr ⟨by simp [rank, exitRank, waitRank, replyRank, hd], rfl, by simp [mover, hd]⟩
  | ret =>
    simp only [step, Option.ite_none_right_eq_some, Option.some.injEq] at hs
    obtain ⟨hd, rfl⟩ := hs
    exact ⟨hstop, Or.inl (rank_lt (by simp [exitRank, hret, hd]))⟩

/-- In every fair run of a Router that has its notification queue, and in which nothing gets in the
way of the QUITs, it returns once it has been told to stop, and also once its worker has left. -/
theorem returns {N : Nat} (hN : 0 < N) {queue : List Notify} {collector : CollectorPhase}
    {clients : Mailboxes.State Client} (r : InfRun (step N))
    (hinit : r.state 0 = init queue collector true clients) (hfair : r.Fair mover)
    (hP : r.Meets 0 (Undisturbed N)) (n : Nat)
    (hstop : StopRequested (r.state n).base ∨ Left (r.state n).base.worker) :
    ∃ m, n ≤ m ∧ (r.state m).returned = true := by
  have hlive : Live N (r.state n) :=
    r.invariant step_live hP (hinit ▸ init_live N queue collector clients) (Nat.zero_le n)
  have hstop' : StopRequested (r.state n).base := hstop.elim id hlive.stop.worker
  refine InfRun.reaches (I := fun s => Live N s ∧ StopRequested s.base)
    (G := fun s => s.returned = true)
    (rank N) (helpful N) ?_ ?_ r hfair (hP.later (Nat.zero_le n)) ⟨hlive, hstop'⟩
  · rintro s ⟨hl, hs⟩ hret
    exact live_enabled hN hl hs hret
  · rintro s a s' ⟨hl, hs⟩ hret hPa hstep
    obtain ⟨hs', hrank⟩ := step_progress s a s' hl hs hret hPa hstep
    exact ⟨⟨step_live s a s' hl hPa hstep, hs'⟩, hrank⟩

instance (N : Nat) (s : Router.State) : DecidablePred (LastPlaceKept N s)
  | .collectorNotify => inferInstanceAs (Decidable (_ → _ → _ → _))
  | .main _ | .worker _ | .collectorStart | .collectorPurge | .collectorStop | .signal _
  | .mgmtShutdown | .mgmtEnd => .isTrue trivial

instance (N : Nat) (s : State) : DecidablePred (Undisturbed N s)
  | .base _ => inferInstanceAs (Decidable (_ ∧ _ ∧ _))
  | .mgmt _ | .request _ _ | .mgmtClient _ | .destroyRegistry | .ret => .isTrue trivial

/-- The worker relays a message, the management thread replies to a request, and SIGTERM comes. -/
def busyRouter : List Action :=
  [.base (.main .ok), .base (.main .ok), .base (.main .ok), .base (.main .ok), .request 0 .handled,
    .mgmt .ok, .mgmt .ok, .mgmt .ok, .mgmt .ok, .mgmt .ok, .base (.worker .ok), .base (.worker .ok),
    .base .collectorNotify, .base (.worker .ok), .base (.signal sigTerm)]

def stopWhileBusy : List Action :=
  busyRouter ++ List.replicate 7 (.base (.main .ok)) ++
    [.mgmt .ok, .mgmt .ok, .mgmt .ok, .mgmtClient (.take 0), .base (.main .ok), .base (.worker .ok),
      .base (.worker .ok), .base (.worker .ok), .base (.worker .ok), .base (.main .ok),
      .destroyRegistry, .ret]

def runningRouter : State := init [] .running true (.empty 10)

def stoppedRouter : State := (exec (step 16) runningRouter stopWhileBusy).getD runningRouter

theorem stopWhileBusy_exec : exec (step 16) runningRouter stopWhileBusy = some stoppedRouter := rfl

theorem stoppedRouter_rests (x : Mover) : ¬ Enabled (step 16) mover x stoppedRouter := by
  rintro ⟨a, hmover, hs⟩
  cases a with
  | base b =>
    cases b with
    | main res => cases res <;> cases hs
    | worker res => cases res <;> cases hs
    | _ => simp [mover] at hmover
  | mgmt res => cases hs
  | request c r => simp [mover] at hmover
  | mgmtClient a =>
    have hread : ∀ c, stoppedRouter.mgmt.clients.unread c = 0 := by
      intro c
      cases c <;> rfl
    simp [mover, hread] at hmover
  | destroyRegistry | ret => cases hmover

theorem stopWhileBusy_returns :
    ∃ m, 15 ≤ m ∧ ((InfRun.ofList stopWhileBusy_exec).state m).returned = true :=
  returns (by decide)
    (InfRun.ofList stopWhileBusy_exec) rfl (InfRun.ofList_fair _ stoppedRouter_rests)
    (InfRun.ofList_meets _ rfl (by decide)) 15 (Or.inl (Or.inr rfl))

end StudyC.Router.Management
