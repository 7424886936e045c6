import StudyC.Viewer.Invariant

/-!
# Viewer shutdown

With `shutdown_requested` set, the threads of Viewer alone can end the process exactly if the
management thread does not have to reply to a client whose receive queue is full. In each such state
some thread can take a step that brings the end closer.
-/

open Runs

namespace StudyC.Viewer

open Mgmt.Worker

/-! ## How far the end is -/

/-- The loop before the signal thread is ready goes round once more. -/
def mainRank (ready : Bool) : MainPhase → Nat
  | .pipe => 29
  | .createSig => 28
  | .lockReady | .wokenReady => if ready then 23 else 27
  | .testReady => if ready then 22 else 26
  | .waitReady => 25
  | .unlockReady => 21
  | .createTcp => 20
  | .registryInit => 19
  | .register => 18
  | .createMgmt => 17
  | .lockFailed => 16
  | .setFailed => 15
  | .signalFailed => 14
  | .unlockFailed => 13
  | .lockShutdown | .waitShutdown => 12
  | .wokenShutdown => 11
  | .testShutdown => 10
  | .unlockShutdown => 9
  | .stopMgmt => 8
  | .killSig => 7
  | .writePipe => 6
  | .joinSig => 5
  | .joinTcp => 4
  | .joinMgmt => 3
  | .destroyRegistry => 2
  | .exited | .failed => 1

def sigRank : SigPhase → Nat
  | .lockReady => 9
  | .setReady => 8
  | .signalReady => 7
  | .unlockReady => 6
  | .lock => 5
  | .set => 4
  | .signal => 3
  | .unlock => 2
  | .sigwait => 1
  | .notCreated | .ended => 0

def tcpRank : TcpPhase → Nat
  | .setup | .ready => 3
  | .test | .poll => 2
  | .leaving => 1
  | .notCreated | .ended => 0

def mgmtRank : Phase HandlerPhase → Nat
  | .recv => 12
  | .lookup _ => 11
  | .handler .store => 10
  | .handler .lock => 9
  | .handler .set => 8
  | .handler .signal => 7
  | .handler .unlock => 6
  | .account _ => 5
  | .reply _ => 4
  | .create => 3
  | .test => 2
  | .destroy => 1
  | .notCreated | .ended => 0

/-- A step of `main` may start another thread, and counts for more than all of one. -/
def remaining (s : State) : Nat :=
  40 * mainRank s.signalThreadReady s.main + sigRank s.sig + tcpRank s.tcp + mgmtRank s.mgmt.phase

/-- A thread can take a step that brings the end closer, and the management thread does not go on to
another request. -/
def CanMove (s : State) : Prop :=
  ∃ a s', a.own = true ∧ (∀ res, a = .mgmt res → s.mgmt.phase = .test → s.mgmtRunning = false) ∧
    step s a = some s' ∧ remaining s' < remaining s

/-! ## Who can move -/

theorem CanMove.of_step {s s' : State} (a : Action) (hown : a.own = true)
    (hother : ∀ res, a ≠ .mgmt res) (hs : step s a = some s') (hlt : remaining s' < remaining s) :
    CanMove s :=
  ⟨a, s', hown, fun res ha => absurd ha (hother res), hs, hlt⟩

theorem CanMove.of_mgmt {s s' : State} (res : Outcome) (hown : (Action.mgmt res).own = true)
    (hstop : s.mgmt.phase = .test → s.mgmtRunning = false) (hs : mgmtStep s res = some s')
    (hlt : remaining s' < remaining s) : CanMove s :=
  ⟨.mgmt res, s', hown, fun _ _ => hstop, hs, hlt⟩

theorem main_moves {s : State} (hflag : s.shutdownRequested = true)
    (hfree : s.main.holds = true ∨ s.locked = false)
    (hmain : s.main ≠ .waitReady ∧ s.main ≠ .waitShutdown ∧ s.main ≠ .exited ∧ s.main ≠ .failed)
    (hjoin : (s.main = .joinSig → s.sig = .ended) ∧ (s.main = .joinTcp → s.tcp = .ended) ∧
      (s.main = .joinMgmt → s.mgmt.phase.gone = true)) :
    CanMove s := by
  -- `main` can go on if it has the mutex or nobody has it, it does not sleep, and the thread
  -- that it joins has ended
  obtain ⟨hwait, hwait', hexited, hfailed⟩ := hmain
  obtain ⟨hsig, htcp, hmgmt⟩ := hjoin
  cases hm : s.main
  case waitReady | waitShutdown | exited | failed => contradiction
  case lockReady | wokenReady | lockFailed | lockShutdown | wokenShutdown =>
    have hlocked : s.locked = false := by simpa [hm, MainPhase.holds] using hfree
    refine .of_step (.main true) rfl (by simp) (by simp only [step, mainStep, hm, hlocked]; rfl) ?_
    cases hready : s.signalThreadReady <;> simp [remaining, mainRank, hm, hready]
  case testReady =>
    refine .of_step (.main true) rfl (by simp) (by simp only [step, mainStep, hm]; rfl) ?_
    cases hready : s.signalThreadReady <;> simp [remaining, mainRank, hm, hready]
  case testShutdown =>
    refine .of_step (.main true) rfl (by simp) (by simp only [step, mainStep, hm, hflag]; rfl) ?_
    simp [remaining, mainRank, hm]
  case joinSig =>
    refine .of_step (.main true) rfl (by simp) (by simp only [step, mainStep, hm, hsig hm]; rfl) ?_
    simp [remaining, mainRank, hm, hsig hm]
  case joinTcp =>
    refine .of_step (.main true) rfl (by simp) (by simp only [step, mainStep, hm, htcp hm]; rfl) ?_
    simp [remaining, mainRank, hm, htcp hm]
  case joinMgmt =>
    refine .of_step (.main true) rfl (by simp) (by simp only [step, mainStep, hm, hmgmt hm]; rfl) ?_
    simp [remaining, mainRank, hm]
  case createSig =>
    refine .of_step (.main true) rfl (by simp) (by simp only [step, mainStep, hm]; rfl) ?_
    cases s.signalThreadReady <;> simp [remaining, mainRank, hm, sigRank] <;> omega
  case createTcp | createMgmt =>
    refine .of_step (.main true) rfl (by simp) (by simp only [step, mainStep, hm]; rfl) ?_
    simp [remaining, mainRank, hm, tcpRank, mgmtRank, Thread.goto]
    omega
  all_goals
    refine .of_step (.main true) rfl (by simp) (by simp only [step, mainStep, hm]; rfl) ?_
    simp [remaining, mainRank, hm, State.condSignal]

theorem mainRank_wake {ready : Bool} {m : MainPhase} (h : m = .waitReady → ready = true) :
    mainRank ready m.wake ≤ mainRank ready m := by
  -- a wake-up brings `main` closer to the end, unless it waits for a thread that is not ready
  cases m <;> simp [MainPhase.wake, mainRank]
  simp [h rfl]

theorem sig_moves {s : State} (h : Wake s) (hfree : s.sig.holds = true ∨ s.locked = false)
    (hsig : s.sig ≠ .notCreated ∧ s.sig ≠ .ended)
    (husr1 : s.sig = .sigwait → s.pending .usr1 = true) : CanMove s := by
  -- the signal thread can go on if it has the mutex or nobody has it, and `SIGUSR1` is pending
  -- where it waits for a signal
  obtain ⟨hcreated, hended⟩ := hsig
  cases hp : s.sig
  case notCreated | ended => contradiction
  case lockReady | lock =>
    have hlocked : s.locked = false := by simpa [hp, SigPhase.holds] using hfree
    refine .of_step (.sig .usr1) rfl (by simp) (by simp only [step, sigStep, hp, hlocked]; rfl) ?_
    simp [remaining, hp, sigRank]
  case setReady =>
    refine .of_step (.sig .usr1) rfl (by simp) (by simp only [step, sigStep, hp]; rfl) ?_
    have hle : mainRank true s.main ≤ mainRank s.signalThreadReady s.main := by
      cases s.signalThreadReady <;> cases s.main <;> simp [mainRank]
    simp [remaining, hp, sigRank]
    omega
  case signalReady | signal =>
    refine .of_step (.sig .usr1) rfl (by simp) (by simp only [step, sigStep, hp]; rfl) ?_
    have hready : s.signalThreadReady = true := by
      by_contra hnot
      have := h.notReady (by simpa using hnot)
      simp [hp] at this
    have hle := mainRank_wake (m := s.main) fun _ => hready
    simp [remaining, hp, sigRank, State.condSignal]
    omega
  case sigwait =>
    refine .of_step (.sig .usr1) rfl (by simp) (by simp only [step, sigStep, hp, husr1 hp]; rfl) ?_
    simp [remaining, hp, sigRank]
  all_goals
    refine .of_step (.sig .usr1) rfl (by simp) (by simp only [step, sigStep, hp]; rfl) ?_
    simp [remaining, hp, sigRank]

theorem tcp_moves {s : State} (hflag : s.shutdownRequested = true)
    (htcp : s.tcp ≠ .notCreated ∧ s.tcp ≠ .ended) (hpipe : s.tcp = .poll → s.pipeWritten = true) :
    CanMove s := by
  -- with the flag set, the TCP thread leaves its loop at the next test, and `poll` returns as
  -- soon as the pipe is written
  obtain ⟨hcreated, hended⟩ := htcp
  cases hp : s.tcp
  case notCreated | ended => contradiction
  case poll =>
    refine .of_step (.tcp .ok) rfl (by simp) (by simp only [step, tcpStep, hp, hpipe hp]; rfl) ?_
    simp [remaining, hp, tcpRank]
  case ready =>
    refine .of_step (.tcp .ok) rfl (by simp) (by simp only [step, tcpStep, hp]; rfl) ?_
    cases hclient : s.client <;> simp [remaining, hp, tcpRank, serveSocket, hclient]
  case test =>
    refine .of_step (.tcp .ok) rfl (by simp) (by simp only [step, tcpStep, hp, hflag]; rfl) ?_
    simp [remaining, hp, tcpRank]
  all_goals
    refine .of_step (.tcp .ok) rfl (by simp) (by simp only [step, tcpStep, hp]; rfl) ?_
    simp [remaining, hp, tcpRank]

theorem handler_moves {s : State} (hpast : Past s) {p : HandlerPhase}
    (hp : s.mgmt.phase = .handler p) (hfree : mgmtHolds s.mgmt.phase = true ∨ s.locked = false) :
    CanMove s := by
  have hstop : s.mgmt.phase = .test → s.mgmtRunning = false := by simp [hp]
  cases p with
  | lock =>
    have hlocked : s.locked = false := by simpa [hp, mgmtHolds] using hfree
    refine .of_mgmt .ok rfl hstop (by simp only [mgmtStep, hp, handlerStep, hlocked]; rfl) ?_
    simp [remaining, hp, mgmtRank, Thread.goto]
  | signal =>
    refine .of_mgmt .ok rfl hstop (by simp only [mgmtStep, hp, handlerStep]; rfl) ?_
    have hnotWait : s.main ≠ .waitReady := by
      intro hm
      have := hpast.mgmtCreated (by simp [hm, MainPhase.stage])
      simp [hp] at this
    have hle : mainRank s.signalThreadReady s.main.wake ≤ mainRank s.signalThreadReady s.main :=
      mainRank_wake fun hm => absurd hm hnotWait
    simp [remaining, hp, mgmtRank, Thread.goto, State.condSignal]
    omega
  | store | set | unlock =>
    refine .of_mgmt .ok rfl hstop (by simp only [mgmtStep, hp, handlerStep]; rfl) ?_
    simp [remaining, hp, mgmtRank, Thread.goto]

theorem mgmt_moves {s : State} (hpast : Past s) (hans : s.mgmt.Answerable)
    (hfree : mgmtHolds s.mgmt.phase = true ∨ s.locked = false) (hgone : s.mgmt.phase.gone = false)
    (hstop : s.mgmt.phase = .test → s.mgmtRunning = false) : CanMove s := by
  -- the management thread can go on if it has the mutex or nobody has it, and its client takes
  -- the reply. Its receive ends or times out, and its loop ends when `g_mgmt_running` is down
  cases hp : s.mgmt.phase with
  | notCreated | ended => simp [hp, Phase.gone] at hgone
  | handler p => exact handler_moves hpast hp hfree
  | recv =>
    cases hinbox : s.mgmt.inbox with
    | nil =>
      refine .of_mgmt .timeout rfl hstop (by simp only [mgmtStep, hp, Thread.step, hinbox]; rfl) ?_
      simp [remaining, hp, mgmtRank, Thread.goto]
    | cons r inbox =>
      refine .of_mgmt .ok rfl hstop (by simp only [mgmtStep, hp, Thread.step, hinbox]; rfl) ?_
      simp [remaining, hp, mgmtRank]
  | test =>
    refine .of_mgmt .ok rfl hstop (by simp only [mgmtStep, hp, Thread.step, hstop hp]; rfl) ?_
    simp [remaining, hp, mgmtRank, Thread.goto]
  | reply r =>
    have haccepts : s.mgmt.clients.accepts s.mgmt.client = true :=
      hans _ (by simp [Thread.answers, hp])
    refine .of_mgmt .ok rfl hstop (by simp only [mgmtStep, hp, Thread.step, haccepts]; rfl) ?_
    simp [remaining, hp, mgmtRank]
  | lookup r =>
    cases r
    all_goals
      refine .of_mgmt .ok rfl hstop (by simp only [mgmtStep, hp, Thread.step]; rfl) ?_
      simp [remaining, hp, mgmtRank, Thread.goto]
  | create | account r | destroy =>
    refine .of_mgmt .ok rfl hstop (by simp only [mgmtStep, hp, Thread.step]; rfl) ?_
    simp [remaining, hp, mgmtRank, Thread.goto]

/-! ## The end is reached -/

theorem canMove {s : State} (h : Inv s) (hans : s.mgmt.Answerable)
    (hflag : s.shutdownRequested = true) (hexited : s.main ≠ .exited) : CanMove s := by
  have hsigCreated := h.sig_created hflag
  have hfailed := h.main_ne_failed hflag
  -- a thread in its critical section can always go on
  by_cases hmain : s.main.holds = true
  · refine main_moves hflag (Or.inl hmain) ⟨?_, ?_, hexited, hfailed⟩ ⟨?_, ?_, ?_⟩ <;>
      (intro hm; simp [hm, MainPhase.holds] at hmain)
  by_cases hsig : s.sig.holds = true
  · refine sig_moves h.wake (Or.inl hsig) ⟨hsigCreated, ?_⟩ ?_
      <;> (intro hp; simp [hp, SigPhase.holds] at hsig)
  by_cases hmgmt : mgmtHolds s.mgmt.phase = true
  · refine mgmt_moves h.past hans (Or.inl hmgmt) ?_ ?_
    · cases hp : s.mgmt.phase <;> simp [hp, mgmtHolds] at hmgmt
      rfl
    · intro hp
      simp [hp, mgmtHolds] at hmgmt
  have hfree : s.locked = false := by simp [State.locked, hmain, hsig, hmgmt]
  rw [Bool.not_eq_true] at hsig hmgmt
  by_cases hblocked : s.main = .waitReady ∨ (s.main = .joinSig ∧ s.sig ≠ .ended) ∨
      (s.main = .joinTcp ∧ s.tcp ≠ .ended) ∨ (s.main = .joinMgmt ∧ s.mgmt.phase.gone = false)
  · rcases hblocked with hm | ⟨hm, hrun⟩ | ⟨hm, hrun⟩ | ⟨hm, hrun⟩
    · have hp := h.sig_starts hflag hm hsig
      exact sig_moves h.wake (Or.inr hfree) (by simp [hp]) (by simp [hp])
    · exact sig_moves h.wake (Or.inr hfree) ⟨hsigCreated, hrun⟩ fun _ => h.sig_told hm hrun
    · exact tcp_moves hflag ⟨h.tcp_created hm, hrun⟩ fun _ =>
        h.past.written (by simp [hm, MainPhase.stage])
    · exact mgmt_moves h.past hans (Or.inr hfree) hrun fun _ =>
        h.past.stopped (by simp [hm, MainPhase.stage])
  · simp only [not_or, not_and, not_not, Bool.not_eq_false] at hblocked
    obtain ⟨hwait, hjoin⟩ := hblocked
    exact main_moves hflag (Or.inr hfree)
      ⟨hwait, h.main_ne_waitShutdown hflag hsig hmgmt, hexited, hfailed⟩ hjoin

theorem step_shutdownRequested {s s' : State} {a : Action} (h : s.shutdownRequested = true)
    (hs : step s a = some s') : s'.shutdownRequested = true := by
  cases a <;> simp only [step] at hs
  case main ok =>
    unfold mainStep at hs
    repeat' split at hs
    all_goals first
      | (simp at hs; done)
      | (obtain rfl := Option.some.inj hs; first | exact h | rfl)
  case sig pick =>
    unfold sigStep at hs
    repeat' split at hs
    all_goals first
      | (simp at hs; done)
      | (obtain rfl := Option.some.inj hs; first | exact h | rfl)
  case tcp res =>
    unfold tcpStep serveSocket at hs
    repeat' split at hs
    all_goals first
      | (simp at hs; done)
      | (obtain rfl := Option.some.inj hs; exact h)
  case mgmt res =>
    unfold mgmtStep handlerStep at hs
    repeat' split at hs
    all_goals first
      | (simp at hs; done)
      | (obtain rfl := Option.some.inj hs; first | exact h | rfl)
      | (obtain ⟨t, -, rfl⟩ := Option.map_eq_some_iff.mp hs; exact h)
  case mgmtClient a =>
    obtain ⟨clients, -, rfl⟩ := mgmtClient_frame hs
    exact h
  all_goals
    obtain rfl := Option.some.inj hs
    exact h

/-! ## A reply that cannot go out -/

theorem handlerStep_answerable {s s' : State} {p : HandlerPhase} (hp : s.mgmt.phase = .handler p)
    (hs : handlerStep s p = some s') : s'.mgmt.Answerable ↔ s.mgmt.Answerable := by
  unfold handlerStep at hs
  repeat' split at hs
  all_goals first
    | (simp at hs; done)
    | (obtain rfl := Option.some.inj hs
       simp [Thread.Answerable, Thread.answers, hp, Thread.goto])

theorem own_answerable {s s' : State} {a : Action} (h : s.mgmt.Answerable) (ha : a.own = true)
    (hleaves : ∀ res, a = .mgmt res → s.mgmt.phase = .test → s.mgmtRunning = false)
    (hs : step s a = some s') : s'.mgmt.Answerable := by
  cases a with
  | main ok =>
    rcases (mainStep_mgmt hs).1 with hsame | ⟨-, hcreate⟩
    · rwa [hsame]
    · simp [Thread.Answerable, Thread.answers, hcreate, Thread.goto]
  | sig pick => rwa [(sigStep_mgmt hs).1]
  | tcp res =>
    obtain ⟨tcp, backlog, client, rfl⟩ := tcpStep_frame hs
    exact h
  | mgmt res =>
    simp only [step, mgmtStep] at hs
    split at hs
    · rename_i p hp
      exact (handlerStep_answerable hp hs).mpr h
    · obtain ⟨t, ht, rfl⟩ := Option.map_eq_some_iff.mp hs
      exact step_answerable h (hleaves res rfl) ht
  | _ => simp [Action.own] at ha

theorem own_unanswerable {s s' : State} {a : Action} (hpast : Past s) (h : ¬ s.mgmt.Answerable)
    (ha : a.own = true) (hs : step s a = some s') : ¬ s'.mgmt.Answerable := by
  cases a with
  | main ok =>
    rcases (mainStep_mgmt hs).1 with hsame | ⟨hm, -⟩
    · rwa [hsame]
    · have hrun := running_of_unanswerable h
      simp [hpast.mgmtCreated (by simp [hm, MainPhase.stage]), Phase.gone] at hrun
  | sig pick => rwa [(sigStep_mgmt hs).1]
  | tcp res =>
    obtain ⟨tcp, backlog, client, rfl⟩ := tcpStep_frame hs
    exact h
  | mgmt res =>
    simp only [step, mgmtStep] at hs
    split at hs
    · rename_i p hp
      exact mt (handlerStep_answerable hp hs).mp h
    · obtain ⟨t, ht, rfl⟩ := Option.map_eq_some_iff.mp hs
      exact step_unanswerable h (by simpa [Action.own] using ha) ht
  | _ => simp [Action.own] at ha

theorem unanswerable_never_exits {s t : State} {as : List Action} (h : Inv s)
    (hblocked : ¬ s.mgmt.Answerable) (has : ∀ a ∈ as, a.own = true)
    (hrun : exec step s as = some t) : t.main ≠ .exited := by
  -- the thread stays in its `sendto`, and `main` does not get past the join
  obtain ⟨hinv, hstill⟩ : Inv t ∧ ¬ t.mgmt.Answerable :=
    invariant (P := fun _ a => a.own = true) (I := fun s => Inv s ∧ ¬ s.mgmt.Answerable)
      (fun s a s' hi ha hs => ⟨step_inv s a s' hi.1 hs, own_unanswerable hi.1.past hi.2 ha hs⟩)
      ⟨h, hblocked⟩ (along_of_forall_mem (fun a ha _ => has a ha) s) hrun
  intro hexited
  have hgone := hinv.past.mgmtJoined (by simp [hexited, MainPhase.stage])
  simp [running_of_unanswerable hstill] at hgone

/-- `SIGINT` is handled while `main` has not yet seen that the signal thread is ready. -/
def earlySignal : List Action :=
  [.main true, .main true, .sig .int, .sig .int, .sig .int, .sig .int, .kill .int, .sig .int,
    .sig .int, .sig .int]

/-- Start-up until `main` waits for the end, with the signal thread in `sigwait`. -/
def startedUp : List Action :=
  List.replicate 2 (.main true) ++ List.replicate 4 (.sig .int) ++ List.replicate 9 (.main true)

/-- A client whose queue has room for one datagram sends two requests and reads no reply. Then
`SIGTERM` comes, and `main` goes as far as it can. -/
def unreadReplies : List Action :=
  startedUp ++ [.request 0 .handled, .request 0 .handled] ++ List.replicate 10 (.mgmt .ok) ++
    [.kill .term] ++ List.replicate 5 (.sig .term) ++ List.replicate 6 (.main true) ++
    [.sig .usr1, .main true, .tcp .ok, .tcp .ok, .tcp .ok, .main true]

end StudyC.Viewer
