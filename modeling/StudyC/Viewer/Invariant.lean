import StudyC.Viewer.System

/-!
# What holds in every state of Viewer

What `main` has done by each of its stages is never undone by the other threads (`Past`), and
whoever sets a flag that `main` sleeps on is about to wake it (`Wake`).
-/

open Runs

namespace StudyC.Viewer

open Mgmt.Worker

/-! ## The stages of main -/

def MainPhase.stage : MainPhase → Nat
  | .pipe | .failed => 0
  | .createSig => 1
  | .lockReady | .testReady | .waitReady | .wokenReady | .unlockReady => 2
  | .createTcp => 3
  | .registryInit | .register | .createMgmt | .lockFailed | .setFailed | .signalFailed
  | .unlockFailed => 4
  | .lockShutdown | .testShutdown | .waitShutdown | .wokenShutdown | .unlockShutdown => 5
  | .stopMgmt => 6
  | .killSig => 7
  | .writePipe => 8
  | .joinSig => 9
  | .joinTcp => 10
  | .joinMgmt => 11
  | .destroyRegistry => 12
  | .exited => 13

/-- What `main` has done by each stage, and still finds done. -/
structure Past (s : State) : Prop where
  sigCreated : s.sig = .notCreated ↔ s.main.stage ≤ 1
  tcpCreated : s.tcp = .notCreated ↔ s.main.stage ≤ 3
  mgmtCreated : s.main.stage ≤ 4 → s.mgmt.phase = .notCreated
  stopped : 7 ≤ s.main.stage → s.mgmtRunning = false
  killed : 8 ≤ s.main.stage → s.pending .usr1 = true ∨ s.sig = .ended
  written : 9 ≤ s.main.stage → s.pipeWritten = true
  sigJoined : 10 ≤ s.main.stage → s.sig = .ended
  tcpJoined : 11 ≤ s.main.stage → s.tcp = .ended
  mgmtJoined : 12 ≤ s.main.stage → s.mgmt.phase.gone = true

/-- What a step of another thread, or from outside, leaves as it is. -/
structure Keeps (s s' : State) : Prop where
  stage : s'.main.stage = s.main.stage
  sigCreated : s'.sig = .notCreated ↔ s.sig = .notCreated
  tcpCreated : s'.tcp = .notCreated ↔ s.tcp = .notCreated
  mgmtCreated : s.mgmt.phase = .notCreated → s'.mgmt.phase = .notCreated
  stopped : s.mgmtRunning = false → s'.mgmtRunning = false
  killed : s.pending .usr1 = true ∨ s.sig = .ended → s'.pending .usr1 = true ∨ s'.sig = .ended
  written : s.pipeWritten = true → s'.pipeWritten = true
  sigEnded : s.sig = .ended → s'.sig = .ended
  tcpEnded : s.tcp = .ended → s'.tcp = .ended
  mgmtGone : s.mgmt.phase.gone = true → s'.mgmt.phase.gone = true

theorem Keeps.past {s s' : State} (hkeeps : Keeps s s') (h : Past s) : Past s' := by
  obtain ⟨hstage, hsig, htcp, hmgmt, hstopped, hkilled, hwritten, hsigEnded, htcpEnded, hgone⟩ :=
    hkeeps
  refine ⟨?_, ?_, ?_, ?_, ?_, ?_, ?_, ?_, ?_⟩ <;> rw [hstage]
  · exact hsig.trans h.sigCreated
  · exact htcp.trans h.tcpCreated
  · exact hmgmt ∘ h.mgmtCreated
  · exact hstopped ∘ h.stopped
  · exact hkilled ∘ h.killed
  · exact hwritten ∘ h.written
  · exact hsigEnded ∘ h.sigJoined
  · exact htcpEnded ∘ h.tcpJoined
  · exact hgone ∘ h.mgmtJoined

@[simp] theorem stage_wake (m : MainPhase) : m.wake.stage = m.stage := by
  cases m <;> rfl

theorem sigStep_keeps {s s' : State} {pick : Signal} (hs : sigStep s pick = some s') :
    Keeps s s' := by
  cases hsig : s.sig <;> simp only [sigStep, hsig, reduceCtorEq] at hs
  case lockReady | lock =>
    split at hs
    · simp at hs
    · obtain rfl := Option.some.inj hs
      constructor <;> simp [hsig]
  case sigwait =>
    split at hs
    · obtain rfl := Option.some.inj hs
      cases pick <;> constructor <;> simp [hsig]
    · simp at hs
  case setReady | unlockReady | set | unlock =>
    obtain rfl := Option.some.inj hs
    constructor <;> simp [hsig]
  case signalReady | signal =>
    obtain rfl := Option.some.inj hs
    constructor <;> simp [hsig, State.condSignal]

theorem sigStep_mgmt {s s' : State} {pick : Signal} (hs : sigStep s pick = some s') :
    s'.mgmt = s.mgmt ∧ s'.mgmtRunning = s.mgmtRunning := by
  unfold sigStep at hs
  repeat' split at hs
  all_goals first
    | (simp at hs; done)
    | (obtain rfl := Option.some.inj hs; exact ⟨rfl, rfl⟩)

theorem mainStep_mgmt {s s' : State} {ok : Bool} (hs : mainStep s ok = some s') :
    (s'.mgmt = s.mgmt ∨ s.main = .createMgmt ∧ s'.mgmt = s.mgmt.goto .create) ∧
      (s.mgmtRunning = false → s'.mgmtRunning = false) := by
  cases hm : s.main <;> simp only [mainStep, hm, reduceCtorEq] at hs
  all_goals repeat' split at hs
  all_goals first
    | (simp at hs; done)
    | (obtain rfl := Option.some.inj hs; simp [State.condSignal, Thread.goto])

theorem tcpStep_keeps {s s' : State} {res : Result} (hs : tcpStep s res = some s') :
    Keeps s s' := by
  cases htcp : s.tcp <;> simp only [tcpStep, htcp, reduceCtorEq] at hs
  case setup =>
    obtain rfl := Option.some.inj hs
    cases res <;> constructor <;> simp [htcp]
  case test =>
    obtain rfl := Option.some.inj hs
    cases hflag : s.shutdownRequested <;> constructor <;> simp [htcp]
  case poll =>
    repeat' split at hs
    all_goals first
      | (simp at hs; done)
      | (obtain rfl := Option.some.inj hs; constructor <;> simp [htcp])
  case ready =>
    obtain rfl := Option.some.inj hs
    cases hclient : s.client <;> constructor <;> simp [htcp, serveSocket, hclient]
  case leaving =>
    obtain rfl := Option.some.inj hs
    constructor <;> simp [htcp]

theorem handlerStep_keeps {s s' : State} {p : HandlerPhase} (hp : s.mgmt.phase = .handler p)
    (hs : handlerStep s p = some s') : Keeps s s' := by
  cases p <;> simp only [handlerStep] at hs
  case lock =>
    split at hs
    · simp at hs
    · obtain rfl := Option.some.inj hs
      constructor <;> simp [hp, Phase.gone, Thread.goto]
  all_goals
    obtain rfl := Option.some.inj hs
    constructor <;> simp [hp, Phase.gone, Thread.goto, State.condSignal]

theorem mgmtStep_keeps {s s' : State} {res : Outcome} (hs : mgmtStep s res = some s') :
    Keeps s s' := by
  unfold mgmtStep at hs
  split at hs
  · rename_i p hp
    exact handlerStep_keeps hp hs
  · obtain ⟨t, ht, rfl⟩ := Option.map_eq_some_iff.mp hs
    obtain ⟨hgone, -⟩ := step_runs ht
    have hcreated : s.mgmt.phase ≠ .notCreated := by
      rintro hnot
      simp [hnot, Phase.gone] at hgone
    constructor <;> simp [hgone, hcreated]

theorem mainStep_past {s s' : State} {ok : Bool} (h : Past s) (hs : mainStep s ok = some s') :
    Past s' := by
  obtain ⟨hsig, htcp, hmgmt, hstopped, hkilled, hwritten, hsigJoined, htcpJoined, hmgmtJoined⟩ := h
  cases hm : s.main <;> simp only [mainStep, hm, reduceCtorEq] at hs <;>
    simp only [hm, MainPhase.stage, Nat.reduceLeDiff, iff_true, iff_false, forall_const,
      IsEmpty.forall_iff]
      at hsig htcp hmgmt hstopped hkilled hwritten hsigJoined htcpJoined hmgmtJoined
  all_goals repeat' split at hs
  all_goals first
    | (simp at hs; done)
    | (obtain rfl := Option.some.inj hs; constructor
        <;> simp [*, MainPhase.stage, State.condSignal])

theorem outside_keeps {s s' : State} {a : Action} (ha : a.outside = true)
    (hs : step s a = some s') : Keeps s s' := by
  cases a <;> simp only [Action.outside, Bool.false_eq_true] at ha
  case mgmtClient a =>
    obtain ⟨clients, -, rfl⟩ := mgmtClient_frame hs
    constructor <;> simp
  all_goals obtain rfl := Option.some.inj hs
  case kill sig => cases sig <;> constructor <;> simp
  all_goals constructor <;> simp [State.condSignal, Thread.receive]

/-! ## Wake-ups -/

/-- Whoever has changed what `main` sleeps on has still to signal it. -/
structure Wake (s : State) : Prop where
  notReady : s.signalThreadReady = false → s.sig = .notCreated ∨ s.sig = .lockReady ∨
    s.sig = .setReady
  ready : s.main = .waitReady → s.signalThreadReady = false ∨ s.sig = .signalReady
  shutdown : s.main = .waitShutdown →
    s.shutdownRequested = false ∨ s.sig = .signal ∨ s.mgmt.phase = .handler .signal
  requested : s.shutdownRequested = true → 2 ≤ s.main.stage

@[simp] theorem wake_ne_waitReady (m : MainPhase) : m.wake ≠ .waitReady := by
  cases m <;> simp [MainPhase.wake]

@[simp] theorem wake_ne_waitShutdown (m : MainPhase) : m.wake ≠ .waitShutdown := by
  cases m <;> simp [MainPhase.wake]

theorem mainStep_wake {s s' : State} {ok : Bool} (h : Wake s) (hs : mainStep s ok = some s') :
    Wake s' := by
  obtain ⟨hnotReady, hready, hshutdown, hrequested⟩ := h
  cases hm : s.main <;> simp only [mainStep, hm, reduceCtorEq] at hs <;>
    simp only [hm, MainPhase.stage, Nat.reduceLeDiff, imp_false, implies_true] at hrequested
  all_goals repeat' split at hs
  all_goals first
    | (simp at hs; done)
    | (obtain rfl := Option.some.inj hs; constructor
        <;> simp_all [MainPhase.stage, State.condSignal])

theorem sigStep_wake {s s' : State} {pick : Signal} (h : Wake s) (hpast : Past s)
    (hs : sigStep s pick = some s') : Wake s' := by
  obtain ⟨hnotReady, hready, hshutdown, hrequested⟩ := h
  have hstage : s.sig ≠ .notCreated → 2 ≤ s.main.stage := by
    rw [Ne, hpast.sigCreated]
    omega
  cases hsig : s.sig <;> simp only [sigStep, hsig, reduceCtorEq] at hs
  case lockReady | lock =>
    split at hs
    · simp at hs
    · obtain rfl := Option.some.inj hs
      constructor <;> simp_all
  case sigwait =>
    split at hs
    · obtain rfl := Option.some.inj hs
      cases pick <;> constructor <;> simp_all
    · simp at hs
  case setReady | unlockReady | set | unlock =>
    obtain rfl := Option.some.inj hs
    constructor <;> simp_all
  case signalReady | signal =>
    obtain rfl := Option.some.inj hs
    constructor <;> simp_all [State.condSignal]

theorem handlerStep_wake {s s' : State} {p : HandlerPhase} (h : Wake s) (hpast : Past s)
    (hp : s.mgmt.phase = .handler p) (hs : handlerStep s p = some s') : Wake s' := by
  obtain ⟨hnotReady, hready, hshutdown, hrequested⟩ := h
  have hstage : 2 ≤ s.main.stage := by
    by_contra hlow
    have hnot := hpast.mgmtCreated (by omega)
    rw [hp] at hnot
    simp at hnot
  cases p <;> simp only [handlerStep] at hs
  case lock =>
    split at hs
    · simp at hs
    · obtain rfl := Option.some.inj hs
      constructor <;> simp_all [Thread.goto]
  all_goals
    obtain rfl := Option.some.inj hs
    constructor <;> simp_all [Thread.goto, State.condSignal]

theorem Wake.congr {s s' : State} (h : Wake s) (hmain : s'.main = s.main) (hsig : s'.sig = s.sig)
    (hready : s'.signalThreadReady = s.signalThreadReady)
    (hshutdown : s'.shutdownRequested = s.shutdownRequested)
    (hmgmt : s.mgmt.phase = .handler .signal → s'.mgmt.phase = .handler .signal) : Wake s' := by
  obtain ⟨hnot, hwait, hwait', hrequested⟩ := h
  refine ⟨?_, ?_, ?_, ?_⟩
  · rwa [hready, hsig]
  · rwa [hmain, hready, hsig]
  · rw [hmain, hshutdown, hsig]
    exact fun hm => (hwait' hm).imp_right (Or.imp_right hmgmt)
  · rwa [hshutdown, hmain]

theorem mgmtStep_wake {s s' : State} {res : Outcome} (h : Wake s) (hpast : Past s)
    (hs : mgmtStep s res = some s') : Wake s' := by
  unfold mgmtStep at hs
  split at hs
  · rename_i p hp
    exact handlerStep_wake h hpast hp hs
  · rename_i hp
    obtain ⟨t, -, rfl⟩ := Option.map_eq_some_iff.mp hs
    exact h.congr rfl rfl rfl rfl fun hsignal => absurd hsignal (hp .signal)

theorem tcpStep_frame {s s' : State} {res : Result} (hs : tcpStep s res = some s') :
    ∃ tcp backlog client, s' = { s with tcp := tcp, backlog := backlog, client := client } := by
  unfold tcpStep serveSocket at hs
  repeat' split at hs
  all_goals first
    | (simp at hs; done)
    | (obtain rfl := Option.some.inj hs; exact ⟨_, _, _, rfl⟩)

theorem tcpStep_wake {s s' : State} {res : Result} (h : Wake s) (hs : tcpStep s res = some s') :
    Wake s' := by
  obtain ⟨tcp, backlog, client, rfl⟩ := tcpStep_frame hs
  exact h.congr rfl rfl rfl rfl id

theorem outside_wake {s s' : State} {a : Action} (h : Wake s) (ha : a.outside = true)
    (hs : step s a = some s') : Wake s' := by
  cases a <;> simp only [Action.outside, Bool.false_eq_true] at ha
  case mgmtClient a =>
    obtain ⟨clients, -, rfl⟩ := mgmtClient_frame hs
    exact h.congr rfl rfl rfl rfl id
  all_goals obtain rfl := Option.some.inj hs
  case spurious =>
    exact ⟨h.notReady, by simp [State.condSignal], by simp [State.condSignal],
      by simpa [State.condSignal] using h.requested⟩
  all_goals exact h.congr rfl rfl rfl rfl id

/-! ## The invariant -/

structure Inv (s : State) : Prop where
  past : Past s
  wake : Wake s

theorem init_inv (clients : Mailboxes.State Client) : Inv (init clients) := by
  refine ⟨?_, ?_⟩
  · constructor <;> simp [init, MainPhase.stage, Thread.init]
  · constructor <;> simp [init]

theorem step_inv (s : State) (a : Action) (s' : State) (h : Inv s) (hs : step s a = some s') :
    Inv s' := by
  cases a with
  | main ok => exact ⟨mainStep_past h.past hs, mainStep_wake h.wake hs⟩
  | sig pick => exact ⟨(sigStep_keeps hs).past h.past, sigStep_wake h.wake h.past hs⟩
  | tcp res => exact ⟨(tcpStep_keeps hs).past h.past, tcpStep_wake h.wake hs⟩
  | mgmt res => exact ⟨(mgmtStep_keeps hs).past h.past, mgmtStep_wake h.wake h.past hs⟩
  | _ => exact ⟨(outside_keeps rfl hs).past h.past, outside_wake h.wake rfl hs⟩

/-! ## Once a shutdown is requested -/

section
variable {s : State} (h : Inv s) (hflag : s.shutdownRequested = true)
include h hflag

theorem Inv.sig_created : s.sig ≠ .notCreated := by
  have hstage := h.wake.requested hflag
  rw [Ne, h.past.sigCreated]
  omega

theorem Inv.main_ne_failed : s.main ≠ .failed := by
  intro hm
  have hstage := h.wake.requested hflag
  simp [hm, MainPhase.stage] at hstage

-- who sets the flag holds the mutex until it has signalled
theorem Inv.main_ne_waitShutdown (hsig : s.sig.holds = false)
    (hmgmt : mgmtHolds s.mgmt.phase = false) : s.main ≠ .waitShutdown := by
  intro hm
  rcases h.wake.shutdown hm with hnot | hp | hp
  · simp [hflag] at hnot
  · simp [hp, SigPhase.holds] at hsig
  · simp [hp, mgmtHolds] at hmgmt

theorem Inv.sig_starts (hm : s.main = .waitReady) (hsig : s.sig.holds = false) :
    s.sig = .lockReady := by
  rcases h.wake.ready hm with hready | hp
  · refine ((h.wake.notReady hready).resolve_left (h.sig_created hflag)).resolve_right ?_
    intro hp
    simp [hp, SigPhase.holds] at hsig
  · simp [hp, SigPhase.holds] at hsig

end

theorem Inv.tcp_created {s : State} (h : Inv s) (hm : s.main = .joinTcp) : s.tcp ≠ .notCreated := by
  rw [Ne, h.past.tcpCreated]
  simp [hm, MainPhase.stage]

theorem Inv.sig_told {s : State} (h : Inv s) (hm : s.main = .joinSig) (hrun : s.sig ≠ .ended) :
    s.pending .usr1 = true :=
  (h.past.killed (by simp [hm, MainPhase.stage])).resolve_right hrun

end StudyC.Viewer
