import StudyC.Mgmt.Worker
import StudyC.Router.System

/-!
# Router with its management thread

`System` knows the management thread only by its `SHUTDOWN` event and its end. Here the thread runs
step by step beside the rest of Router, and `main` goes on after its last join: it destroys the
handler registry and returns.
-/

open Runs

namespace StudyC.Router.Management

open Mgmt.Worker

/-- The `SHUTDOWN` handler has one step that others see, `send_signal_event`. -/
inductive HandlerPhase where
  | send
  deriving DecidableEq

structure State where
  base : Router.State
  mgmt : Thread HandlerPhase
  /-- `main` has called `handler_registry_destroy`. -/
  destroyed : Bool
  returned : Bool

inductive Action where
  | base (a : Router.Action)
  | mgmt (res : Outcome)
  | request (c : Client) (r : Request)
  | mgmtClient (a : Mailboxes.Action Client)
  | destroyRegistry
  | ret

def baseStep (N : Nat) (s : State) (a : Router.Action) : Option State :=
  (Router.step N s.base a).map fun b =>
    { s with
      base := b
      mgmt := if b.mgmtWorker ∧ s.base.mgmtWorker = false then s.mgmt.goto .create else s.mgmt }

def mgmtStep (N : Nat) (s : State) (res : Outcome) : Option State :=
  match s.mgmt.phase with
  | .handler .send =>
    (Router.step N s.base .mgmtShutdown).map fun b =>
      { s with base := b, mgmt := s.mgmt.goto (.account .shutdown) }
  | _ => (s.mgmt.step s.base.keepRunning .send res).bind fun t =>
    if t.phase = .ended then
      (Router.step N s.base .mgmtEnd).map fun b => { s with base := b, mgmt := t }
    else some { s with mgmt := t }

def step (N : Nat) (s : State) : Action → Option State
  -- what the management thread does, it does in steps of its own
  | .base .mgmtShutdown | .base .mgmtEnd => none
  | .base a => baseStep N s a
  | .mgmt res => mgmtStep N s res
  | .request c r => some { s with mgmt := s.mgmt.receive c r }
  | .mgmtClient a => (s.mgmt.clientStep a).map fun t => { s with mgmt := t }
  | .destroyRegistry => if s.base.main = .exited then some { s with destroyed := true } else none
  | .ret => if s.destroyed then some { s with returned := true } else none

def init (queue : List Notify) (collector : CollectorPhase) (ipcMsqid : Bool)
    (clients : Mailboxes.State Client) : State :=
  ⟨Router.init queue collector ipcMsqid, .init clients, false, false⟩

/-! ## The thread is joined -/

/-- No management thread has been created yet. -/
def BeforeMgmt (m : MainPhase) : Prop :=
  m = .purge ∨ m = .setup ∨ m = .createWorker ∨ m = .setupMgmt

/-- The creation has failed, or `main` has joined the thread. -/
def AfterMgmt (m : MainPhase) : Prop :=
  m = .quitSetup ∨ m = .closeSetup ∨ m = .joinWorker ∨ m = .exited

theorem mainStep_mgmtWorker {N : Nat} {b b' : Router.State} {res : Result}
    (hs : mainStep N b res = some b') :
    (b'.mgmtWorker = b.mgmtWorker ∧ (BeforeMgmt b'.main → BeforeMgmt b.main) ∧
      (AfterMgmt b'.main → BeforeMgmt b.main ∨ AfterMgmt b.main ∨ b.mgmtWorker = false)) ∨
    (BeforeMgmt b.main ∧ b'.mgmtWorker = true ∧ b'.main = .loop) := by
  unfold BeforeMgmt AfterMgmt
  cases hm : b.main <;> cases res <;>
    simp only [mainStep, sendQuit, mainReceive, hm, reduceCtorEq] at hs
  all_goals repeat' split at hs
  all_goals first
    | (simp at hs; done)
    | (obtain rfl := Option.some.inj hs; simp_all)

structure Inv (s : State) : Prop where
  worker : s.base.mgmtWorker = !s.mgmt.phase.gone
  before : BeforeMgmt s.base.main → s.mgmt.phase = .notCreated
  after : AfterMgmt s.base.main → s.mgmt.phase.gone = true
  ended : s.destroyed = true ∨ s.returned = true → s.base.main = .exited
  mgmt : s.mgmt.WellFormed

theorem init_inv (queue : List Notify) (collector : CollectorPhase) (ok : Bool)
    (clients : Mailboxes.State Client) : Inv (init queue collector ok clients) :=
  ⟨rfl, fun _ => rfl, fun _ => rfl, by simp [init], init_wellFormed clients⟩

theorem baseStep_inv {N : Nat} {s s' : State} {a : Router.Action} (h : Inv s) (ha : a ≠ .mgmtEnd)
    (hs : baseStep N s a = some s') : Inv s' := by
  obtain ⟨hworker, hbefore, hafter, hended, hmgmt⟩ := h
  obtain ⟨b, hb, rfl⟩ := Option.map_eq_some_iff.mp hs
  have hkept (hsame : b.mgmtWorker = s.base.mgmtWorker) :
      ¬ (b.mgmtWorker = true ∧ s.base.mgmtWorker = false) := by simp [hsame]
  rcases main_or_aside hb with ⟨res, rfl, hmain⟩ | haside
  · have hstay : s.base.main ≠ .exited := by
      intro hm
      simp [mainStep, hm] at hmain
    have hended' : ¬ (s.destroyed = true ∨ s.returned = true) := fun hd => hstay (hended hd)
    rcases mainStep_mgmtWorker hmain with ⟨hsame, hbefore', hafter'⟩ | ⟨hbefore', hcreated, hloop⟩
    · simp only [if_neg (hkept hsame)]
      refine ⟨hsame.trans hworker, hbefore ∘ hbefore', ?_, fun hd => absurd hd hended', hmgmt⟩
      intro hm
      rcases hafter' hm with hbef | haft | hnone
      · simp [hbefore hbef, Phase.gone]
      · exact hafter haft
      · simpa [hnone] using hworker
    · have hnot := hbefore hbefore'
      have hnew : b.mgmtWorker = true ∧ s.base.mgmtWorker = false := by
        simp [hcreated, hworker, hnot, Phase.gone]
      simp only [if_pos hnew]
      refine ⟨by simp [hcreated, Thread.goto, Phase.gone], ?_, ?_, fun hd => absurd hd hended',
        create_wellFormed hmgmt hnot⟩
      · simp [hloop, BeforeMgmt]
      · simp [hloop, AfterMgmt]
  · have hm := haside.main
    have hsame := haside.mgmtWorker ha
    simp only [if_neg (hkept hsame)]
    exact ⟨hsame.trans hworker, by rwa [hm], by rwa [hm], by rwa [hm], hmgmt⟩

theorem mgmtStep_inv {N : Nat} {s s' : State} {res : Outcome} (h : Inv s)
    (hs : mgmtStep N s res = some s') : Inv s' := by
  obtain ⟨hworker, hbefore, hafter, hended, hmgmt⟩ := h
  -- a thread that takes a step is neither before nor after its life
  have hlive : s.mgmt.phase.gone = false → ¬ BeforeMgmt s.base.main ∧ ¬ AfterMgmt s.base.main := by
    intro hrun
    refine ⟨fun hm => ?_, fun hm => ?_⟩
    · simp [hbefore hm, Phase.gone] at hrun
    · simp [hafter hm] at hrun
  have hnotEnded : s.mgmt.phase.gone = false → ¬ (s.destroyed = true ∨ s.returned = true) := by
    intro hrun hd
    exact (hlive hrun).2 (by simp [AfterMgmt, hended hd])
  unfold mgmtStep at hs
  split at hs
  · rename_i hp
    have hrun : s.mgmt.phase.gone = false := by simp [hp, Phase.gone]
    obtain ⟨b, hb, rfl⟩ := Option.map_eq_some_iff.mp hs
    have haside := step_aside (by simp) hb
    have hm := haside.main
    have hsame := haside.mgmtWorker (by simp)
    refine ⟨?_, ?_, ?_, fun hd => absurd hd (hnotEnded hrun), goto_wellFormed hmgmt hp rfl⟩
    · rw [hsame, hworker, hrun]
      rfl
    · rw [hm]
      exact fun hbef => absurd hbef (hlive hrun).1
    · rw [hm]
      exact fun haft => absurd haft (hlive hrun).2
  · obtain ⟨t, ht, hs⟩ := Option.bind_eq_some_iff.mp hs
    obtain ⟨hrun, hcreated⟩ := step_runs ht
    have hwell := step_wellFormed hmgmt ht
    split at hs
    · rename_i hend
      obtain ⟨b, hb, rfl⟩ := Option.map_eq_some_iff.mp hs
      obtain rfl := Option.some.inj hb
      refine ⟨?_, ?_, ?_, fun hd => absurd hd (hnotEnded hrun), hwell⟩
      · simp [hend, Phase.gone]
      · exact fun hbef => absurd hbef (hlive hrun).1
      · exact fun haft => absurd haft (hlive hrun).2
    · rename_i hend
      obtain rfl := Option.some.inj hs
      refine ⟨?_, ?_, ?_, fun hd => absurd hd (hnotEnded hrun), hwell⟩
      · have hstill : t.phase.gone = false := by
          rw [← Bool.not_eq_true, gone_iff_ended hcreated]
          exact hend
        rw [hworker, hrun, hstill]
      · exact fun hbef => absurd hbef (hlive hrun).1
      · exact fun haft => absurd haft (hlive hrun).2

theorem step_inv (N : Nat) (s : State) (a : Action) (s' : State) (h : Inv s)
    (hs : step N s a = some s') : Inv s' := by
  cases a with
  | base a =>
    cases a with
    | mgmtShutdown | mgmtEnd => simp [step] at hs
    | _ => exact baseStep_inv h (by simp) hs
  | mgmt res => exact mgmtStep_inv h hs
  | request c r =>
    obtain rfl := Option.some.inj hs
    exact ⟨h.worker, h.before, h.after, h.ended, receive_wellFormed h.mgmt c r⟩
  | mgmtClient a =>
    obtain ⟨t, ht, rfl⟩ := Option.map_eq_some_iff.mp hs
    have hphase : t.phase = s.mgmt.phase := clientStep_phase ht
    refine ⟨?_, ?_, ?_, h.ended, clientStep_wellFormed h.mgmt ht⟩
    · exact hphase ▸ h.worker
    · exact hphase ▸ h.before
    · exact hphase ▸ h.after
  | destroyRegistry =>
    simp only [step, Option.ite_none_right_eq_some, Option.some.injEq] at hs
    obtain ⟨hm, rfl⟩ := hs
    exact ⟨h.worker, h.before, h.after, fun _ => hm, h.mgmt⟩
  | ret =>
    simp only [step, Option.ite_none_right_eq_some, Option.some.injEq] at hs
    obtain ⟨hd, rfl⟩ := hs
    exact ⟨h.worker, h.before, h.after, fun _ => h.ended (Or.inl hd), h.mgmt⟩

theorem orderly {N : Nat} {queue : List Notify} {collector : CollectorPhase} {ok : Bool}
    {clients : Mailboxes.State Client} {s : State}
    (hs : Reachable (step N) (init queue collector ok clients) s) :
    s.mgmt.Orderly ((step N s .destroyRegistry).isSome = true) (s.returned = true) := by
  have hinv : Inv s := hs.invariant (init_inv queue collector ok clients) (step_inv N)
  refine hinv.mgmt.orderly ?_ ?_
  · intro hdestroy
    refine hinv.after (Or.inr (Or.inr (Or.inr ?_)))
    by_contra hm
    simp [step, hm] at hdestroy
  · intro hret
    exact hinv.after (by simp [AfterMgmt, hinv.ended (Or.inr hret)])

end StudyC.Router.Management
