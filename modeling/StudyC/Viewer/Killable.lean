import StudyC.Viewer.Shutdown

/-!
# Signals to Viewer

`SIGUSR1` is meant for `main` alone, which ends `signal_worker` with it. The mask blocks it for the
whole process and `sigwait` takes it from any sender.
-/

open Runs

namespace StudyC.Viewer

open Mgmt.Worker

/-- `main` has left its second loop for good. -/
def MainPhase.terminating (m : MainPhase) : Prop := 6 ≤ m.stage

instance (m : MainPhase) : Decidable m.terminating := inferInstanceAs (Decidable (_ ≤ _))

/-- Nobody outside sends `SIGUSR1` before `main` terminates. -/
def NoOutsidePill (s : State) (a : Action) : Prop := a = .kill .usr1 → s.main.terminating

/-! ## The signal thread lives -/

structure Unpoisoned (s : State) : Prop where
  pending : s.pending .usr1 = false
  sig : s.sig ≠ .ended

theorem mainStep_stage_le {s s' : State} {ok : Bool} (hs : mainStep s ok = some s') :
    s.main.stage ≤ s'.main.stage := by
  cases hm : s.main <;> simp only [mainStep, hm, reduceCtorEq] at hs
  all_goals repeat' split at hs
  all_goals first
    | (simp at hs; done)
    | (obtain rfl := Option.some.inj hs; simp [MainPhase.stage])

theorem mainStep_unpoisoned {s s' : State} {ok : Bool} (h : Unpoisoned s)
    (hs : mainStep s ok = some s') (hnot : ¬ s'.main.terminating) : Unpoisoned s' := by
  obtain ⟨hpending, hsig⟩ := h
  cases hm : s.main <;> simp only [mainStep, hm, reduceCtorEq] at hs
  all_goals repeat' split at hs
  all_goals first
    | (simp at hs; done)
    | (obtain rfl := Option.some.inj hs; simp [MainPhase.terminating,
        MainPhase.stage] at hnot; done)
    | (obtain rfl := Option.some.inj hs; exact ⟨hpending, by simp_all [State.condSignal]⟩)

theorem sigStep_unpoisoned {s s' : State} {pick : Signal} (h : Unpoisoned s)
    (hs : sigStep s pick = some s') : Unpoisoned s' := by
  obtain ⟨hpending, hsig⟩ := h
  cases hp : s.sig <;> simp only [sigStep, hp, reduceCtorEq] at hs
  case sigwait =>
    cases pick
    case usr1 => simp [hpending] at hs
    all_goals
      split at hs
      · obtain rfl := Option.some.inj hs
        exact ⟨by simpa using hpending, by simp⟩
      · simp at hs
  all_goals repeat' split at hs
  all_goals first
    | (simp at hs; done)
    | (obtain rfl := Option.some.inj hs; exact ⟨hpending, by simp⟩)

theorem tcpStep_signals {s s' : State} {res : Result} (hs : tcpStep s res = some s') :
    s'.pending = s.pending ∧ s'.sig = s.sig := by
  obtain ⟨tcp, backlog, client, rfl⟩ := tcpStep_frame hs
  exact ⟨rfl, rfl⟩

theorem mgmtStep_signals {s s' : State} {res : Outcome} (hs : mgmtStep s res = some s') :
    s'.pending = s.pending ∧ s'.sig = s.sig := by
  unfold mgmtStep at hs
  split at hs
  · unfold handlerStep at hs
    repeat' split at hs
    all_goals first
      | (simp at hs; done)
      | (obtain rfl := Option.some.inj hs; exact ⟨rfl, rfl⟩)
  · obtain ⟨t, -, rfl⟩ := Option.map_eq_some_iff.mp hs
    exact ⟨rfl, rfl⟩

theorem Unpoisoned.congr {s s' : State} (h : Unpoisoned s)
    (hsame : s'.pending = s.pending ∧ s'.sig = s.sig) : Unpoisoned s' := by
  obtain ⟨hpending, hsig⟩ := hsame
  exact ⟨by rw [hpending]; exact h.pending, by rw [hsig]; exact h.sig⟩

theorem outside_unpoisoned {s s' : State} {a : Action} (h : Unpoisoned s) (ha : a.outside = true)
    (husr1 : a ≠ .kill .usr1) (hs : step s a = some s') : Unpoisoned s' := by
  cases a <;> simp only [Action.outside, Bool.false_eq_true] at ha
  case mgmtClient a =>
    obtain ⟨clients, -, rfl⟩ := mgmtClient_frame hs
    exact h.congr ⟨rfl, rfl⟩
  all_goals obtain rfl := Option.some.inj hs
  case kill sig =>
    cases sig
    case usr1 => contradiction
    all_goals exact ⟨by simpa using h.pending, h.sig⟩
  all_goals exact h.congr ⟨rfl, rfl⟩

theorem step_unpoisoned {s s' : State} {a : Action} (h : ¬ s.main.terminating → Unpoisoned s)
    (hpill : NoOutsidePill s a) (hs : step s a = some s') :
    ¬ s'.main.terminating → Unpoisoned s' := by
  intro hnot
  -- `main` does not come back from its termination sequence
  have hbefore : s.main.stage ≤ s'.main.stage → Unpoisoned s := fun hle =>
    h fun hterm => hnot (Nat.le_trans hterm hle)
  cases a with
  | main ok => exact mainStep_unpoisoned (hbefore (mainStep_stage_le hs)) hs hnot
  | sig pick => exact sigStep_unpoisoned (hbefore (Nat.le_of_eq (sigStep_keeps hs).stage.symm)) hs
  | tcp res =>
    exact (hbefore (Nat.le_of_eq (tcpStep_keeps hs).stage.symm)).congr (tcpStep_signals hs)
  | mgmt res =>
    exact (hbefore (Nat.le_of_eq (mgmtStep_keeps hs).stage.symm)).congr (mgmtStep_signals hs)
  | _ =>
    have hstage := (outside_keeps rfl hs).stage
    refine outside_unpoisoned (hbefore (Nat.le_of_eq hstage.symm)) rfl ?_ hs
    intro husr1
    have hterm := hpill husr1
    unfold MainPhase.terminating at hnot hterm
    omega

/-! ## A signal is delivered -/

/-- How long `main` keeps the mutex, or is from starting the signal thread. -/
def mainHold : MainPhase → Nat
  | .pipe => 12
  | .createSig => 11
  | .setFailed => 3
  | .signalFailed | .testReady | .testShutdown => 2
  | .unlockFailed | .unlockReady | .unlockShutdown => 1
  | _ => 0

def mgmtHold : Phase HandlerPhase → Nat
  | .handler .set => 3
  | .handler .signal => 2
  | .handler .unlock => 1
  | _ => 0

def delay (sg : Signal) (s : State) : Nat :=
  (if s.pending sg then 10 else 0) + sigRank s.sig + mainHold s.main + mgmtHold s.mgmt.phase

def Delivered (sg : Signal) (s : State) : Prop := s.pending sg = false ∧ s.shutdownRequested = true

structure Awaits (sg : Signal) (s : State) : Prop where
  inv : Inv s
  main : s.main ≠ .failed
  sig : s.sig ≠ .ended
  taken : s.pending sg = true ∨ s.sig = .lock ∨ s.sig = .set ∨ s.shutdownRequested = true

def Advances (sg : Signal) (s : State) : Prop :=
  ∃ a s', a.own = true ∧ step s a = some s' ∧ delay sg s' < delay sg s ∧ Awaits sg s'

@[simp] theorem mainHold_wake (m : MainPhase) : mainHold m.wake = mainHold m := by
  cases m <;> rfl

structure Aside (s s' : State) : Prop where
  sig : s'.sig = s.sig
  pending : s'.pending = s.pending
  flag : s.shutdownRequested = true → s'.shutdownRequested = true
  main : s.main ≠ .failed → s'.main ≠ .failed

theorem Awaits.advance {sg : Signal} {s s' : State} {a : Action} (h : Awaits sg s)
    (ha : a.own = true) (hs : step s a = some s') (haside : Aside s s')
    (hlt : mainHold s'.main + mgmtHold s'.mgmt.phase < mainHold s.main + mgmtHold s.mgmt.phase) :
    Advances sg s := by
  refine ⟨a, s', ha, hs, ?_, step_inv s a s' h.inv hs, haside.main h.main, ?_, ?_⟩
  · unfold delay
    rw [haside.sig, haside.pending]
    omega
  · rw [haside.sig]
    exact h.sig
  · rw [haside.sig, haside.pending]
    exact h.taken.imp_right (Or.imp_right (Or.imp_right haside.flag))

theorem mainStep_holding {s : State} (hholds : s.main.holds = true) :
    ∃ s', mainStep s true = some s' ∧ Aside s s' ∧ s'.mgmt = s.mgmt ∧ mainHold s'.main <
      mainHold s.main := by
  -- `main` is on its way to an unlock, and does not stop before it
  cases hm : s.main <;> simp only [hm, MainPhase.holds, Bool.false_eq_true] at hholds <;>
    simp only [mainStep, hm]
  case testReady =>
    refine ⟨_, rfl, ⟨rfl, rfl, id, fun _ => ?_⟩, rfl, ?_⟩
    all_goals cases s.signalThreadReady <;> simp [mainHold]
  case testShutdown =>
    refine ⟨_, rfl, ⟨rfl, rfl, id, fun _ => ?_⟩, rfl, ?_⟩
    all_goals cases s.shutdownRequested <;> simp [mainHold]
  case setFailed => exact ⟨_, rfl, ⟨rfl, rfl, fun _ => rfl, by simp⟩, rfl, by simp [mainHold]⟩
  all_goals exact ⟨_, rfl, ⟨rfl, rfl, id, by simp⟩, rfl, by simp [mainHold]⟩

theorem wake_ne_failed {m : MainPhase} (h : m ≠ .failed) : m.wake ≠ .failed := by
  cases m <;> simp_all [MainPhase.wake]

theorem mgmtStep_holding {s : State} (hholds : mgmtHolds s.mgmt.phase = true) :
    ∃ s', mgmtStep s .ok = some s' ∧ Aside s s' ∧ mainHold s'.main = mainHold s.main ∧
      mgmtHold s'.mgmt.phase < mgmtHold s.mgmt.phase := by
  unfold mgmtHolds at hholds
  split at hholds
  · rename_i hp
    simp only [mgmtStep, hp, handlerStep]
    exact ⟨_, rfl, ⟨rfl, rfl, fun _ => rfl, id⟩, rfl, by simp [mgmtHold, Thread.goto]⟩
  · rename_i hp
    simp only [mgmtStep, hp, handlerStep]
    exact ⟨_, rfl, ⟨rfl, rfl, id, wake_ne_failed⟩, mainHold_wake _, by simp [mgmtHold, Thread.goto]⟩
  · rename_i hp
    simp only [mgmtStep, hp, handlerStep]
    exact ⟨_, rfl, ⟨rfl, rfl, id, id⟩, rfl, by simp [mgmtHold, Thread.goto]⟩
  · simp at hholds

theorem main_starts {sg : Signal} {s : State} (h : Awaits sg s) (hsig : s.sig = .notCreated) :
    Advances sg s := by
  have hstage := h.inv.past.sigCreated.mp hsig
  cases hm : s.main <;> simp only [hm, MainPhase.stage, Nat.reduceLeDiff] at hstage
  case failed => exact absurd hm h.main
  case pipe =>
    have hs : step s (.main true) = some { s with main := .createSig } := by
      simp [step, mainStep, hm]
    exact h.advance rfl hs ⟨rfl, rfl, id, by simp⟩ (by simp [mainHold, hm])
  case createSig =>
    have hs : step s (.main true) = some { s with main := .lockReady, sig := .lockReady } := by
      simp only [step, mainStep, hm]
    refine ⟨.main true, _, rfl, hs, by simp [delay, hm, hsig, mainHold, sigRank],
      step_inv _ _ _ h.inv hs, by simp, by simp, ?_⟩
    have htaken := h.taken
    simp only [hsig, reduceCtorEq, false_or] at htaken ⊢
    exact htaken

theorem sig_advances {sg : Signal} {s : State} (hsg : sg ≠ .usr1) (h : Awaits sg s)
    (hnot : ¬ Delivered sg s) (hcreated : s.sig ≠ .notCreated)
    (hfree : s.sig.holds = true ∨ s.locked = false) : Advances sg s := by
  suffices hgoes : ∃ s', sigStep s sg = some s' ∧ delay sg s' < delay sg s ∧ s'.main ≠ .failed ∧
      s'.sig ≠ .ended ∧
      (s'.pending sg = true ∨ s'.sig = .lock ∨ s'.sig = .set ∨ s'.shutdownRequested = true) by
    obtain ⟨s', hs, hlt, hmain, hsig, htaken⟩ := hgoes
    exact ⟨.sig sg, s', rfl, hs, hlt, step_inv s (.sig sg) s' h.inv hs, hmain, hsig, htaken⟩
  have hmain := h.main
  have htaken := h.taken
  cases hp : s.sig <;> simp only [sigStep, hp]
  case notCreated => contradiction
  case ended => exact absurd hp h.sig
  case lockReady | lock =>
    have hlocked : s.locked = false := by simpa [hp, SigPhase.holds] using hfree
    rw [if_neg (by simp [hlocked])]
    exact ⟨_, rfl, by simp [delay, hp, sigRank], hmain, by simp, by simp_all⟩
  case sigwait =>
    have hpending : s.pending sg = true := by
      by_contra hno
      simp only [hp, reduceCtorEq, false_or] at htaken
      rcases htaken with hyes | hflag
      · exact hno hyes
      · exact hnot ⟨by simpa using hno, hflag⟩
    rw [if_pos hpending]
    cases sg
    case usr1 => contradiction
    all_goals exact ⟨_, rfl, by simp [delay, hp, hpending, sigRank], hmain, by simp, by simp⟩
  case signalReady | signal =>
    exact ⟨_, rfl, by simp [delay, hp, sigRank, State.condSignal], wake_ne_failed hmain, by simp,
      by simp_all [State.condSignal]⟩
  case set => exact ⟨_, rfl, by simp [delay, hp, sigRank], hmain, by simp, by simp⟩
  all_goals exact ⟨_, rfl, by simp [delay, hp, sigRank], hmain, by simp, by simp_all⟩

theorem awaits_advances {sg : Signal} {s : State} (hsg : sg ≠ .usr1) (h : Awaits sg s)
    (hnot : ¬ Delivered sg s) : Advances sg s := by
  by_cases hmain : s.main.holds = true
  · obtain ⟨s', hs, haside, hmgmt, hlt⟩ := mainStep_holding hmain
    exact h.advance (a := .main true) rfl hs haside (by rw [hmgmt]; omega)
  by_cases hmgmt : mgmtHolds s.mgmt.phase = true
  · obtain ⟨s', hs, haside, hhold, hlt⟩ := mgmtStep_holding hmgmt
    exact h.advance (a := .mgmt .ok) rfl hs haside (by omega)
  by_cases hsig : s.sig = .notCreated
  · exact main_starts h hsig
  refine sig_advances hsg h hnot hsig ?_
  cases hholds : s.sig.holds with
  | true => exact Or.inl rfl
  | false => exact Or.inr (by simp [State.locked, hmain, hmgmt, hholds])

/-- As long as `main` does not terminate and nobody outside sends `SIGUSR1`, the signal thread
lives, and `SIGINT` and `SIGTERM` reach the flag. -/
theorem killable_until_terminating {clients : Mailboxes.State Client} {as : List Action} {t : State}
    (halong : Along step NoOutsidePill (init clients) as)
    (hrun : exec step (init clients) as = some t) (hnot : ¬ t.main.terminating) :
    t.sig ≠ .ended ∧ (t.main ≠ .failed → ∀ sg, sg ≠ .usr1 → ∃ bs u, (∀ b ∈ bs, b.own = true) ∧
      exec step t (.kill sg :: bs) = some u ∧ u.pending sg = false ∧ u.shutdownRequested =
        true) := by
  have hlives : Unpoisoned t :=
    invariant (I := fun s => ¬ s.main.terminating → Unpoisoned s)
      (fun _ _ _ h hpill hs => step_unpoisoned h hpill hs)
        (fun _ => ⟨rfl, by simp [init]⟩) halong hrun hnot
  have hinv : Inv t := Reachable.invariant (init_inv clients) step_inv ⟨as, hrun⟩
  refine ⟨hlives.sig, ?_⟩
  intro hmain sg hsg
  have hkill : step t (.kill sg) = some { t with pending := Function.update t.pending sg true } :=
    rfl
  obtain ⟨bs, u, hown, hbs, hdelivered, -⟩ :=
    exists_run_of_progress (delay sg) (fun s hs hno => awaits_advances hsg hs hno)
      (⟨step_inv _ _ _ hinv hkill, hmain, hlives.sig, Or.inl (by simp)⟩ : Awaits sg _)
  exact ⟨bs, u, hown, exec_cons.mpr ⟨_, hkill, hbs⟩, hdelivered⟩

theorem killable_after_start_up : ∃ t bs u, exec step (init (.empty 10)) startedUp = some t ∧
    t.main = .waitShutdown ∧ exec step t (.kill .term :: bs) = some u ∧ u.shutdownRequested =
      true := by
  obtain ⟨t, hrun, hmain, halong⟩ : ∃ t, exec step (init (.empty 10)) startedUp = some t ∧
      t.main = .waitShutdown ∧ Along step NoOutsidePill (init (.empty 10)) startedUp :=
    ⟨_, rfl, rfl, along_of_forall_mem (by simp [startedUp, NoOutsidePill]) _⟩
  obtain ⟨-, hdelivers⟩ := killable_until_terminating halong hrun (by rw [hmain]; decide)
  obtain ⟨bs, u, -, hu, -, hflag⟩ := hdelivers (by simp [hmain]) .term (by simp)
  exact ⟨t, bs, u, hrun, hmain, hu, hflag⟩

theorem outside_pill_kills :
    ∃ t, exec step (init (.empty 10)) (startedUp ++ [.kill .usr1, .sig .usr1]) = some t ∧
    t.main = .waitShutdown ∧ t.sig = .ended :=
  ⟨_, rfl, rfl, rfl⟩

end StudyC.Viewer
