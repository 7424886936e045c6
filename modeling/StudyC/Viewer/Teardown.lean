import StudyC.Router.Management
import StudyC.Viewer.Invariant

/-!
# The reply to a shutdown

The `SHUTDOWN` handler wakes `main` before its own reply is sent. In Viewer as in Router, the reply
goes out and the dispatch ends before the socket is closed, the registry is destroyed and `main`
returns.
-/

open Runs

namespace StudyC.Viewer

open Mgmt.Worker

theorem handlerStep_wellFormed {s s' : State} {p : HandlerPhase} (h : s.mgmt.WellFormed)
    (hp : s.mgmt.phase = .handler p) (hs : handlerStep s p = some s') : s'.mgmt.WellFormed := by
  cases p <;> simp only [handlerStep] at hs
  case lock =>
    split at hs
    · simp at hs
    · obtain rfl := Option.some.inj hs
      exact goto_wellFormed h hp rfl
  all_goals
    obtain rfl := Option.some.inj hs
    exact goto_wellFormed h hp rfl

theorem mainStep_wellFormed {s s' : State} {ok : Bool} (h : s.mgmt.WellFormed) (hpast : Past s)
    (hs : mainStep s ok = some s') : s'.mgmt.WellFormed := by
  obtain ⟨hsame | ⟨hm, hcreate⟩, -⟩ := mainStep_mgmt hs
  · rwa [hsame]
  · rw [hcreate]
    exact create_wellFormed h (hpast.mgmtCreated (by simp [hm, MainPhase.stage]))

theorem mgmtStep_wellFormed {s s' : State} {res : Outcome} (h : s.mgmt.WellFormed)
    (hs : mgmtStep s res = some s') : s'.mgmt.WellFormed := by
  unfold mgmtStep at hs
  split at hs
  · rename_i p hp
    exact handlerStep_wellFormed h hp hs
  · obtain ⟨t, ht, rfl⟩ := Option.map_eq_some_iff.mp hs
    exact Mgmt.Worker.step_wellFormed h ht

theorem step_wellFormed {s s' : State} {a : Action} (h : s.mgmt.WellFormed) (hpast : Past s)
    (hs : step s a = some s') : s'.mgmt.WellFormed := by
  -- only `main` creates the management thread, and only that thread moves it
  cases a with
  | main ok => exact mainStep_wellFormed h hpast hs
  | sig pick => rwa [(sigStep_mgmt hs).1]
  | tcp res =>
    obtain ⟨tcp, backlog, client, rfl⟩ := tcpStep_frame hs
    exact h
  | mgmt res => exact mgmtStep_wellFormed h hs
  | request c r =>
    obtain rfl := Option.some.inj hs
    exact receive_wellFormed h c r
  | mgmtClient a =>
    obtain ⟨t, ht, rfl⟩ := Option.map_eq_some_iff.mp hs
    exact clientStep_wellFormed h ht
  | _ =>
    obtain rfl := Option.some.inj hs
    exact h

theorem orderly {clients : Mailboxes.State Client} {s : State}
    (hs : Reachable step (init clients) s) :
    s.mgmt.Orderly (s.main = .destroyRegistry) (s.main = .exited ∨ s.main = .failed) := by
  obtain ⟨hinv, hwell⟩ : Inv s ∧ s.mgmt.WellFormed :=
    hs.invariant (I := fun s => Inv s ∧ s.mgmt.WellFormed) ⟨init_inv clients,
      init_wellFormed clients⟩
      fun s a s' h hs => ⟨step_inv s a s' h.1 hs, step_wellFormed h.2 h.1.past hs⟩
  refine hwell.orderly ?_ ?_
  · intro hm
    exact hinv.past.mgmtJoined (by simp [hm, MainPhase.stage])
  · rintro (hm | hm)
    · exact hinv.past.mgmtJoined (by simp [hm, MainPhase.stage])
    · simp [hinv.past.mgmtCreated (by simp [hm, MainPhase.stage]), Phase.gone]

/-- In Router and in Viewer alike, in every reachable state: a reply to `SHUTDOWN` that has not been
passed to `sendto` finds the socket open and `main` not returned, and where `main` destroys the
registry no dispatch is under way. -/
theorem shutdown_reply_precedes_teardown :
    (∀ (N : Nat) (queue : List Router.Notify) (collector : Router.CollectorPhase) (ipcMsqid : Bool)
      (clients : Mailboxes.State Client) (s : Router.Management.State),
      Reachable (Router.Management.step N)
        (Router.Management.init queue collector ipcMsqid clients) s →
      s.mgmt.Orderly ((Router.Management.step N s .destroyRegistry).isSome = true)
        (s.returned = true)) ∧
    (∀ (clients : Mailboxes.State Client) (s : State), Reachable step (init clients) s →
      s.mgmt.Orderly (s.main = .destroyRegistry) (s.main = .exited ∨ s.main = .failed)) :=
  ⟨fun _ _ _ _ _ _ hs => Router.Management.orderly hs, fun _ _ hs => orderly hs⟩

/-- The handler has just woken `main`. -/
def mainWoken : List Action :=
  [.main true, .main true, .sig .int, .sig .int, .sig .int, .sig .int] ++
    List.replicate 9 (.main true) ++
    [.request 0 .shutdown] ++ List.replicate 8 (.mgmt .ok)

theorem mainWoken_reply_owed :
    ∃ s, exec step (init (.empty 10)) mainWoken = some s ∧ s.main = .wokenShutdown ∧
      s.mgmt.owed = true ∧
      s.mgmt.socket = true ∧ ¬ (s.main = .exited ∨ s.main = .failed) :=
  ⟨_, rfl, rfl, rfl, (shutdown_reply_precedes_teardown.2 (.empty 10) _ ⟨mainWoken, rfl⟩).reply rfl⟩

end StudyC.Viewer
