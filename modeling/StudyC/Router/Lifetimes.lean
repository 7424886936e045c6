import StudyC.Router.System

/-!
# Router lifetimes over one queue

The notification queue outlives the process. Each message is marked with its sender: the lifetime of
Router whose `main` sent it, or nobody of the kind. A lifetime may end at any point, by an exit or
by a kill, and the next one starts on what is left.
-/

open Runs

namespace StudyC.Router.Lifetimes

structure State where
  base : Router.State
  lifetime : Nat
  /-- The queue, each message with the lifetime whose `main` sent it. -/
  log : List (Notify × Option Nat)

inductive Action where
  | base (a : Router.Action)
  /-- The next Router starts, and its `msgget` ends as given. -/
  | restart (ipcMsqid : Bool)

def sender (lifetime : Nat) : Router.Action → Option Nat
  | .main _ => some lifetime
  | _ => none

/-- A step takes the first message, or appends one, or neither. -/
def logAfter (s : State) (a : Router.Action) (queue : List Notify) : List (Notify × Option Nat) :=
  if queue.length < s.log.length then s.log.tail
  else s.log ++ (queue.drop s.log.length).map fun m => (m, sender s.lifetime a)

def step (N : Nat) (s : State) : Action → Option State
  | .base a => (Router.step N s.base a).map fun b => ⟨b, s.lifetime, logAfter s a b.queue⟩
  | .restart ok => some ⟨Router.init s.base.queue s.base.collector ok, s.lifetime + 1, s.log⟩

def init (queue : List Notify) (collector : CollectorPhase) (ipcMsqid : Bool) : State :=
  ⟨Router.init queue collector ipcMsqid, 0, queue.map fun m => (m, none)⟩

/-- A QUIT on which the worker leaves its loop was sent by the `main` of its own lifetime. -/
def OwnQuit (s : State) : Action → Prop
  | .base (.worker .ok) => s.base.worker = .atMsgrcv → s.base.ipcMsqid = true →
      ∀ tag ∈ s.log.head?, tag.1 = .quit → tag.2 = some s.lifetime
  | _ => True

/-! ## What a step does to the queue -/

theorem mainStep_queue {N : Nat} {s s' : Router.State} {res : Result}
    (hs : mainStep N s res = some s') :
    s'.queue = s.queue ∨ (∃ m, s.queue = m :: s'.queue) ∨ s'.queue = s.queue ++ [.quit] := by
  simp only [mainStep, sendQuit, mainReceive] at hs
  repeat' split at hs
  all_goals first
    | (simp at hs; done)
    | (obtain rfl := Option.some.inj hs; simp [*])

theorem mainStep_purge {N : Nat} {s s' : Router.State} {res : Result}
    (hs : mainStep N s res = some s') :
    (s'.main = .purge → s.main = .purge ∧ s'.worker = s.worker) ∧
      (s'.main ≠ .purge → s.ipcMsqid = true → s.main ≠ .purge ∨ s'.queue = []) := by
  -- the purge is over only when the queue was empty, or if there is none for it. It creates no
  -- worker
  simp only [mainStep, sendQuit, mainReceive] at hs
  repeat' split at hs
  all_goals first
    | (simp at hs; done)
    | (obtain rfl := Option.some.inj hs; simp [*])

theorem step_queue {N : Nat} {s s' : Router.State} {a : Router.Action}
    (hs : Router.step N s a = some s') :
    s'.queue = s.queue ∨ (∃ m, s.queue = m :: s'.queue) ∨
      (∃ m, s'.queue = s.queue ++ [m] ∧ (m = .quit → ∃ res, a = .main res)) := by
  rcases main_or_aside hs with ⟨res, rfl, hmain⟩ | haside
  · rcases mainStep_queue hmain with hsame | htaken | hquit
    · exact Or.inl hsame
    · exact Or.inr (Or.inl htaken)
    · exact Or.inr (Or.inr ⟨.quit, hquit, fun _ => ⟨res, rfl⟩⟩)
  · rcases haside.queue with hsame | htaken | hdata
    · exact Or.inl hsame
    · exact Or.inr (Or.inl htaken)
    · exact Or.inr (Or.inr ⟨.data, hdata, by simp⟩)

theorem step_purge {N : Nat} {s s' : Router.State} {a : Router.Action}
    (hs : Router.step N s a = some s') :
    (s'.main = .purge → s.main = .purge ∧ (s.worker = .notCreated → s'.worker = .notCreated)) ∧
      (s'.main ≠ .purge → s.ipcMsqid = true → s.main ≠ .purge ∨ s'.queue = []) := by
  rcases main_or_aside hs with ⟨res, rfl, hmain⟩ | haside
  · obtain ⟨hstay, hleave⟩ := mainStep_purge hmain
    refine ⟨fun hm => ?_, hleave⟩
    obtain ⟨hm', hworker⟩ := hstay hm
    exact ⟨hm', fun hnone => hworker.trans hnone⟩
  · rw [haside.main]
    exact ⟨fun hm => ⟨hm, haside.worker⟩, fun hm _ => Or.inl hm⟩

/-! ## Every lifetime -/

/-- After the purge, every QUIT in the queue is from this lifetime. -/
structure Inv (s : State) : Prop where
  queue : s.log.map Prod.fst = s.base.queue
  quits : s.base.ipcMsqid = true → s.base.main ≠ .purge → ∀ tag ∈ s.log, tag.1 = .quit →
    tag.2 = some s.lifetime
  worker : s.base.main = .purge → s.base.worker = .notCreated

theorem init_inv (queue : List Notify) (collector : CollectorPhase) (ok : Bool) :
    Inv (init queue collector ok) := by
  refine ⟨?_, ?_, fun _ => rfl⟩
  · simp [init, Router.init, Function.comp_def]
  · intro _ hm
    exact absurd rfl hm

theorem logAfter_eq {N : Nat} {s : State} {a : Router.Action} {b : Router.State}
    (hqueue : s.log.map Prod.fst = s.base.queue) (hb : Router.step N s.base a = some b) :
    (logAfter s a b.queue).map Prod.fst = b.queue ∧
      ∀ tag ∈ logAfter s a b.queue, tag ∈ s.log ∨ (tag.1 = .quit → tag.2 = some s.lifetime) := by
  have hlength : s.log.length = s.base.queue.length := by rw [← hqueue, List.length_map]
  rcases step_queue hb with hsame | ⟨m, htaken⟩ | ⟨m, happended, hmain⟩
  · have hlog : logAfter s a b.queue = s.log := by
      simp [logAfter, hsame, hlength]
    rw [hlog, hqueue]
    exact ⟨hsame.symm, fun tag htag => Or.inl htag⟩
  · have hlog : logAfter s a b.queue = s.log.tail := by
      rw [logAfter, if_pos (by rw [hlength, htaken]; simp)]
    rw [hlog, List.map_tail, hqueue, htaken]
    exact ⟨rfl, fun tag htag => Or.inl (List.mem_of_mem_tail htag)⟩
  · have hlog : logAfter s a b.queue = s.log ++ [(m, sender s.lifetime a)] := by
      rw [logAfter, if_neg (by rw [hlength, happended]; simp), hlength, happended]
      simp
    rw [hlog, List.map_append, hqueue, happended]
    refine ⟨rfl, ?_⟩
    intro tag htag
    rcases List.mem_append.mp htag with hold | hnew
    · exact Or.inl hold
    · obtain rfl := List.mem_singleton.mp hnew
      refine Or.inr fun hquit => ?_
      obtain ⟨res, rfl⟩ := hmain hquit
      rfl

theorem step_inv (N : Nat) (s : State) (a : Action) (s' : State) (h : Inv s)
    (hs : step N s a = some s') : Inv s' := by
  obtain ⟨hqueue, hquits, hworker⟩ := h
  cases a with
  | restart ok =>
    obtain rfl := Option.some.inj hs
    exact ⟨hqueue, fun _ hm => absurd rfl hm, fun _ => rfl⟩
  | base a =>
    obtain ⟨b, hb, rfl⟩ := Option.map_eq_some_iff.mp hs
    obtain ⟨hlog, htags⟩ := logAfter_eq hqueue hb
    obtain ⟨hstay, hleave⟩ := step_purge hb
    refine ⟨hlog, ?_, ?_⟩
    · intro hipc hm tag htag hquit
      have hipc' : s.base.ipcMsqid = true := (step_ipcMsqid hb).symm.trans hipc
      rcases hleave hm hipc' with hm' | hempty
      · rcases htags tag htag with hold | hnew
        · exact hquits hipc' hm' tag hold hquit
        · exact hnew hquit
      · -- the purge has just ended, and the queue is empty
        have hnil : logAfter s a b.queue = [] := List.map_eq_nil_iff.mp (hlog.trans hempty)
        rw [show State.log _ = _ from hnil] at htag
        simp at htag
    · intro hm
      obtain ⟨hm', hkept⟩ := hstay hm
      exact hkept (hworker hm')

theorem ownQuit_of_inv (s : State) (a : Action) (h : Inv s) : OwnQuit s a := by
  unfold OwnQuit
  split
  · intro hreceive hipc tag htag hquit
    have hm : s.base.main ≠ .purge := by
      intro hm
      rw [h.worker hm] at hreceive
      simp at hreceive
    exact h.quits hipc hm tag (List.mem_of_mem_head? htag) hquit
  · trivial

/-- Over any sequence of Router lifetimes on one queue, and whatever the Collector does, no worker
is ended by a QUIT of another lifetime. -/
theorem quits_from_own_lifetime (N : Nat) (queue : List Notify) (collector : CollectorPhase)
    (ok : Bool) (as : List Action) : Along (step N) OwnQuit (init queue collector ok) as :=
  Along.mono (P := fun _ _ => True) (fun s a s' h _ hs => step_inv N s a s' h hs)
    (fun s a h _ => ownQuit_of_inv s a h) (init_inv queue collector ok)
    (along_of_forall (fun _ _ => trivial) _ _)

end StudyC.Router.Lifetimes
